import BoundedStore.Copy
import BoundedStore.Proofs.Reading.Cursor
import BoundedStore.Proofs.Writing.Draft

/-!
# What a copy sends

A copy is a row of writes. Together they are one write of all that was sent, so to the writer a copy is a write, also
when it ends early. How much is sent depends on the room of the writer: all, if that fits, and otherwise the whole
chunks that fit; the reader has then passed one chunk more.

* `Bytes.overwrite_overwrite`, `Writer.write_write` : two writes one behind the other are one;
* `Reader.write_sent` : the writer after a copy is the writer after one write;
* `Shows.copyRounds_succ` : one round, by the cursor of the reader;
* `Shows.exists_reader_copyRounds` : the reader has moved forward in its content;
* `Draft.chunkRoom` : how much is sent where not all fits; `Shows.copyTo_of_le`, `Shows.copyTo_of_lt` : the outcome of
  a copy that fits and of one that does not.
-/

namespace BoundedStore

/-- The length of all whole chunks that fit behind the content. -/
def Draft.chunkRoom (d : Draft) : Nat := (d.size.toNat - d.content.length) / Reader.chunkSize * Reader.chunkSize

/-! ## Adjacent writes -/

/-- Data laid behind data that was just laid down. -/
theorem Bytes.overwrite_overwrite {b front back : Bytes} {offset : Nat}
    (h : offset + front.length + back.length ≤ b.length) :
    overwrite (overwrite b offset front) (offset + front.length) back = overwrite b offset (front ++ back) := by
  have hfirst := overwrite_of_le (show offset + front.length ≤ b.length by omega)
  have hboth : overwrite b offset (front ++ back) = _ :=
    overwrite_of_le (by rw [List.length_append]; omega)
  have hlength : (b.take offset ++ front).length = offset + front.length := by
    rw [List.length_append, List.length_take]
    omega
  rw [overwrite_of_le (by rw [length_overwrite]; exact h), hfirst, hboth, List.take_left' hlength, ← List.drop_drop,
    List.drop_left' hlength, List.drop_drop, List.length_append]
  simp only [List.append_assoc, Nat.add_assoc]

theorem Writer.Wrote.append {w v u : Writer} {front back : Bytes} (hfront : w.Wrote front v) (hback : v.Wrote back u) :
    w.Wrote (front ++ back) u := by
  have hfits := hback.fits
  rw [hfront.bytes, Bytes.length_overwrite, hfront.position] at hfits
  constructor
  · rw [List.length_append]
    omega
  · rw [hback.key, hfront.key]
  · rw [hback.bytes, hfront.bytes, hfront.position, Bytes.overwrite_overwrite hfits]
  · rw [hback.position, hfront.position, List.length_append, Nat.add_assoc]

/-- Two writes are one write of both. -/
theorem Writer.write_write {w v u : Writer} {front back : Bytes} (hfront : w.write front = .ok v)
    (hback : v.write back = .ok u) : w.write (front ++ back) = .ok u := by
  rcases write_cases hfront with ⟨rfl, rfl⟩ | hfirst
  · exact hback
  rcases write_cases hback with ⟨rfl, rfl⟩ | hsecond
  · rw [List.append_nil]
    exact hfront
  · exact write_of_wrote (hfirst.append hsecond)

/-! ## A copy is a write -/

namespace Reader

/-- What was sent, written at once, gives the writer after the copy, whether or not it ended early. -/
theorem write_sent_copyRounds (size rounds : Nat) (r : Reader) (w : Writer) :
    w.write (copyRounds size rounds r w).sent = .ok (copyRounds size rounds r w).writer := by
  induction rounds generalizing r w with
  | zero => exact w.write_nil
  | succ rounds ih =>
    unfold copyRounds
    split
    · exact w.write_nil
    · next count target after hread =>
      split
      · exact w.write_nil
      · dsimp only
        split
        · exact w.write_nil
        · next filled hfilled => exact Writer.write_write hfilled (ih after filled)

theorem write_sent (r : Reader) (w : Writer) : w.write (r.copyTo w).sent = .ok (r.copyTo w).writer :=
  write_sent_copyRounds _ _ r w

namespace Shows

variable {r : Reader} {c : Cursor} (h : r.Shows c)

include h

/-! ## By the cursor of the reader -/

/-- One round: at the end of the content nothing happens, and elsewhere the next chunk is written. -/
theorem copyRounds_succ {size : Nat} (hsize : 0 < size) (rounds : Nat) (w : Writer) :
    copyRounds size (rounds + 1) r w =
      if c.left = 0 then ⟨[], r, w, none⟩
      else
        match w.write (c.next size) with
        | .error e => ⟨[], r.movedTo (c.forward size), w, some (.store e)⟩
        | .ok filled =>
          let rest := copyRounds size rounds (r.movedTo (c.forward size)) filled
          { rest with sent := c.next size ++ rest.sent } := by
  have hread := h.read (List.replicate size 0)
  rw [List.length_replicate] at hread
  have hcount : (UInt64.ofNat (c.reach size)).toNat = c.reach size := h.toNat_reach size
  have hchunk : (c.next size ++ (List.replicate size (0 : UInt8)).drop (c.reach size)).take
      (UInt64.ofNat (c.reach size)).toNat = c.next size := by
    rw [hcount]
    exact List.take_left' (c.length_next _)
  have hnone : UInt64.ofNat (c.reach size) = 0 ↔ c.left = 0 := by
    rw [← UInt64.toNat_inj, hcount, UInt64.toNat_zero, Cursor.reach]
    omega
  rw [copyRounds, hread]
  simp only [hnone, hchunk]
  split
  · next hend =>
    -- nothing is left, so the reader has not moved
    have hstill : c.forward size = c := by
      rw [← Cursor.forward_reach, Cursor.reach, hend, Nat.min_zero, Cursor.forward_zero]
    rw [hstill, h.movedTo_self]
  · rfl

/-- The reader only moves forward. -/
theorem exists_reader_copyRounds {size : Nat} (hsize : 0 < size) (rounds : Nat) (w : Writer) :
    ∃ n, (copyRounds size rounds r w).reader = r.movedTo (c.forward n) := by
  induction rounds generalizing r c w with
  | zero => exact ⟨0, by rw [Cursor.forward_zero, h.movedTo_self]; rfl⟩
  | succ rounds ih =>
    rw [h.copyRounds_succ hsize]
    split
    · exact ⟨0, by rw [Cursor.forward_zero, h.movedTo_self]⟩
    · split
      · exact ⟨size, rfl⟩
      · next filled hfilled =>
        obtain ⟨n, hn⟩ := ih (h.movedTo (c.content_forward size)) filled
        rw [Cursor.forward_forward] at hn
        exact ⟨size + n, hn⟩

/-! ## How much is sent -/

/-- At the end of the content nothing is sent, in any number of rounds. -/
theorem copyRounds_of_left_eq_zero {size : Nat} (hsize : 0 < size) (hend : c.left = 0) (rounds : Nat) {w : Writer}
    {d : Draft} (hw : w.Holds d) :
    w.Holds (d.append c.rest) ∧ copyRounds size rounds r w = ⟨c.rest, r.movedTo (c.forward c.left), w, none⟩ := by
  have hrest : c.rest = [] := List.length_eq_zero_iff.1 (c.length_rest.trans hend)
  rw [hrest, hend, d.append_nil, Cursor.forward_zero, h.movedTo_self]
  refine ⟨hw, ?_⟩
  cases rounds with
  | zero => rfl
  | succ rounds => rw [h.copyRounds_succ hsize, if_pos hend]

/-- What fits is sent to the end. -/
theorem copyRounds_of_le {size : Nat} (hsize : 0 < size) {rounds : Nat} (hrounds : c.left ≤ rounds) {w : Writer}
    {d : Draft} (hw : w.Holds d) (hfits : d.content.length + c.left ≤ d.size.toNat) :
    ∃ v, v.Holds (d.append c.rest) ∧ copyRounds size rounds r w = ⟨c.rest, r.movedTo (c.forward c.left), v, none⟩ := by
  induction rounds generalizing r c w d with
  | zero => exact ⟨w, h.copyRounds_of_left_eq_zero hsize (by omega) 0 hw⟩
  | succ rounds ih =>
    by_cases hend : c.left = 0
    · exact ⟨w, h.copyRounds_of_left_eq_zero hsize hend _ hw⟩
    · have hreach : c.reach size = min size c.left := rfl
      have hlength := c.length_next size
      have hleft := c.left_forward size
      have hcontent := d.length_append (c.next size)
      obtain ⟨v, hv, hheld⟩ := hw.write_of_le (show d.content.length + (c.next size).length ≤ d.size.toNat by omega)
      have hroom : (d.append (c.next size)).content.length + (c.forward size).left ≤ d.size.toNat := by omega
      obtain ⟨u, hu, hrest⟩ := ih (h.movedTo (c.content_forward size)) (by omega) hheld hroom
      rw [d.append_append, c.next_append_rest] at hu
      have hpassed := c.forward_of_le (show c.left ≤ size + (c.forward size).left by omega)
      refine ⟨u, hu, ?_⟩
      rw [h.copyRounds_succ hsize, if_neg hend, hv]
      simp only [hrest]
      rw [c.next_append_rest, Cursor.forward_forward, hpassed]
      rfl

/-- What does not fit is sent in whole chunks as far as these fit, and the reader passes the chunk that is refused. -/
theorem copyRounds_of_lt {size chunks part rounds : Nat} (hpart : part < size) (hrounds : chunks < rounds) {w : Writer}
    {d : Draft} (hw : w.Holds d) (hroom : d.size.toNat = d.content.length + (chunks * size + part))
    (hlong : chunks * size + part < c.left) :
    ∃ v, v.Holds (d.append (c.next (chunks * size))) ∧ copyRounds size rounds r w =
      ⟨c.next (chunks * size), r.movedTo (c.forward (chunks * size + size)), v,
        some (.store (.insufficientSpace (Bytes.size ((c.forward (chunks * size)).next size)) v.remaining))⟩ := by
  have hsize : 0 < size := by omega
  induction chunks generalizing r c w d rounds with
  | zero =>
    obtain ⟨rounds, rfl⟩ : ∃ n, rounds = n + 1 := ⟨rounds - 1, by omega⟩
    have hreach : c.reach size = min size c.left := rfl
    have hlength := c.length_next size
    have hsome : c.next size ≠ [] := List.ne_nil_of_length_pos (by omega)
    have hnone : c.next 0 = [] := List.take_zero
    rw [h.copyRounds_succ hsize, if_neg (by omega), hw.write_of_lt hsome (by omega), Nat.zero_mul, hnone, d.append_nil,
      Cursor.forward_zero, Nat.zero_add]
    exact ⟨w, hw, rfl⟩
  | succ chunks ih =>
    obtain ⟨rounds, rfl⟩ : ∃ n, rounds = n + 1 := ⟨rounds - 1, by omega⟩
    have hreach : c.reach size = min size c.left := rfl
    have hlength := c.length_next size
    have hleft := c.left_forward size
    have hcontent := d.length_append (c.next size)
    have hsucc : (chunks + 1) * size = size + chunks * size := by rw [Nat.succ_mul, Nat.add_comm]
    rw [hsucc] at hroom hlong ⊢
    obtain ⟨v, hv, hheld⟩ := hw.write_of_le (show d.content.length + (c.next size).length ≤ d.size.toNat by omega)
    have hroom' : d.size.toNat = (d.append (c.next size)).content.length + (chunks * size + part) := by omega
    obtain ⟨u, hu, hrest⟩ :=
      ih (h.movedTo (c.content_forward size)) (Nat.lt_of_succ_lt_succ hrounds) hheld hroom' (by omega)
    rw [d.append_append, c.next_append] at hu
    refine ⟨u, hu, ?_⟩
    rw [h.copyRounds_succ hsize, if_neg (by omega), hv]
    simp only [hrest]
    rw [c.next_append, Cursor.forward_forward, Cursor.forward_forward, ← Nat.add_assoc]
    rfl

/-! ### In chunks of the fixed length -/

theorem exists_reader_copyTo (w : Writer) : ∃ n, (r.copyTo w).reader = r.movedTo (c.forward n) :=
  h.exists_reader_copyRounds (by decide) _ w

/-- **A copy that fits sends all that is left.** -/
theorem copyTo_of_le {w : Writer} {d : Draft} (hw : w.Holds d) (hfits : d.content.length + c.left ≤ d.size.toNat) :
    ∃ v, v.Holds (d.append c.rest) ∧ r.copyTo w = ⟨c.rest, r.movedTo (c.forward c.left), v, none⟩ :=
  h.copyRounds_of_le (by decide) (Nat.le_of_eq h.toNat_available.symm) hw hfits

/-- **A copy that does not fit sends the whole chunks that fit**, and fails at the one after them. -/
theorem copyTo_of_lt {w : Writer} {d : Draft} (hw : w.Holds d) (hlong : d.size.toNat < d.content.length + c.left) :
    ∃ v, v.Holds (d.append (c.next d.chunkRoom)) ∧ r.copyTo w =
      ⟨c.next d.chunkRoom, r.movedTo (c.forward (d.chunkRoom + chunkSize)), v,
        some (.store (.insufficientSpace (Bytes.size ((c.forward d.chunkRoom).next chunkSize)) v.remaining))⟩ := by
  have hfits := hw.fits
  have hdiv := Nat.div_add_mod' (d.size.toNat - d.content.length) chunkSize
  have hpart : (d.size.toNat - d.content.length) % chunkSize < chunkSize := Nat.mod_lt _ (by decide)
  have hchunks := Nat.div_le_self (d.size.toNat - d.content.length) chunkSize
  have havailable := h.toNat_available
  exact h.copyRounds_of_lt hpart (by omega) hw (by omega) (by omega)

end Shows

/-- Five bytes in chunks of two, where there is room for three. -/
example : copyRounds 2 5 (start Key.root ⟨[1, 2, 3, 4, 5], by decide⟩) (Writer.start Key.root ⟨[0, 0, 0], by decide⟩) =
    ⟨[1, 2], ⟨Key.root, ⟨[1, 2, 3, 4, 5], by decide⟩, 4⟩, ⟨Key.root, ⟨[1, 2, 0], by decide⟩, 2⟩,
      some (.store (.insufficientSpace 2 1))⟩ := by
  decide +kernel

end Reader
end BoundedStore
