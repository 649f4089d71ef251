import BoundedStore.Buffer

/-!
# The last write wins

Any number of writes go to a buffer of zeros, at any offsets and one over the other. Each of them fits as a whole or
fails as a whole, and which of the two depends on the capacity alone.

* `Write.Fits`, `Write.Covers`, `Write.Sets` : a write ends within a buffer, reaches a place, and does both;
* `Buffer.after`, `Buffer.afterAll` : the buffer after one write and after a list of them;
* `Buffer.exists_writeAt_iff` : when a write succeeds;
* `Buffer.getElem?_after` : what one write does to each byte; `Buffer.getElem?_afterAll_of_not_sets` and
  `Buffer.getElem?_afterAll_of_last` : what all of them do;
* `Buffer.last_write_wins` : the bytes of a buffer after any writes.
-/

namespace BoundedStore

/-- A byte laid over, or the byte below it. -/
theorem Bytes.getElem?_overwrite {b data : Bytes} {offset : Nat} (h : offset + data.length ≤ b.length) (i : Nat) :
    (overwrite b offset data)[i]? =
      if offset ≤ i ∧ i < offset + data.length then data[i - offset]? else b[i]? := by
  have hfront : (b.take offset).length = offset := by
    rw [List.length_take]
    omega
  rw [overwrite_of_le h, List.append_assoc]
  by_cases hbefore : i < offset
  · rw [List.getElem?_append_left (by omega), List.getElem?_take_of_lt hbefore, if_neg (by omega)]
  · rw [List.getElem?_append_right (by omega), hfront]
    by_cases hin : i < offset + data.length
    · rw [List.getElem?_append_left (by omega), if_pos (by omega)]
    · rw [List.getElem?_append_right (by omega), List.getElem?_drop, if_neg (by omega)]
      congr 1
      omega

/-- Data for a buffer, from an offset on. -/
structure Write where
  offset : UInt64
  data : Bytes
  deriving DecidableEq

namespace Write

/-- The write ends within `capacity` bytes, in unbounded numbers. -/
def Fits (w : Write) (capacity : Nat) : Prop := w.offset.toNat + w.data.length ≤ capacity

instance (w : Write) (capacity : Nat) : Decidable (w.Fits capacity) := inferInstanceAs (Decidable (_ ≤ _))

/-- The write has a byte for place `i`. -/
def Covers (w : Write) (i : Nat) : Prop := w.offset.toNat ≤ i ∧ i < w.offset.toNat + w.data.length

instance (w : Write) (i : Nat) : Decidable (w.Covers i) := inferInstanceAs (Decidable (_ ∧ _))

/-- In a buffer of `capacity` bytes the write determines the byte at place `i`. -/
def Sets (w : Write) (capacity i : Nat) : Prop := w.Fits capacity ∧ w.Covers i

instance (w : Write) (capacity i : Nat) : Decidable (w.Sets capacity i) := inferInstanceAs (Decidable (_ ∧ _))

end Write

namespace Buffer

/-- The buffer after a write; a write that fails leaves it as it was. -/
def after (b : Buffer) (w : Write) : Buffer :=
  match b.writeAt w.offset w.data with
  | .ok written => written
  | .error _ => b

def afterAll (b : Buffer) (writes : List Write) : Buffer := writes.foldl after b

variable (b : Buffer) (w : Write)

theorem afterAll_append (before later : List Write) :
    b.afterAll (before ++ later) = (b.afterAll before).afterAll later :=
  List.foldl_append

/-! ## One write -/

theorem bytes_after_of_fits {b : Buffer} {w : Write} (h : w.Fits b.bytes.length) :
    (b.after w).bytes = Bytes.overwrite b.bytes w.offset.toNat w.data := by
  unfold after
  rw [writeAt_of_le h]

theorem after_of_not_fits {b : Buffer} {w : Write} (h : ¬w.Fits b.bytes.length) : b.after w = b := by
  unfold after
  rw [writeAt_of_lt (Nat.lt_of_not_le h)]

theorem exists_writeAt_iff : (∃ written, b.writeAt w.offset w.data = .ok written) ↔ w.Fits b.bytes.length := by
  by_cases h : w.Fits b.bytes.length
  · exact ⟨fun _ => h, fun _ => ⟨_, writeAt_of_le h⟩⟩
  · rw [writeAt_of_lt (Nat.lt_of_not_le h)]
    constructor
    · rintro ⟨written, hwritten⟩
      cases hwritten
    · intro hfits
      exact absurd hfits h

theorem length_after : (b.after w).bytes.length = b.bytes.length := by
  by_cases h : w.Fits b.bytes.length
  · rw [bytes_after_of_fits h, Bytes.length_overwrite]
  · rw [after_of_not_fits h]

/-- A write determines the bytes that it covers, if it fits, and no others. -/
theorem getElem?_after (i : Nat) :
    (b.after w).bytes[i]? = if w.Sets b.bytes.length i then w.data[i - w.offset.toNat]? else b.bytes[i]? := by
  by_cases h : w.Fits b.bytes.length
  · rw [bytes_after_of_fits h, Bytes.getElem?_overwrite h]
    by_cases hcovers : w.offset.toNat ≤ i ∧ i < w.offset.toNat + w.data.length
    · rw [if_pos hcovers, if_pos (show w.Sets b.bytes.length i from ⟨h, hcovers⟩)]
    · rw [if_neg hcovers, if_neg fun hsets => hcovers hsets.2]
  · rw [after_of_not_fits h, if_neg fun hsets => h hsets.1]

/-! ## Any number of writes -/

theorem length_afterAll (writes : List Write) : (b.afterAll writes).bytes.length = b.bytes.length := by
  induction writes generalizing b with
  | nil => rfl
  | cons w writes ih => exact (ih (b.after w)).trans (b.length_after w)

/-- A byte that no write sets stays. -/
theorem getElem?_afterAll_of_not_sets {writes : List Write} {i : Nat} (h : ∀ w ∈ writes, ¬w.Sets b.bytes.length i) :
    (b.afterAll writes).bytes[i]? = b.bytes[i]? := by
  induction writes generalizing b with
  | nil => rfl
  | cons w writes ih =>
    have hrest : ∀ v ∈ writes, ¬v.Sets (b.after w).bytes.length i := by
      intro v hv
      rw [length_after]
      exact h v (List.mem_cons_of_mem w hv)
    show ((b.after w).afterAll writes).bytes[i]? = b.bytes[i]?
    rw [ih (b.after w) hrest, getElem?_after, if_neg (h w List.mem_cons_self)]

/-- A byte that is set has the value of the last write that sets it. -/
theorem getElem?_afterAll_of_last {w : Write} {i : Nat} (hw : w.Sets b.bytes.length i) (before : List Write)
    {later : List Write} (hlater : ∀ v ∈ later, ¬v.Sets b.bytes.length i) :
    (b.afterAll (before ++ w :: later)).bytes[i]? = w.data[i - w.offset.toNat]? := by
  have hlength : ((b.afterAll before).after w).bytes.length = b.bytes.length := by rw [length_after, length_afterAll]
  rw [afterAll_append]
  show (((b.afterAll before).after w).afterAll later).bytes[i]? = _
  rw [getElem?_afterAll_of_not_sets _ (by rw [hlength]; exact hlater), getElem?_after, length_afterAll, if_pos hw]

/-- **The last write wins.** Whatever writes a fresh buffer of `n` zeros has seen, its capacity is `n`. The next write
succeeds if and only if it ends within `n` bytes in unbounded numbers; otherwise it is told its length and what lies
between its offset and the end, and the buffer stays as it is. Each byte is that of the last write that succeeded and
covers it, and zero if there is none. -/
theorem last_write_wins {n : UInt64} {b : Buffer} (h : allocate n = .ok b) (writes : List Write) :
    (b.afterAll writes).capacity = n ∧
      (∀ w : Write,
        ((∃ written, (b.afterAll writes).writeAt w.offset w.data = .ok written) ↔ w.Fits n.toNat) ∧
          (¬w.Fits n.toNat → b.afterAll (writes ++ [w]) = b.afterAll writes ∧
            ∃ available, available.toNat = n.toNat - w.offset.toNat ∧
              (b.afterAll writes).writeAt w.offset w.data =
                .error (.insufficientSpace (Bytes.size w.data) available))) ∧
      ∀ i < n.toNat,
        (∀ before w later, writes = before ++ w :: later → w.Sets n.toNat i → (∀ v ∈ later, ¬v.Sets n.toNat i) →
          (b.afterAll writes).bytes[i]? = w.data[i - w.offset.toNat]?) ∧
          ((∀ w ∈ writes, ¬w.Sets n.toNat i) → (b.afterAll writes).bytes[i]? = some 0) := by
  have hzeros : b.bytes = List.replicate n.toNat 0 := allocate_eq_ok_iff.1 h
  have hn : b.bytes.length = n.toNat := by rw [hzeros, List.length_replicate]
  have hlength : (b.afterAll writes).bytes.length = n.toNat := (b.length_afterAll writes).trans hn
  have hcapacity : (b.afterAll writes).capacity = n := by rw [← UInt64.toNat_inj, toNat_capacity, hlength]
  refine ⟨hcapacity, fun w => ⟨?succeeds, fun hlong => ?fails⟩, fun i hi => ⟨?last, ?untouched⟩⟩
  case succeeds => rw [exists_writeAt_iff, hlength]
  case fails =>
    rw [← hlength] at hlong
    refine ⟨?_, Word.subFloor n w.offset, Word.toNat_subFloor _ _, ?_⟩
    · rw [afterAll_append]
      exact after_of_not_fits hlong
    · rw [writeAt_of_lt (Nat.lt_of_not_le hlong), hcapacity]
  case last =>
    rintro before w later rfl hw hlater
    rw [← hn] at hw hlater
    exact b.getElem?_afterAll_of_last hw before hlater
  case untouched =>
    intro hnone
    rw [← hn] at hnone
    rw [b.getElem?_afterAll_of_not_sets hnone, hzeros, List.getElem?_replicate_of_lt hi]

/-- Two writes that overlap, one that is too long, an empty one behind the end, and one whose end is no count. -/
theorem last_write_wins_overlapping :
    ∃ (b : Buffer) (writes : List Write), allocate 6 = .ok b ∧
      writes = [⟨1, [1, 2, 3]⟩, ⟨2, [8, 9]⟩, ⟨4, [7, 7, 7]⟩, ⟨7, []⟩, ⟨Word.largest, [5, 5]⟩] ∧
      (b.afterAll writes).capacity = 6 ∧
      (b.afterAll writes).bytes[1]? = some 1 ∧ (b.afterAll writes).bytes[3]? = some 9 ∧
      (b.afterAll writes).bytes[4]? = some 0 ∧
      ¬∃ written, (b.afterAll writes).writeAt 7 [] = .ok written := by
  have hallocate : allocate 6 = .ok _ := rfl
  obtain ⟨hcapacity, hnext, hbytes⟩ := last_write_wins hallocate
    [⟨1, [1, 2, 3]⟩, ⟨2, [8, 9]⟩, ⟨4, [7, 7, 7]⟩, ⟨7, []⟩, ⟨Word.largest, [5, 5]⟩]
  refine ⟨_, _, hallocate, rfl, hcapacity, ?_, ?_, ?_, ?_⟩
  · exact (hbytes 1 (by decide)).1 [] ⟨1, [1, 2, 3]⟩ _ rfl (by decide) (by decide)
  · exact (hbytes 3 (by decide)).1 [⟨1, [1, 2, 3]⟩] ⟨2, [8, 9]⟩ _ rfl (by decide) (by decide)
  · exact (hbytes 4 (by decide)).2 (by decide)
  · exact fun hwritten => absurd ((hnext ⟨7, []⟩).1.1 hwritten) (by decide)

end Buffer
end BoundedStore
