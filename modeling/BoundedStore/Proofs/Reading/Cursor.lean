import BoundedStore.Reader

/-!
# Cursors

A cursor is a place in some content, counted in unbounded numbers. It says what a reader is to do.

* `Cursor.rest`, `Cursor.next` : the bytes from the place on, and the first of them;
* `Cursor.forward`, `Cursor.jump` : the cursor after these, and at another place;
* `next_append`, `forward_forward` : two reads one after the other are one;
* `Reader.Shows` : the reader is at the place of a cursor; the lemmas after it give each operation of the reader by
  its cursor, the loop that fills a target included (`Reader.Shows.fillRounds`).
-/

namespace BoundedStore

@[ext] structure Cursor where
  content : Bytes
  place : Nat
  place_le : place ≤ content.length

namespace Cursor

def start (content : Bytes) : Cursor := ⟨content, 0, Nat.zero_le _⟩

def rest (c : Cursor) : Bytes := c.content.drop c.place

def left (c : Cursor) : Nat := c.content.length - c.place

/-- How many of `n` bytes there are. -/
def reach (c : Cursor) (n : Nat) : Nat := min n c.left

/-- The next `n` bytes, as far as there are. -/
def next (c : Cursor) (n : Nat) : Bytes := c.rest.take n

/-- The cursor after the next `n` bytes. -/
def forward (c : Cursor) (n : Nat) : Cursor :=
  ⟨c.content, c.place + c.reach n, by
    have := c.place_le
    unfold reach left
    omega⟩

def jump (c : Cursor) {n : Nat} (h : n ≤ c.content.length) : Cursor := ⟨c.content, n, h⟩

/-- The place that an origin and a distance name; it may lie outside the content. -/
def target (c : Cursor) : Origin → Int
  | .start position => position.toNat
  | .fromEnd distance => c.content.length + distance.toInt
  | .fromHere distance => c.place + distance.toInt

variable (c : Cursor)

theorem length_rest : c.rest.length = c.left := List.length_drop

@[simp] theorem content_forward (n : Nat) : (c.forward n).content = c.content := rfl

theorem length_next (n : Nat) : (c.next n).length = c.reach n := by
  rw [next, List.length_take, length_rest, reach]

theorem left_forward (n : Nat) : (c.forward n).left = c.left - c.reach n := by
  show c.content.length - (c.place + c.reach n) = c.content.length - c.place - c.reach n
  omega

theorem next_reach (n : Nat) : c.next (c.reach n) = c.next n := by
  rw [next, next, List.take_eq_take_iff, length_rest, reach]
  omega

theorem next_left : c.next c.left = c.rest := by
  rw [next, ← length_rest, List.take_length]

theorem rest_forward (n : Nat) : (c.forward n).rest = c.rest.drop n := by
  show c.content.drop (c.place + c.reach n) = (c.content.drop c.place).drop n
  rw [← List.drop_drop]
  unfold reach
  rcases Nat.le_total n c.left with hle | hle
  · rw [Nat.min_eq_left hle]
  · -- from the end on nothing is left on either side
    have hlength := c.length_rest
    unfold rest at hlength
    rw [Nat.min_eq_right hle, List.drop_eq_nil_of_le (by omega), List.drop_eq_nil_of_le (by omega)]

/-- What is read in two parts is read in one. -/
theorem next_append (m n : Nat) : c.next m ++ (c.forward m).next n = c.next (m + n) := by
  rw [next, next, rest_forward, ← List.take_add]
  rfl

theorem forward_forward (m n : Nat) : (c.forward m).forward n = c.forward (m + n) := by
  refine Cursor.ext rfl ?_
  show c.place + c.reach m + (c.forward m).reach n = c.place + c.reach (m + n)
  simp only [reach, left_forward]
  omega

theorem forward_zero : c.forward 0 = c := by
  refine Cursor.ext rfl ?_
  show c.place + c.reach 0 = c.place
  rw [reach]
  omega

theorem forward_reach (n : Nat) : c.forward (c.reach n) = c.forward n := by
  refine Cursor.ext rfl ?_
  show c.place + c.reach (c.reach n) = c.place + c.reach n
  simp only [reach]
  omega

/-- Nothing is behind the end. -/
theorem forward_of_le {n : Nat} (h : c.left ≤ n) : c.forward n = c.forward c.left := by
  rw [← c.forward_reach n, reach, Nat.min_eq_right h]

theorem next_append_rest (n : Nat) : c.next n ++ (c.forward n).rest = c.rest := by
  rw [next, rest_forward, List.take_append_drop]

end Cursor

/-! ## Readers by their cursors -/

namespace Reader

/-- The reader stands at the place of the cursor, over the same content. -/
structure Shows (r : Reader) (c : Cursor) : Prop where
  content : r.buffer.bytes = c.content
  position : r.position.toNat = c.place

/-- The reader, moved to the place of a cursor. -/
def movedTo (r : Reader) (c : Cursor) : Reader := { r with position := UInt64.ofNat c.place }

theorem shows_start (key : Key) (buffer : Buffer) : (start key buffer).Shows (Cursor.start buffer.bytes) := ⟨rfl, rfl⟩

theorem readInto_of_not (r : Reader) {target : Bytes} {offset len : UInt64}
    (hbounds : ¬(offset.toNat + len.toNat ≤ target.length ∧ offset.toNat + len.toNat < 0x1_0000_0000_0000_0000)) :
    r.readInto target offset len = .error (.invalidArgument (.outOfBounds offset len (Bytes.size target))) := by
  rw [readInto, checkBounds_size, if_neg hbounds]

theorem fillRounds_full (r : Reader) (rounds : Nat) (target : Bytes) :
    fillRounds rounds r target (Bytes.size target) = .ok (target, Bytes.size target) := by
  cases rounds with
  | zero => rfl
  | succ rounds => rw [fillRounds, if_neg (UInt64.lt_irrefl _)]

namespace Shows

variable {r : Reader} {c : Cursor} (h : r.Shows c)

include h

theorem length_lt : c.content.length < 0x4000_0000_0000_0000 := h.content ▸ r.buffer.length_lt

theorem toNat_length : r.length.toNat = c.content.length := by
  rw [Reader.length, Buffer.toNat_capacity, h.content]

theorem within : r.position ≤ r.length := by
  rw [UInt64.le_iff_toNat_le, h.position, h.toNat_length]
  exact c.place_le

theorem toNat_available : r.available.toNat = c.left := by
  rw [available, UInt64.toNat_sub_of_le _ _ h.within, h.toNat_length, h.position]
  rfl

theorem ahead (n : Nat) : r.ahead n = c.next n := by
  rw [Reader.ahead, h.content, h.position]
  rfl

/-- Distances up to the end are words. -/
theorem toNat_reach (n : Nat) : (UInt64.ofNat (c.reach n)).toNat = c.reach n := by
  have hlt := h.length_lt
  refine UInt64.toNat_ofNat_of_lt' ?_
  show c.reach n < 0x1_0000_0000_0000_0000
  unfold Cursor.reach Cursor.left
  omega

theorem min_available (n : UInt64) : min n r.available = UInt64.ofNat (c.reach n.toNat) := by
  rw [← UInt64.toNat_inj, Word.toNat_min, h.toNat_available, h.toNat_reach]
  rfl

/-- Moved to a place in the content, the reader shows it. -/
theorem movedTo {d : Cursor} (hd : d.content = c.content) : (r.movedTo d).Shows d where
  content := h.content.trans hd.symm
  position := by
    have hlt := h.length_lt
    have hplace := d.place_le
    rw [hd] at hplace
    exact UInt64.toNat_ofNat_of_lt' (show d.place < 0x1_0000_0000_0000_0000 by omega)

/-- Two readers over one buffer that show the same place are the same. -/
theorem eq_movedTo {position : UInt64} {d : Cursor} (hd : d.content = c.content)
    (hposition : position.toNat = d.place) : ({ r with position := position } : Reader) = r.movedTo d := by
  have hmoved := (h.movedTo hd).position
  rw [← hposition] at hmoved
  rw [← UInt64.toNat_inj.1 hmoved]
  rfl

theorem movedTo_self : r.movedTo c = r := (h.eq_movedTo rfl h.position).symm

theorem toNat_forward (n : Nat) : (r.position + UInt64.ofNat (c.reach n)).toNat = (c.forward n).place := by
  have hlt := h.length_lt
  have hplace := (c.forward n).place_le
  rw [Cursor.content_forward] at hplace
  have hforward : (c.forward n).place = c.place + c.reach n := rfl
  rw [UInt64.toNat_add, h.position, h.toNat_reach, hforward]
  exact Nat.mod_eq_of_lt (by omega)

theorem forward (n : Nat) :
    ({ r with position := r.position + UInt64.ofNat (c.reach n) } : Reader) = r.movedTo (c.forward n) :=
  h.eq_movedTo rfl (h.toNat_forward n)

/-! ### Reading -/

theorem readByte : r.readByte =
    match c.rest with
    | [] => (none, r)
    | byte :: _ => (some byte, r.movedTo (c.forward 1)) := by
  have hhead : r.buffer.bytes[r.position.toNat]? = c.rest.head? := by
    rw [h.content, h.position, Cursor.rest, List.head?_drop]
  rw [Reader.readByte, hhead]
  cases hrest : c.rest with
  | nil => rfl
  | cons byte bytes =>
    have hlength := c.length_rest
    rw [hrest, List.length_cons] at hlength
    have hone : c.reach 1 = 1 := by
      unfold Cursor.reach
      omega
    have hforward := h.forward 1
    rw [hone] at hforward
    exact congrArg (some byte, ·) hforward

theorem skip (n : UInt64) : r.skip n = (UInt64.ofNat (c.reach n.toNat), r.movedTo (c.forward n.toNat)) := by
  simp only [Reader.skip, h.min_available, h.forward]

theorem readInto {target : Bytes} {offset len : UInt64} (hle : offset.toNat + len.toNat ≤ target.length)
    (hcount : offset.toNat + len.toNat < 0x1_0000_0000_0000_0000) :
    r.readInto target offset len =
      .ok ((UInt64.ofNat (c.reach len.toNat), target.take offset.toNat ++ c.next len.toNat ++
        target.drop (offset.toNat + c.reach len.toNat)), r.movedTo (c.forward len.toNat)) := by
  have hnext : r.ahead (UInt64.ofNat (c.reach len.toNat)).toNat = c.next len.toNat := by
    rw [h.ahead, h.toNat_reach, Cursor.next_reach]
  have hroom : offset.toNat + (c.next len.toNat).length ≤ target.length := by
    rw [Cursor.length_next, Cursor.reach]
    omega
  rw [Reader.readInto, checkBounds_size, if_pos ⟨hle, hcount⟩]
  simp only [h.min_available, h.forward, hnext]
  rw [Bytes.overwrite_of_le hroom, Cursor.length_next]

theorem read (target : Bytes) :
    r.read target =
      .ok ((UInt64.ofNat (c.reach target.length), c.next target.length ++ target.drop (c.reach target.length)),
        r.movedTo (c.forward target.length)) := by
  have hlt := h.length_lt
  have hsize := Bytes.toNat_size_eq_min target
  -- a target that is too long for a count is longer than what is left
  have hreach : c.reach (Bytes.size target).toNat = c.reach target.length := by
    unfold Cursor.reach Cursor.left
    omega
  have hcount := Word.toNat_lt (Bytes.size target)
  have hzero : (0 : UInt64).toNat = 0 := rfl
  have hbounds : (0 : UInt64).toNat + (Bytes.size target).toNat ≤ target.length := by omega
  have hinto := h.readInto hbounds (by omega)
  rw [← Cursor.next_reach, ← Cursor.forward_reach, hreach, Cursor.next_reach, Cursor.forward_reach, hzero,
    List.take_zero, List.nil_append, Nat.zero_add] at hinto
  rw [Reader.read, hinto]

theorem readToEnd : r.readToEnd = (c.rest, r.movedTo (c.forward c.left)) := by
  have hall : r.available = UInt64.ofNat (c.reach c.left) := by
    rw [← UInt64.toNat_inj, h.toNat_available, h.toNat_reach, Cursor.reach, Nat.min_self]
  rw [Reader.readToEnd, h.ahead, h.toNat_available, Cursor.next_left, ← h.forward, hall]

theorem readExact_of_le {n : UInt64} (hle : n.toNat ≤ c.left) :
    r.readExact n = (.ok (c.next n.toNat), r.movedTo (c.forward n.toNat)) := by
  have hn : n = UInt64.ofNat (c.reach n.toNat) := by
    rw [← UInt64.toNat_inj, h.toNat_reach, Cursor.reach, Nat.min_eq_left hle]
  have hforward := h.forward n.toNat
  rw [← hn] at hforward
  rw [Reader.readExact, if_pos (by rw [UInt64.le_iff_toNat_le, h.toNat_available]; exact hle), h.ahead, hforward]

theorem readExact_of_lt {n : UInt64} (hlt : c.left < n.toNat) :
    r.readExact n = (.error .shortRead, r.movedTo (c.forward c.left)) := by
  have hnot : ¬n ≤ r.available := by
    rw [UInt64.le_iff_toNat_le, h.toNat_available]
    omega
  rw [Reader.readExact, if_neg hnot, h.readToEnd]

/-! ### Filling a target -/

/-- With room for just what is left, one round fills the target, and the loop ends there however many it may take. -/
theorem fillRounds {rounds : Nat} {target : Bytes} {filled : UInt64} (hroom : target.length = filled.toNat + c.left)
    (hcount : target.length < 0x1_0000_0000_0000_0000) (hrounds : c.left ≤ rounds) :
    Reader.fillRounds rounds r target filled = .ok (target.take filled.toNat ++ c.rest, Bytes.size target) := by
  have hsize : (Bytes.size target).toNat = target.length := Bytes.toNat_size (by omega)
  have hrest := c.length_rest
  by_cases hnone : c.left = 0
  · have hfull : filled = Bytes.size target := by
      rw [← UInt64.toNat_inj]
      omega
    have htake : target.take filled.toNat = target := List.take_of_length_le (by omega)
    rw [List.length_eq_zero_iff.1 (hrest.trans hnone), List.append_nil, htake, hfull]
    exact r.fillRounds_full rounds target
  · obtain ⟨rounds, rfl⟩ : ∃ n, rounds = n + 1 := ⟨rounds - 1, by omega⟩
    have hlt : filled < Bytes.size target := by
      rw [UInt64.lt_iff_toNat_lt]
      omega
    have hfree : (Bytes.size target - filled).toNat = c.left := by
      rw [UInt64.toNat_sub_of_le _ _ (UInt64.le_of_lt hlt)]
      omega
    have hall : c.reach c.left = c.left := Nat.min_self _
    have hword : (UInt64.ofNat c.left).toNat = c.left := hall ▸ h.toNat_reach c.left
    -- the round asks for all that is left and gets it
    have hread : r.readInto target filled (Bytes.size target - filled) =
        .ok ((UInt64.ofNat c.left, target.take filled.toNat ++ c.rest), r.movedTo (c.forward c.left)) := by
      rw [h.readInto (by omega) (by omega), hfree, hall, Cursor.next_left, List.drop_eq_nil_of_le (by omega),
        List.append_nil]
    have hsome : UInt64.ofNat c.left ≠ 0 := by
      intro hzero
      rw [hzero] at hword
      exact hnone hword.symm
    have hend : filled + UInt64.ofNat c.left = Bytes.size target := by
      rw [← UInt64.toNat_inj, UInt64.toNat_add, hword, hsize, hroom]
      exact Nat.mod_eq_of_lt (by omega)
    have hsame : Bytes.size (target.take filled.toNat ++ c.rest) = Bytes.size target := by
      have hlength : (target.take filled.toNat ++ c.rest).length = target.length := by
        rw [List.length_append, List.length_take, hrest]
        omega
      rw [Bytes.size, hlength, Bytes.size]
    rw [Reader.fillRounds, if_pos hlt, hread]
    simp only [if_neg hsome, hend]
    rw [← hsame]
    exact fillRounds_full _ rounds _

/-- A target of zeros for all that is left is filled by any number of rounds from the number of its bytes on. -/
theorem fillRounds_zeros {rounds : Nat} (hrounds : c.left ≤ rounds) :
    Reader.fillRounds rounds r (List.replicate r.available.toNat 0) 0 = .ok (c.rest, r.available) := by
  have hlt := h.length_lt
  have havailable := h.toNat_available
  have hleft : c.left ≤ c.content.length := Nat.sub_le _ _
  have hlength : (List.replicate r.available.toNat (0 : UInt8)).length = c.left := by
    rw [List.length_replicate, havailable]
  have hsize : Bytes.size (List.replicate r.available.toNat (0 : UInt8)) = r.available := by
    rw [← UInt64.toNat_inj, Bytes.toNat_size (by omega), hlength, havailable]
  have hroom : (List.replicate r.available.toNat (0 : UInt8)).length = (0 : UInt64).toNat + c.left := by
    rw [hlength, UInt64.toNat_zero, Nat.zero_add]
  rw [h.fillRounds hroom (by omega) hrounds, hsize]
  rfl

theorem readWhole : r.readWhole = .ok c.rest := by
  have havailable := h.toNat_available
  rw [Reader.readWhole, h.fillRounds_zeros (Nat.le_of_eq havailable.symm)]
  show Except.ok (c.rest.take r.available.toNat) = .ok c.rest
  rw [havailable, ← c.length_rest, List.take_length]

/-! ### Seeking -/

theorem seek_of_le {position : UInt64} (hle : position.toNat ≤ c.content.length) :
    r.seek position = .ok (r.movedTo (c.jump hle)) := by
  have hmoved : ({ r with position := position } : Reader) = r.movedTo (c.jump hle) := h.eq_movedTo rfl rfl
  rw [Reader.seek, if_pos (by rw [UInt64.le_iff_toNat_le, h.toNat_length]; exact hle), hmoved]

theorem seek_of_lt {position : UInt64} (hlt : c.content.length < position.toNat) :
    r.seek position = .error (.endOfFile position r.length) := by
  have hnot : ¬position ≤ r.length := by
    rw [UInt64.le_iff_toNat_le, h.toNat_length]
    omega
  rw [Reader.seek, if_neg hnot]

theorem target?_eq_some_iff {origin : Origin} {position : UInt64} :
    r.target? origin = some position ↔ c.target origin = position.toNat := by
  cases origin with
  | start place =>
    show some place = some position ↔ (place.toNat : Int) = position.toNat
    rw [Option.some.injEq, ← UInt64.toNat_inj]
    omega
  | fromEnd distance =>
    rw [target?, Word.shift?_eq_some_iff, h.toNat_length]
    rfl
  | fromHere distance =>
    rw [target?, Word.shift?_eq_some_iff, h.position]
    rfl

theorem seekFrom_of_le {origin : Origin} {position : UInt64} (htarget : c.target origin = position.toNat)
    (hle : position.toNat ≤ c.content.length) :
    r.seekFrom origin = .ok (position, r.movedTo (c.jump hle)) := by
  simp only [Reader.seekFrom, h.target?_eq_some_iff.2 htarget, h.seek_of_le hle]

theorem seekFrom_of_lt {origin : Origin} {position : UInt64} (htarget : c.target origin = position.toNat)
    (hlt : c.content.length < position.toNat) :
    r.seekFrom origin = .error (.store (.endOfFile position r.length)) := by
  simp only [Reader.seekFrom, h.target?_eq_some_iff.2 htarget, h.seek_of_lt hlt]

theorem seekFrom_of_ne {origin : Origin} (htarget : ∀ position : UInt64, c.target origin ≠ position.toNat) :
    r.seekFrom origin = .error .seekBeforeStart := by
  have hnone : r.target? origin = none := by
    rw [Option.eq_none_iff_forall_ne_some]
    intro position hposition
    exact htarget position (h.target?_eq_some_iff.1 hposition)
  rw [Reader.seekFrom, hnone]

end Shows
end Reader
end BoundedStore
