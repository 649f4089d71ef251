import BoundedStore.Proofs.Checksum.Verification
import Mathlib.Algebra.Group.Nat.Defs
import Mathlib.Order.Nat

/-!
# Bursts

Data are changed at positions that all lie within four bytes. The register has four bytes too, so that such a change
never cancels out.

* `Crc32.shift_xor`, `Crc32.feed_xor` : two registers are compared by the bits in which they differ;
* `Crc32.toNat_of_shifts_lt` : if few low bits are left after some shifts, nothing but these was there before, higher up;
* `Crc32.xor_lt_of_foldl_eq` : bytes lead two registers to one only if these differ in the places of the bytes;
* `crc32_ne_of_window` : two byte strings that differ within four bytes have different checksums;
* `burst_caught` : the chunk of the first difference is found.
-/

namespace BoundedStore

namespace Crc32

/-! ## Shifts -/

theorem and_one_eq_one_iff (register : UInt32) : register &&& 1 = 1 ↔ register.toNat % 2 = 1 := by
  rw [← UInt32.toNat_inj, UInt32.toNat_and, UInt32.toNat_one, Nat.and_one_is_mod]

theorem toNat_shiftRight_one (register : UInt32) : (register >>> 1).toNat = register.toNat / 2 := by
  rw [UInt32.toNat_shiftRight]
  exact Nat.shiftRight_eq_div_pow _ 1

theorem shift_of_odd {register : UInt32} (h : register.toNat % 2 = 1) :
    shift register = (register >>> 1) ^^^ polynomial := by
  rw [shift, if_pos ((and_one_eq_one_iff register).2 h)]

theorem shift_of_even {register : UInt32} (h : ¬register.toNat % 2 = 1) : shift register = register >>> 1 := by
  rw [shift, if_neg fun hone => h ((and_one_eq_one_iff register).1 hone)]

theorem odd_xor_iff (r q : UInt32) : (r ^^^ q).toNat % 2 = 1 ↔ ¬(r.toNat % 2 = 1 ↔ q.toNat % 2 = 1) := by
  rw [UInt32.toNat_xor]
  exact Nat.xor_mod_two_eq_one

/-- Shifting is linear. -/
theorem shift_xor (r q : UInt32) : shift (r ^^^ q) = shift r ^^^ shift q := by
  have hcancel : ∀ a b : UInt32, (a ^^^ polynomial) ^^^ (b ^^^ polynomial) = a ^^^ b := by
    intro a b
    rw [UInt32.xor_comm b, UInt32.xor_assoc, ← UInt32.xor_assoc polynomial, UInt32.xor_self, UInt32.zero_xor]
  by_cases hr : r.toNat % 2 = 1
  · by_cases hq : q.toNat % 2 = 1
    · have hboth : ¬(r ^^^ q).toNat % 2 = 1 := fun hodd => (odd_xor_iff r q).1 hodd (iff_of_true hr hq)
      rw [shift_of_even hboth, shift_of_odd hr, shift_of_odd hq, hcancel, UInt32.shiftRight_xor]
    · have hone : (r ^^^ q).toNat % 2 = 1 := (odd_xor_iff r q).2 fun h => hq (h.1 hr)
      rw [shift_of_odd hone, shift_of_odd hr, shift_of_even hq, UInt32.shiftRight_xor, UInt32.xor_assoc,
        UInt32.xor_assoc, UInt32.xor_comm polynomial]
  · by_cases hq : q.toNat % 2 = 1
    · have hone : (r ^^^ q).toNat % 2 = 1 := (odd_xor_iff r q).2 fun h => hr (h.2 hq)
      rw [shift_of_odd hone, shift_of_even hr, shift_of_odd hq, UInt32.shiftRight_xor, UInt32.xor_assoc]
    · have hnone : ¬(r ^^^ q).toNat % 2 = 1 := fun hodd => (odd_xor_iff r q).1 hodd (iff_of_false hr hq)
      rw [shift_of_even hnone, shift_of_even hr, shift_of_even hq, UInt32.shiftRight_xor]

/-- The polynomial has the highest bit, so a register without it has taken up no polynomial. -/
theorem toNat_of_shift_lt {register : UInt32} (h : (shift register).toNat < 2 ^ 31) :
    register.toNat = 2 * (shift register).toNat := by
  by_cases hodd : register.toNat % 2 = 1
  · exfalso
    have hlt := UInt32.toNat_lt register
    have hhalf : (register.toNat / 2).testBit 31 = false := Nat.testBit_lt_two_pow (by omega)
    have hhigh : polynomial.toNat.testBit 31 = true := by decide
    have hbit : (shift register).toNat.testBit 31 = true := by
      rw [shift_of_odd hodd, UInt32.toNat_xor, toNat_shiftRight_one, Nat.testBit_xor, hhalf, hhigh]
      rfl
    rw [Nat.testBit_lt_two_pow h] at hbit
    cases hbit
  · rw [shift_of_even hodd, toNat_shiftRight_one]
    omega

/-- The register after `n` bits have left it. -/
def shifts : Nat → UInt32 → UInt32
  | 0, register => register
  | n + 1, register => shifts n (shift register)

theorem feed_eq_shifts (register : UInt32) (byte : UInt8) : feed register byte = shifts 8 (register ^^^ byte.toUInt32) :=
  rfl

theorem shifts_xor (n : Nat) (r q : UInt32) : shifts n (r ^^^ q) = shifts n r ^^^ shifts n q := by
  induction n generalizing r q with
  | zero => rfl
  | succ n ih => rw [shifts, shift_xor, ih, shifts, shifts]

/-- If no more than `k` low bits are left after `n` shifts, they have come down by `n` places and nothing else was there. -/
theorem toNat_of_shifts_lt {n k : Nat} (hn : k + n ≤ 32) {register : UInt32} (h : (shifts n register).toNat < 2 ^ k) :
    register.toNat = 2 ^ n * (shifts n register).toNat := by
  induction n generalizing register with
  | zero => rw [Nat.pow_zero, Nat.one_mul, shifts]
  | succ n ih =>
    have hrest : (shift register).toNat = 2 ^ n * (shifts (n + 1) register).toNat := ih (by omega) h
    have hlt : (shift register).toNat < 2 ^ 31 := by
      rw [hrest]
      calc 2 ^ n * (shifts (n + 1) register).toNat
        _ < 2 ^ n * 2 ^ k := Nat.mul_lt_mul_of_pos_left h (Nat.two_pow_pos n)
        _ = 2 ^ (n + k) := (Nat.pow_add 2 n k).symm
        _ ≤ 2 ^ 31 := Nat.pow_le_pow_right Nat.two_pos (by omega)
    rw [toNat_of_shift_lt hlt, hrest, Nat.pow_succ, Nat.mul_comm (2 ^ n) 2, Nat.mul_assoc]

/-! ## Two registers -/

/-- The bits in which two registers differ before they are shifted for the next byte. -/
def gap (r q : UInt32) (a b : UInt8) : UInt32 := (r ^^^ q) ^^^ (a.toUInt32 ^^^ b.toUInt32)

theorem feed_xor (r q : UInt32) (a b : UInt8) : feed r a ^^^ feed q b = shifts 8 (gap r q a b) := by
  rw [feed_eq_shifts, feed_eq_shifts, ← shifts_xor, gap]
  congr 1
  ac_rfl

theorem xor_eq_gap_xor (r q : UInt32) (a b : UInt8) : r ^^^ q = gap r q a b ^^^ (a.toUInt32 ^^^ b.toUInt32) := by
  rw [gap, UInt32.xor_assoc, UInt32.xor_self, UInt32.xor_zero]

theorem toNat_bytes_xor_lt (a b : UInt8) : (a.toUInt32 ^^^ b.toUInt32).toNat < 2 ^ 8 := by
  rw [UInt32.toNat_xor, UInt8.toNat_toUInt32, UInt8.toNat_toUInt32]
  exact Nat.xor_lt_two_pow (UInt8.toNat_lt a) (UInt8.toNat_lt b)

theorem feed_injective {r q : UInt32} {byte : UInt8} (h : feed r byte = feed q byte) : r = q := by
  have hzero : (shifts 8 (gap r q byte byte)).toNat = 0 := by
    rw [← feed_xor, h, UInt32.xor_self]
    rfl
  have hgap := toNat_of_shifts_lt (n := 8) (k := 0) (by decide) (by rw [hzero]; decide)
  rw [hzero, Nat.mul_zero, gap, UInt32.xor_self, UInt32.xor_zero] at hgap
  exact UInt32.xor_eq_zero_iff.1 (UInt32.toNat_inj.1 hgap)

theorem foldl_feed_injective {r q : UInt32} {bytes : Bytes} (h : bytes.foldl feed r = bytes.foldl feed q) : r = q := by
  induction bytes generalizing r q with
  | nil => exact h
  | cons byte bytes ih => exact feed_injective (ih h)

/-- Up to four bytes that lead two registers to one bridge a difference only in as many low bytes. -/
theorem xor_lt_of_foldl_eq {u v : Bytes} (hlength : u.length = v.length) (hfour : u.length ≤ 4) {r q : UInt32}
    (h : u.foldl feed r = v.foldl feed q) : (r ^^^ q).toNat < 2 ^ (8 * u.length) := by
  induction u generalizing v r q with
  | nil =>
    obtain rfl : v = [] := List.length_eq_zero_iff.1 hlength.symm
    obtain rfl : r = q := h
    rw [UInt32.xor_self]
    decide
  | cons a u ih =>
    cases v with
    | nil => cases hlength
    | cons b v =>
      simp only [List.length_cons] at hlength hfour ⊢
      have hrest : u.foldl feed (feed r a) = v.foldl feed (feed q b) := h
      have hafter := ih (by omega) (by omega) hrest
      rw [feed_xor] at hafter
      have hgap := toNat_of_shifts_lt (by omega) hafter
      rw [xor_eq_gap_xor r q a b, UInt32.toNat_xor]
      apply Nat.xor_lt_two_pow
      · rw [hgap, Nat.mul_succ, Nat.add_comm, Nat.pow_add]
        exact Nat.mul_lt_mul_of_pos_left hafter (Nat.two_pow_pos 8)
      · exact Nat.lt_of_lt_of_le (toNat_bytes_xor_lt a b) (Nat.pow_le_pow_right Nat.two_pos (by omega))

/-- After the first different bytes, three more do not bring the registers together. -/
theorem foldl_ne_of_burst {register : UInt32} {a b : UInt8} (hne : a ≠ b) {u v : Bytes} (hlength : u.length = v.length)
    (hthree : u.length ≤ 3) : (a :: u).foldl feed register ≠ (b :: v).foldl feed register := by
  intro h
  have hrest : u.foldl feed (feed register a) = v.foldl feed (feed register b) := h
  have hafter := xor_lt_of_foldl_eq hlength (by omega) hrest
  rw [feed_xor] at hafter
  have hgap := toNat_of_shifts_lt (k := 8 * u.length) (by omega) hafter
  have hbyte := toNat_bytes_xor_lt a b
  have hsame : gap register register a b = a.toUInt32 ^^^ b.toUInt32 := by
    rw [gap, UInt32.xor_self, UInt32.zero_xor]
  rw [hsame] at hgap
  -- the difference is a multiple of 2^8 and smaller
  have hzero : (a.toUInt32 ^^^ b.toUInt32).toNat = 0 := by omega
  have hword : a.toUInt32 = b.toUInt32 := UInt32.xor_eq_zero_iff.1 (UInt32.toNat_inj.1 hzero)
  apply hne
  rw [← UInt8.toNat_inj, ← UInt8.toNat_toUInt32, hword, UInt8.toNat_toUInt32]

end Crc32

/-! ## Byte strings -/

/-- A byte string cut before a position, behind it and three bytes later. -/
theorem Bytes.eq_append_window (x : Bytes) {i : Nat} (hi : i < x.length) :
    x = x.take i ++ (x[i] :: (x.drop (i + 1)).take 3 ++ x.drop (i + 4)) := by
  have htail : (x.drop (i + 1)).take 3 ++ x.drop (i + 4) = x.drop (i + 1) := by
    rw [show x.drop (i + 4) = (x.drop (i + 1)).drop 3 by rw [List.drop_drop], List.take_append_drop]
  rw [List.cons_append, htail, ← List.drop_eq_getElem_cons hi, List.take_append_drop]

/-- **Byte strings that differ only within four bytes have different checksums.** -/
theorem crc32_ne_of_window {x y : Bytes} (hlength : x.length = y.length) {i : Nat} (hi : x[i]? ≠ y[i]?)
    (hbefore : ∀ j < i, x[j]? = y[j]?) (hafter : ∀ j, i + 4 ≤ j → x[j]? = y[j]?) : crc32 x ≠ crc32 y := by
  have hx : i < x.length := by
    apply Nat.lt_of_not_le
    intro hle
    rw [List.getElem?_eq_none hle, List.getElem?_eq_none (hlength ▸ hle)] at hi
    exact hi rfl
  have hy : i < y.length := hlength ▸ hx
  have hstart : x.take i = y.take i := by
    apply List.ext_getElem?
    intro j
    rw [List.getElem?_take, List.getElem?_take]
    split
    · next hj => exact hbefore j hj
    · rfl
  have hend : x.drop (i + 4) = y.drop (i + 4) := by
    apply List.ext_getElem?
    intro j
    rw [List.getElem?_drop, List.getElem?_drop]
    exact hafter _ (by omega)
  have hne : x[i] ≠ y[i] := by
    intro h
    rw [List.getElem?_eq_getElem hx, List.getElem?_eq_getElem hy, h] at hi
    exact hi rfl
  have hwindow : ((x.drop (i + 1)).take 3).length = ((y.drop (i + 1)).take 3).length := by
    rw [List.length_take, List.length_take, List.length_drop, List.length_drop, hlength]
  have hthree : ((x.drop (i + 1)).take 3).length ≤ 3 := by
    rw [List.length_take]
    exact Nat.min_le_left _ _
  intro hsame
  have hregister := (UInt32.xor_left_inj _).1 hsame
  rw [x.eq_append_window hx, y.eq_append_window hy, hstart, hend, List.foldl_append, List.foldl_append,
    List.foldl_append, List.foldl_append] at hregister
  exact Crc32.foldl_ne_of_burst hne hwindow hthree (Crc32.foldl_feed_injective hregister)

namespace Companion

/-! ## Companions of other data -/

theorem take_drop_flatMap {pieces : List Bytes} {index : Nat} {piece : Bytes} (h : pieces[index]? = some piece) :
    ((pieces.flatMap fun piece => Bytes.ofWord (crc32 piece)).drop (4 * index)).take 4 = Bytes.ofWord (crc32 piece) := by
  induction pieces generalizing index with
  | nil => cases h
  | cons first rest ih =>
    rw [List.flatMap_cons]
    cases index with
    | zero =>
      cases h
      rfl
    | succ index =>
      rw [Nat.mul_succ, Nat.add_comm, ← List.drop_drop, List.drop_left' (Bytes.length_ofWord _)]
      exact ih h

/-- Against the companion of some data, other data of their length disagree in the chunks with other checksums. -/
theorem disagrees_encode_iff {g : Granularity} {data other : Bytes} (hlength : other.length = data.length) {index : Nat} :
    Disagrees g other (encode g data) index ↔ index * g.bytes.toNat < data.length ∧
      crc32 (chunk g.bytes.toNat data index) ≠ crc32 (chunk g.bytes.toNat other index) := by
  rw [Disagrees, hlength]
  refine and_congr_right fun hlt => not_congr ?_
  have hpiece : (chunks g.bytes.toNat data)[index]? = some (chunk g.bytes.toNat data index) := by
    rw [getElem?_chunks g.pos, if_pos hlt]
  have hsum : ((encode g data).drop (8 + 4 * index)).take 4 = Bytes.ofWord (crc32 (chunk g.bytes.toNat data index)) := by
    rw [← take_drop_flatMap hpiece, ← List.drop_drop]
    rfl
  rw [hsum]
  exact ⟨Bytes.ofWord_injective, congrArg Bytes.ofWord⟩

/-- Chunks before the first difference are the same. -/
theorem chunk_eq_of_lt {size : Nat} {data other : Bytes} {first index : Nat}
    (hbefore : ∀ j < first, other[j]? = data[j]?) (hindex : (index + 1) * size ≤ first) :
    chunk size other index = chunk size data index := by
  apply List.ext_getElem?
  intro j
  rw [getElem?_chunk, getElem?_chunk]
  split
  · apply hbefore
    rw [Nat.succ_mul] at hindex
    omega
  · rfl

/-- The chunks with the first difference have different checksums, if it begins a burst. -/
theorem crc32_chunk_ne {size : Nat} (hsize : 0 < size) {data other : Bytes} (hlength : other.length = data.length)
    {first : Nat} (hfirst : other[first]? ≠ data[first]?) (hbefore : ∀ j < first, other[j]? = data[j]?)
    (hafter : ∀ j, first + 4 ≤ j → other[j]? = data[j]?) :
    crc32 (chunk size data (first / size)) ≠ crc32 (chunk size other (first / size)) := by
  have hplace : first / size * size + first % size = first := by
    rw [Nat.mul_comm]
    exact Nat.div_add_mod first size
  have hmod := Nat.mod_lt first hsize
  apply crc32_ne_of_window (i := first % size)
  · rw [length_chunk, length_chunk, hlength]
  · rw [getElem?_chunk, getElem?_chunk, if_pos hmod, if_pos hmod, hplace]
    exact hfirst.symm
  · intro j hj
    rw [getElem?_chunk, getElem?_chunk, hbefore _ (by omega)]
  · intro j hj
    rw [getElem?_chunk, getElem?_chunk, hafter _ (by omega)]

theorem isLeast_disagrees {g : Granularity} {data other : Bytes} (hlength : other.length = data.length) {first : Nat}
    (hfirst : IsLeast {i | other[i]? ≠ data[i]?} first) (hafter : ∀ j, first + 4 ≤ j → other[j]? = data[j]?) :
    IsLeast {k | Disagrees g other (encode g data) k} (first / g.bytes.toNat) := by
  have hbefore : ∀ j < first, other[j]? = data[j]? := by
    intro j hj
    apply Decidable.byContradiction
    intro hne
    exact Nat.not_le_of_lt hj (hfirst.2 hne)
  have hlt : first < data.length := by
    apply Nat.lt_of_not_le
    intro hle
    apply hfirst.1
    rw [List.getElem?_eq_none hle, List.getElem?_eq_none (hlength.symm ▸ hle)]
  constructor
  · refine (disagrees_encode_iff hlength).2 ⟨?_, crc32_chunk_ne g.pos hlength hfirst.1 hbefore hafter⟩
    exact Nat.lt_of_le_of_lt (Nat.div_mul_le_self _ _) hlt
  · intro index hindex
    obtain ⟨-, hne⟩ := (disagrees_encode_iff hlength).1 hindex
    apply Nat.le_of_not_lt
    intro hbelow
    have hend : (index + 1) * g.bytes.toNat ≤ first :=
      Nat.le_trans (Nat.mul_le_mul_right _ hbelow) (Nat.div_mul_le_self _ _)
    rw [chunk_eq_of_lt hbefore hend] at hne
    exact hne rfl

/-- **A burst is caught, and at the right chunk.** If other data of the same length differ, and only at positions within
four consecutive bytes, the companion of the data does not agree with them, and the error names the chunk of the first
difference. -/
theorem burst_caught (label : String) (g : Granularity) {data other : Bytes} (hlength : other.length = data.length)
    (hne : other ≠ data) {start : Nat} (hburst : ∀ i, other[i]? ≠ data[i]? → start ≤ i ∧ i < start + 4) :
    ∃ first, IsLeast {i | other[i]? ≠ data[i]?} first ∧
      verify label other (encode g data) = .error (.checksumMismatch label (first / g.bytes.toNat)) := by
  have hexists : ∃ i : Nat, other[i]? ≠ data[i]? := by
    apply Classical.byContradiction
    intro hnone
    apply hne
    apply List.ext_getElem?
    intro i
    exact Decidable.byContradiction fun hi => hnone ⟨i, hi⟩
  have hfirst := Nat.isLeast_find hexists
  have hstart := (hburst _ hfirst.1).1
  refine ⟨Nat.find hexists, hfirst, verify_of_isLeast (isLeast_disagrees hlength hfirst ?_)⟩
  intro j hj
  apply Decidable.byContradiction
  intro hdiff
  have := (hburst j hdiff).2
  omega

/-- Two bytes at the border of two chunks, and one three places behind the first. -/
theorem burst_caught_border :
    ∃ (g : Granularity) (data other : Bytes), g.bytes = 4 ∧ data = [0, 1, 2, 3, 4, 5, 6, 7, 8, 9] ∧
      other = [0, 1, 2, 9, 9, 5, 9, 7, 8, 9] ∧ other.length = data.length ∧ other ≠ data ∧
      (∀ i, other[i]? ≠ data[i]? → 3 ≤ i ∧ i < 7) ∧
      verify "/f" other (encode g data) = .error (.checksumMismatch "/f" 0) := by
  have hwindow : ∀ i, ([0, 1, 2, 9, 9, 5, 9, 7, 8, 9] : Bytes)[i]? ≠ ([0, 1, 2, 3, 4, 5, 6, 7, 8, 9] : Bytes)[i]? →
      3 ≤ i ∧ i < 3 + 4 := by
    intro i hi
    by_cases hlt : i < 10
    · have hall : ∀ i < 10, ([0, 1, 2, 9, 9, 5, 9, 7, 8, 9] : Bytes)[i]? ≠ ([0, 1, 2, 3, 4, 5, 6, 7, 8, 9] : Bytes)[i]? →
          3 ≤ i ∧ i < 3 + 4 := by
        decide
      exact hall i hlt hi
    · rw [List.getElem?_eq_none (Nat.le_of_not_lt hlt), List.getElem?_eq_none (Nat.le_of_not_lt hlt)] at hi
      exact absurd rfl hi
  have hne : ([0, 1, 2, 9, 9, 5, 9, 7, 8, 9] : Bytes) ≠ [0, 1, 2, 3, 4, 5, 6, 7, 8, 9] := by decide
  obtain ⟨first, hfirst, hverify⟩ := burst_caught "/f" ⟨4, by decide⟩ (by rfl) hne hwindow
  have hdiffers : ([0, 1, 2, 9, 9, 5, 9, 7, 8, 9] : Bytes)[3]? ≠ ([0, 1, 2, 3, 4, 5, 6, 7, 8, 9] : Bytes)[3]? := by decide
  have hthree : first = 3 := Nat.le_antisymm (hfirst.2 hdiffers) (hwindow first hfirst.1).1
  rw [hthree] at hverify
  exact ⟨⟨4, by decide⟩, _, _, rfl, rfl, rfl, rfl, hne, hwindow, hverify⟩

end Companion
end BoundedStore
