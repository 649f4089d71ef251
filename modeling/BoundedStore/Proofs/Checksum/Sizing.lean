import BoundedStore.Proofs.Checksum.Verification
import Mathlib.Algebra.Order.Floor.Div

/-!
# The size of a companion

The size that is reserved for a companion comes from a quotient of words, the companion itself from a loop over chunks.
The two agree for every length and every granularity, and the loop may be stopped at the end of any chunk.

* `Granularity.companionSize_mono`, `Granularity.companionSize_anti` : more data take no smaller companion, and a
  coarser granularity takes no larger one;
* `Companion.size_encode`, `Companion.length_encode_eq_iff` : the size is that of the companion, as a count and as a
  number;
* `chunks_append`, `Companion.encode_append` : data that are cut where a chunk ends are encoded one part after the
  other;
* `Companion.sized_exactly` : all of this together.
-/

namespace BoundedStore

/-! ## The reserved size -/

namespace Granularity

theorem toNat_companionSize_eq_ceilDiv (g : Granularity) (n : UInt64) :
    (g.companionSize n).toNat = min 0xFFFF_FFFF_FFFF_FFFF (4 * (n.toNat ⌈/⌉ g.bytes.toNat) + 8) := by
  rw [toNat_companionSize, Nat.ceilDiv_eq_add_pred_div, Nat.min_comm]

/-- More data take no smaller companion. -/
theorem companionSize_mono (g : Granularity) {n m : UInt64} (h : n ≤ m) : g.companionSize n ≤ g.companionSize m := by
  rw [UInt64.le_iff_toNat_le] at h ⊢
  have hcount : n.toNat ⌈/⌉ g.bytes.toNat ≤ m.toNat ⌈/⌉ g.bytes.toNat := (gc_mul_ceilDiv g.pos).monotone_l h
  rw [toNat_companionSize_eq_ceilDiv, toNat_companionSize_eq_ceilDiv]
  omega

/-- A coarser granularity takes no larger companion. -/
theorem companionSize_anti {g k : Granularity} (h : g.bytes ≤ k.bytes) (n : UInt64) :
    k.companionSize n ≤ g.companionSize n := by
  rw [UInt32.le_iff_toNat_le] at h
  have hcount : n.toNat ⌈/⌉ k.bytes.toNat ≤ n.toNat ⌈/⌉ g.bytes.toNat := by
    apply (ceilDiv_le_iff_le_mul k.pos).2
    calc n.toNat ≤ g.bytes.toNat * (n.toNat ⌈/⌉ g.bytes.toNat) := (ceilDiv_le_iff_le_mul g.pos).1 le_rfl
      _ ≤ k.bytes.toNat * (n.toNat ⌈/⌉ g.bytes.toNat) := Nat.mul_le_mul_right _ h
  rw [UInt64.le_iff_toNat_le, toNat_companionSize_eq_ceilDiv, toNat_companionSize_eq_ceilDiv]
  omega

end Granularity

/-! ## Data in two parts -/

/-- Chunks that end where the first part ends are those of the two parts. -/
theorem chunks_append {size : Nat} (hsize : 0 < size) {front : Bytes} (h : size ∣ front.length) (back : Bytes) :
    chunks size (front ++ back) = chunks size front ++ chunks size back := by
  obtain ⟨count, hcount⟩ := h
  induction count generalizing front with
  | zero =>
    rw [Nat.mul_zero, List.length_eq_zero_iff] at hcount
    rw [hcount, chunks_nil, List.nil_append, List.nil_append]
  | succ count ih =>
    rw [Nat.mul_succ] at hcount
    have hlong : size ≤ front.length := by omega
    have hfront : front ≠ [] := by
      apply List.length_pos_iff.1
      omega
    have hrest : (front.drop size).length = size * count := by
      rw [List.length_drop]
      omega
    rw [chunks_of_ne_nil hsize (List.append_ne_nil_of_left_ne_nil hfront back), chunks_of_ne_nil hsize hfront,
      List.take_append_of_le_length hlong, List.drop_append_of_le_length hlong, ih hrest, List.cons_append]

namespace Companion

/-- The checksums of the second part follow those of the first. -/
theorem encode_append (g : Granularity) {front : Bytes} (h : g.bytes.toNat ∣ front.length) (back : Bytes) :
    encode g (front ++ back) = encode g front ++ (encode g back).drop 8 := by
  rw [encode_eq_header_append, encode_eq_header_append g front, encode_eq_header_append g back,
    List.drop_left' (length_header g), chunks_append g.pos h, List.flatMap_append, List.append_assoc]

/-! ## The size of what is encoded -/

/-- The reserved size is the length of the companion as a count. -/
theorem size_encode (g : Granularity) {data : Bytes} {n : UInt64} (hn : data.length = n.toNat) :
    Bytes.size (encode g data) = g.companionSize n := by
  rw [← UInt64.toNat_inj, Bytes.toNat_size_eq_min, length_encode, hn, Granularity.toNat_companionSize]

/-- It is the length itself, unless no count is as large. -/
theorem length_encode_eq_iff (g : Granularity) {data : Bytes} {n : UInt64} (hn : data.length = n.toNat) :
    (encode g data).length = (g.companionSize n).toNat ↔ (encode g data).length ≤ 0xFFFF_FFFF_FFFF_FFFF := by
  rw [← size_encode g hn, Bytes.toNat_size_eq_min]
  omega

/-- The granularity can be read from the header again. -/
theorem exists_toWord_encode (g : Granularity) (data : Bytes) :
    ∃ a b c d, ((encode g data).drop 4).take 4 = [a, b, c, d] ∧ Bytes.toWord a b c d = g.bytes :=
  ⟨_, _, _, _, rfl, Bytes.toWord_ofWord g.bytes⟩

/-- **The size of a companion is exact.** The size that is reserved for `n` bytes of data is eight bytes and four for
each chunk that is begun, or the largest count if that is more. It grows with the data and falls with the granularity.
The companion of some data is as long as the formula says, and this is the size reserved for it: as a count always,
and as a number unless no count is as large. The granularity stands behind the magic bytes; and the companion of data
that are cut where a chunk ends is that of the first part and, without its header, that of the second. -/
theorem sized_exactly (g : Granularity) :
    (∀ n, (g.companionSize n).toNat = min 0xFFFF_FFFF_FFFF_FFFF (4 * (n.toNat ⌈/⌉ g.bytes.toNat) + 8)) ∧
      (∀ n m, n ≤ m → g.companionSize n ≤ g.companionSize m) ∧
      (∀ k : Granularity, g.bytes ≤ k.bytes → ∀ n, k.companionSize n ≤ g.companionSize n) ∧
      ∀ data : Bytes,
        (encode g data).length = 4 * (data.length ⌈/⌉ g.bytes.toNat) + 8 ∧
          (∀ n : UInt64, data.length = n.toNat →
            Bytes.size (encode g data) = g.companionSize n ∧
              ((encode g data).length = (g.companionSize n).toNat ↔
                (encode g data).length ≤ 0xFFFF_FFFF_FFFF_FFFF)) ∧
          (∃ a b c d, ((encode g data).drop 4).take 4 = [a, b, c, d] ∧ Bytes.toWord a b c d = g.bytes) ∧
          ∀ front back, data = front ++ back → g.bytes.toNat ∣ front.length →
            encode g data = encode g front ++ (encode g back).drop 8 := by
  refine ⟨g.toNat_companionSize_eq_ceilDiv, fun n m => g.companionSize_mono, fun k => Granularity.companionSize_anti,
    fun data => ⟨?length, fun n hn => ⟨size_encode g hn, length_encode_eq_iff g hn⟩, exists_toWord_encode g data,
      ?parts⟩⟩
  case length => rw [length_encode, Nat.ceilDiv_eq_add_pred_div]
  case parts =>
    rintro front back rfl hfront
    exact encode_append g hfront back

/-- The proviso is needed: a cut inside a chunk makes two chunks of it. -/
example : (encode ⟨2, by decide⟩ [1, 2]).length = 12 ∧
    (encode ⟨2, by decide⟩ [1] ++ (encode ⟨2, by decide⟩ [2]).drop 8).length = 16 := by decide

end Companion
end BoundedStore
