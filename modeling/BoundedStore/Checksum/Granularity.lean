import BoundedStore.Word

/-!
# Checksum granularity

* `Granularity` : how many data bytes one checksum covers, never zero;
* `companionSize` : the size of a companion, an eight-byte header and four bytes for every chunk, held at the largest
  64-bit count when it would exceed it.
-/

namespace BoundedStore

/-- How many data bytes one checksum covers. -/
structure Granularity where
  bytes : UInt32
  pos : 0 < bytes.toNat
  deriving DecidableEq

namespace Granularity

/-- The granularity of `w` bytes, unless `w` is zero. -/
def ofWord? (w : UInt32) : Option Granularity :=
  if h : 0 < w.toNat then some ⟨w, h⟩ else none

theorem ofWord?_eq_none_iff {w : UInt32} : ofWord? w = none ↔ w = 0 := by
  rw [← UInt32.toNat_inj, UInt32.toNat_zero]
  unfold ofWord?
  split <;> simp <;> omega

theorem bytes_of_ofWord? {w : UInt32} {g : Granularity} (h : ofWord? w = some g) : g.bytes = w := by
  unfold ofWord? at h
  split at h
  · rw [← Option.some.inj h]
  · cases h

@[simp] theorem ofWord?_bytes (g : Granularity) : ofWord? g.bytes = some g := by
  simp [ofWord?, g.pos]

/-- The size of the companion of a file of `size` bytes. -/
def companionSize (g : Granularity) (size : UInt64) : UInt64 :=
  Word.addCapped (Word.mulCapped (Word.ceilDiv size g.bytes.toUInt64) 4) 8

theorem toNat_companionSize (g : Granularity) (size : UInt64) :
    (g.companionSize size).toNat =
      min (4 * ((size.toNat + g.bytes.toNat - 1) / g.bytes.toNat) + 8) 0xFFFF_FFFF_FFFF_FFFF := by
  rw [companionSize, Word.toNat_addCapped, Word.toNat_mulCapped, Word.toNat_ceilDiv _ _ (by simpa using g.pos)]
  simp only [UInt32.toNat_toUInt64, UInt64.reduceToNat]
  omega

end Granularity
end BoundedStore
