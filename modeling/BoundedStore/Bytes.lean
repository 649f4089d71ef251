/-!
# Byte strings

File contents, companions and caller data are lists of bytes.

* `Bytes.size` : the length as a 64-bit count, held at the largest one;
* `Bytes.overwrite` : data laid over a byte string, whose length never changes;
* `Bytes.ofWord`, `Bytes.toWord` : a 32-bit word as four bytes, the most significant first.
-/

namespace BoundedStore

/-- A byte string. -/
abbrev Bytes := List UInt8

namespace Bytes

/-- The length as a 64-bit count, or the largest count if it does not fit. -/
def size (b : Bytes) : UInt64 := UInt64.ofNat (min b.length 0xFFFF_FFFF_FFFF_FFFF)

theorem toNat_size_eq_min (b : Bytes) : (size b).toNat = min b.length 0xFFFF_FFFF_FFFF_FFFF :=
  UInt64.toNat_ofNat_of_lt' (Nat.lt_of_le_of_lt (Nat.min_le_right _ _) (by decide))

theorem toNat_size {b : Bytes} (h : b.length ≤ 0xFFFF_FFFF_FFFF_FFFF) : (size b).toNat = b.length := by
  rw [toNat_size_eq_min, Nat.min_eq_left h]

/-- `data` laid over `b` from `offset` on and cut where `b` ends. -/
def overwrite (b : Bytes) (offset : Nat) (data : Bytes) : Bytes :=
  b.take offset ++ (data.take (b.length - offset) ++ b.drop (offset + data.length))

@[simp] theorem length_overwrite (b : Bytes) (offset : Nat) (data : Bytes) :
    (overwrite b offset data).length = b.length := by
  simp only [overwrite, List.length_append, List.length_take, List.length_drop]
  omega

theorem overwrite_nil (b : Bytes) (offset : Nat) : overwrite b offset [] = b := by simp [overwrite]

/-- Data that fits is not cut. -/
theorem overwrite_of_le {b data : Bytes} {offset : Nat} (h : offset + data.length ≤ b.length) :
    overwrite b offset data = b.take offset ++ data ++ b.drop (offset + data.length) := by
  have hdata : data.take (b.length - offset) = data := List.take_of_length_le (by omega)
  rw [overwrite, hdata, List.append_assoc]

/-- Data as long as the byte string takes its place. -/
theorem overwrite_zero {b data : Bytes} (h : data.length = b.length) : overwrite b 0 data = data := by
  have hdrop : b.drop (0 + data.length) = [] := List.drop_eq_nil_of_le (by omega)
  rw [overwrite_of_le (by omega), hdrop]
  simp

/-- The four bytes of a word, the most significant first. -/
def ofWord (w : UInt32) : Bytes :=
  [UInt8.ofNat (w.toNat >>> 24), UInt8.ofNat (w.toNat >>> 16), UInt8.ofNat (w.toNat >>> 8),
    UInt8.ofNat w.toNat]

@[simp] theorem length_ofWord (w : UInt32) : (ofWord w).length = 4 := rfl

/-- The word whose bytes are `a b c d`, the most significant first. -/
def toWord (a b c d : UInt8) : UInt32 :=
  UInt32.ofNat (((a.toNat * 256 + b.toNat) * 256 + c.toNat) * 256 + d.toNat)

theorem toWord_ofWord (w : UInt32) :
    toWord (UInt8.ofNat (w.toNat >>> 24)) (UInt8.ofNat (w.toNat >>> 16)) (UInt8.ofNat (w.toNat >>> 8))
      (UInt8.ofNat w.toNat) = w := by
  have h := UInt32.toNat_lt w
  rw [← UInt32.toNat_inj, toWord, UInt32.toNat_ofNat']
  simp only [UInt8.toNat_ofNat']
  omega

end Bytes
end BoundedStore
