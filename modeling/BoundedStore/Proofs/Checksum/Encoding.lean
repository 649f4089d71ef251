import BoundedStore.Checksum.Companion

/-!
# Companions of encoded data

* `length_chunks` : data is cut into as many chunks as the quotient rounded up;
* `length_encode`, `length_encode_eq_companionSize` : a companion is as long as the size that is reserved for it;
* `verify_encode` : data agrees with its own companion.
-/

namespace BoundedStore

/-! ## Counting chunks -/

/-- Taking one chunk from a nonempty rest lowers the rounded quotient by one. -/
theorem ceil_eq_succ {n size : Nat} (hsize : 0 < size) (hn : 0 < n) :
    (n + size - 1) / size = (n - size + size - 1) / size + 1 := by
  have hstep : (n + size - 1) / size = (n - 1) / size + 1 := by
    rw [show n + size - 1 = n - 1 + size by omega, Nat.add_div_right _ hsize]
  rw [hstep]
  congr 1
  by_cases h : size ≤ n
  · rw [show n - size + size - 1 = n - 1 by omega]
  · rw [Nat.div_eq_of_lt (by omega), Nat.div_eq_of_lt (by omega)]

theorem length_chunks {size : Nat} (hsize : 0 < size) (data : Bytes) :
    (chunks size data).length = (data.length + size - 1) / size := by
  induction h : data.length using Nat.strongRecOn generalizing data with
  | ind n ih =>
    by_cases hdata : data = []
    · subst hdata
      cases h
      rw [chunks_nil, List.length_nil, List.length_nil, Nat.div_eq_of_lt (by omega)]
    · have hpos : 0 < data.length := List.length_pos_iff.2 hdata
      have hdrop : (data.drop size).length = data.length - size := List.length_drop
      have hrest := ih (data.length - size) (by omega) (data.drop size) hdrop
      rw [chunks_of_ne_nil hsize hdata, List.length_cons, hrest, ← h, ← ceil_eq_succ hsize hpos]

/-! ## The length of a companion -/

theorem length_flatMap_ofWord (sum : Bytes → UInt32) (pieces : List Bytes) :
    (pieces.flatMap fun piece => Bytes.ofWord (sum piece)).length = 4 * pieces.length := by
  induction pieces with
  | nil => rfl
  | cons piece pieces ih =>
    rw [List.flatMap_cons, List.length_append, Bytes.length_ofWord, ih, List.length_cons]
    omega

theorem Companion.length_encode (g : Granularity) (data : Bytes) :
    (encode g data).length = 4 * ((data.length + g.bytes.toNat - 1) / g.bytes.toNat) + 8 := by
  have hmagic : magic.length = 4 := rfl
  rw [encode, List.length_append, List.length_append, hmagic, Bytes.length_ofWord, length_flatMap_ofWord,
    length_chunks g.pos]
  omega

/-- **A companion fills the space that is reserved for it**, unless its size is held at the largest count. -/
theorem Companion.length_encode_eq_companionSize {g : Granularity} {data : Bytes}
    (hdata : data.length ≤ 0xFFFF_FFFF_FFFF_FFFF)
    (h : (g.companionSize (Bytes.size data)).toNat < 0xFFFF_FFFF_FFFF_FFFF) :
    (encode g data).length = (g.companionSize (Bytes.size data)).toNat := by
  rw [Granularity.toNat_companionSize, Bytes.toNat_size hdata] at h ⊢
  rw [length_encode]
  omega

/-! ## Data against its own companion -/

theorem Companion.firstMismatch_flatMap (index : Nat) (pieces : List Bytes) :
    firstMismatch index pieces (pieces.flatMap fun piece => Bytes.ofWord (crc32 piece)) = none := by
  induction pieces generalizing index with
  | nil => rfl
  | cons piece pieces ih =>
    rw [List.flatMap_cons]
    simp only [Bytes.ofWord, List.cons_append, List.nil_append, firstMismatch, Bytes.toWord_ofWord, if_true]
    exact ih (index + 1)

theorem Companion.verify_encode (label : String) (g : Granularity) (data : Bytes) :
    verify label data (encode g data) = .ok () := by
  have hheader : encode g data = 99 :: 114 :: 99 :: 0 :: UInt8.ofNat (g.bytes.toNat >>> 24) ::
      UInt8.ofNat (g.bytes.toNat >>> 16) :: UInt8.ofNat (g.bytes.toNat >>> 8) :: UInt8.ofNat g.bytes.toNat ::
      (chunks g.bytes.toNat data).flatMap fun piece => Bytes.ofWord (crc32 piece) := rfl
  have hmagic : ([99, 114, 99, 0] : Bytes) = magic := rfl
  rw [hheader, verify]
  simp only [if_pos hmagic, Bytes.toWord_ofWord, Granularity.ofWord?_bytes, firstMismatch_flatMap]

end BoundedStore
