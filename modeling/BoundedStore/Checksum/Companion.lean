import BoundedStore.Checksum.Crc32
import BoundedStore.Checksum.Granularity
import BoundedStore.Error

/-!
# Companion files

A companion begins with the four bytes `crc\0` and the granularity, and goes on with the checksum of every chunk of the
data; words have their most significant byte first.

* `chunks` : data cut into pieces of one size, the last of which may be shorter (`chunks_of_ne_nil`);
* `Companion.encode` : the companion of some data;
* `Companion.verify` : data held against a companion. What follows the last checksum is not looked at.
-/

namespace BoundedStore

/-! ## Chunks -/

/-- Takes up to `fuel` chunks from `data`; `done` holds those already taken, the last one first. -/
def chunksLoop (size : Nat) : Nat → List Bytes → Bytes → List Bytes
  | 0, done, _ => done.reverse
  | _, done, [] => done.reverse
  | fuel + 1, done, b :: data => chunksLoop size fuel ((b :: data).take size :: done) ((b :: data).drop size)

/-- The data in pieces of `size` bytes; the last piece may be shorter. -/
def chunks (size : Nat) (data : Bytes) : List Bytes := chunksLoop size data.length [] data

theorem chunksLoop_nil (size fuel : Nat) (done : List Bytes) : chunksLoop size fuel done [] = done.reverse := by
  cases fuel <;> rfl

theorem chunksLoop_eq_append (size fuel : Nat) (done : List Bytes) (data : Bytes) :
    chunksLoop size fuel done data = done.reverse ++ chunksLoop size fuel [] data := by
  induction fuel generalizing done data with
  | zero => simp [chunksLoop]
  | succ fuel ih =>
    cases data with
    | nil => simp [chunksLoop]
    | cons b data =>
      rw [chunksLoop, chunksLoop, ih, ih [_]]
      simp

/-- Any two amounts of fuel that cover the data give the same chunks. -/
theorem chunksLoop_congr {size : Nat} (hsize : 0 < size) {m n : Nat} {data : Bytes} (hm : data.length ≤ m)
    (hn : data.length ≤ n) (done : List Bytes) :
    chunksLoop size m done data = chunksLoop size n done data := by
  induction m generalizing n data done with
  | zero => rw [List.length_eq_zero_iff.1 (Nat.le_zero.1 hm), chunksLoop_nil, chunksLoop_nil]
  | succ m ih =>
    cases data with
    | nil => rw [chunksLoop_nil, chunksLoop_nil]
    | cons b data =>
      rw [List.length_cons] at hm hn
      obtain ⟨n, rfl⟩ : ∃ k, n = k + 1 := ⟨n - 1, by omega⟩
      change chunksLoop size m _ _ = chunksLoop size n _ _
      have hdrop : ((b :: data).drop size).length ≤ data.length := by
        rw [List.length_drop, List.length_cons]
        omega
      exact ih (by omega) (by omega) _

theorem chunks_nil (size : Nat) : chunks size [] = [] := rfl

theorem chunks_of_ne_nil {size : Nat} (hsize : 0 < size) {data : Bytes} (h : data ≠ []) :
    chunks size data = data.take size :: chunks size (data.drop size) := by
  cases data with
  | nil => exact absurd rfl h
  | cons b data =>
    have hdrop : ((b :: data).drop size).length ≤ data.length := by
      rw [List.length_drop, List.length_cons]
      omega
    unfold chunks
    rw [List.length_cons, chunksLoop, chunksLoop_eq_append, chunksLoop_congr hsize hdrop (Nat.le_refl _)]
    rfl

/-! ## Companions -/

namespace Companion

/-- The bytes with which a companion begins. -/
def magic : Bytes := [99, 114, 99, 0]

/-- The companion of `data`. -/
def encode (g : Granularity) (data : Bytes) : Bytes :=
  magic ++ Bytes.ofWord g.bytes ++ (chunks g.bytes.toNat data).flatMap fun chunk => Bytes.ofWord (crc32 chunk)

/-- The number of the first chunk, counted from `index`, whose checksum is missing or different. -/
def firstMismatch : Nat → List Bytes → Bytes → Option Nat
  | _, [], _ => none
  | index, chunk :: rest, a :: b :: c :: d :: sums =>
    if crc32 chunk = Bytes.toWord a b c d then firstMismatch (index + 1) rest sums else some index
  | index, _ :: _, _ => some index

/-- Holds `data` against a companion; `label` is the path that errors mention. -/
def verify (label : String) (data companion : Bytes) : Except StoreError Unit :=
  match companion with
  | m₀ :: m₁ :: m₂ :: m₃ :: g₀ :: g₁ :: g₂ :: g₃ :: sums =>
    if [m₀, m₁, m₂, m₃] = magic then
      match Granularity.ofWord? (Bytes.toWord g₀ g₁ g₂ g₃) with
      | none => .error (.invalidArgument (.zeroHeaderGranularity label))
      | some g =>
        match firstMismatch 0 (chunks g.bytes.toNat data) sums with
        | none => .ok ()
        | some index => .error (.checksumMismatch label index)
    else .error (.invalidArgument (.badMagic label))
  | _ => .error (.invalidArgument (.truncatedHeader label))

end Companion
end BoundedStore
