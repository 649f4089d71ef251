import BoundedStore.Word

/-!
# The ledger of space

How many bytes of a fixed capacity are in use.

* `Ledger.fits` : a claim may be made while the bytes in use stay below the capacity (`fits_iff`), so the store is
  never completely full;
* `Ledger.claim`, `Ledger.release` : bytes taken and given back. To give back more than is in use leaves nothing
  in use. `release_release_claim` : what is taken at once may be given back in two parts;
* `Ledger.fraction` : the part of the capacity that is in use.
-/

namespace BoundedStore

/-- Bytes in use out of a fixed capacity. -/
structure Ledger where
  used : UInt64
  capacity : UInt64
  deriving DecidableEq

namespace Ledger

/-- Nothing is in use. -/
def empty (capacity : UInt64) : Ledger := ⟨0, capacity⟩

/-- The bytes that are not in use. -/
def available (l : Ledger) : UInt64 := Word.subFloor l.capacity l.used

/-- Whether `n` more bytes may be claimed. -/
def fits (l : Ledger) (n : UInt64) : Bool :=
  match Word.add? l.used n with
  | some total => total < l.capacity
  | none => false

/-- Takes `n` bytes; the caller has seen that they fit. -/
def claim (l : Ledger) (n : UInt64) : Ledger := { l with used := l.used + n }

/-- Gives `n` bytes back. -/
def release (l : Ledger) (n : UInt64) : Ledger := { l with used := Word.subFloor l.used n }

/-- The part of the capacity in use, both counts rounded to single precision first. -/
def fraction (l : Ledger) : Float32 :=
  if l.capacity = 0 then 0 else l.used.toFloat32 / l.capacity.toFloat32

@[simp] theorem capacity_claim (l : Ledger) (n : UInt64) : (l.claim n).capacity = l.capacity := rfl

@[simp] theorem capacity_release (l : Ledger) (n : UInt64) : (l.release n).capacity = l.capacity := rfl

theorem toNat_available (l : Ledger) : l.available.toNat = l.capacity.toNat - l.used.toNat :=
  Word.toNat_subFloor _ _

theorem fits_iff {l : Ledger} {n : UInt64} : l.fits n = true ↔ l.used.toNat + n.toNat < l.capacity.toNat := by
  have hc := Word.toNat_lt l.capacity
  unfold fits
  split
  · next total h =>
    rw [Word.add?_eq_some_iff] at h
    rw [decide_eq_true_iff, UInt64.lt_iff_toNat_lt]
    omega
  · next h =>
    rw [Word.add?_eq_none_iff] at h
    simp
    omega

theorem toNat_used_claim {l : Ledger} {n : UInt64} (h : l.fits n = true) :
    (l.claim n).used.toNat = l.used.toNat + n.toNat := by
  have hc := Word.toNat_lt l.capacity
  rw [fits_iff] at h
  rw [claim, UInt64.toNat_add, Nat.mod_eq_of_lt (by omega)]

theorem toNat_used_release (l : Ledger) (n : UInt64) : (l.release n).used.toNat = l.used.toNat - n.toNat :=
  Word.toNat_subFloor _ _

theorem eq_of_used_eq {l k : Ledger} (hused : l.used.toNat = k.used.toNat) (hcapacity : l.capacity = k.capacity) :
    l = k := by
  cases l
  cases k
  cases hcapacity
  cases UInt64.toNat_inj.1 hused
  rfl

theorem release_comm (l : Ledger) (n m : UInt64) : (l.release n).release m = (l.release m).release n := by
  apply eq_of_used_eq
  · simp only [toNat_used_release]
    omega
  · rfl

/-- What is claimed in one piece may be given back in two. -/
theorem release_release_claim {l : Ledger} {n m : UInt64}
    (h : l.used.toNat + (n.toNat + m.toNat) < l.capacity.toNat) : ((l.claim (n + m)).release n).release m = l := by
  have hcapacity := Word.toNat_lt l.capacity
  have hsum : (n + m).toNat = n.toNat + m.toNat := by rw [UInt64.toNat_add, Nat.mod_eq_of_lt (by omega)]
  have hfits : l.fits (n + m) = true := by
    rw [fits_iff, hsum]
    exact h
  apply eq_of_used_eq
  · rw [toNat_used_release, toNat_used_release, toNat_used_claim hfits, hsum]
    omega
  · rfl

end Ledger
end BoundedStore
