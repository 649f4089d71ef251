import BoundedStore.Ledger

/-!
# The ledger over a history

Bytes are claimed and released in any order. A claim is made only if it fits; a release is always made, and one that is
larger than what is in use leaves nothing in use. Along such a history words and unbounded integers count the same.

* `Ledger.fits_iff_lt_available` : a claim fits exactly if it is smaller than what is available, also where more is in
  use than the capacity;
* `Ledger.Entry`, `Ledger.afterAll`, `Ledger.PermitsAll` : histories, and when every claim in one fits at its turn;
* `Ledger.Counts` : a ledger shows an integer, within its capacity; one entry keeps it (`counts_after`), and so does a
  history (`counts_afterAll`);
* `Ledger.history_exact` : at every moment of a history the ledger shows the integer that the history comes to.
-/

namespace BoundedStore.Ledger

/-! ## What fits and what is available -/

/-- The two ways to ask for room agree; where a claim would leave nothing available, it does not fit. -/
theorem fits_iff_lt_available {l : Ledger} {n : UInt64} : l.fits n = true ↔ n < l.available := by
  rw [fits_iff, UInt64.lt_iff_toNat_lt, toNat_available]
  omega

/-- More is in use than the capacity: nothing is available, and not even an empty claim fits. -/
example : (⟨9, 4⟩ : Ledger).available = 0 ∧ (⟨9, 4⟩ : Ledger).fits 0 = false := by decide

/-! ## Histories -/

/-- A change of a ledger. -/
inductive Entry
  | claim (n : UInt64)
  | release (n : UInt64)
  deriving DecidableEq

/-- The bytes in use after an entry, in unbounded integers. -/
def Entry.total (used : Int) : Entry → Int
  | .claim n => used + n.toNat
  | .release n => max 0 (used - n.toNat)

def after (l : Ledger) : Entry → Ledger
  | .claim n => l.claim n
  | .release n => l.release n

def afterAll (l : Ledger) (history : List Entry) : Ledger := history.foldl after l

/-- A claim is made only if it fits. Any number of bytes may be released, also more than are in use. -/
def Permits (l : Ledger) : Entry → Prop
  | .claim n => l.fits n = true
  | .release _ => True

/-- Each entry is permitted at its turn. -/
def PermitsAll (l : Ledger) : List Entry → Prop
  | [] => True
  | entry :: history => l.Permits entry ∧ (l.after entry).PermitsAll history

instance decidablePermits (l : Ledger) : (entry : Entry) → Decidable (l.Permits entry)
  | .claim n => inferInstanceAs (Decidable (l.fits n = true))
  | .release _ => isTrue trivial

instance decidablePermitsAll (l : Ledger) : (history : List Entry) → Decidable (l.PermitsAll history)
  | [] => isTrue trivial
  | entry :: history => @instDecidableAnd _ _ (l.decidablePermits entry) ((l.after entry).decidablePermitsAll history)

/-- A permitted history is permitted up to any moment, and what follows is permitted there. -/
theorem permitsAll_append {l : Ledger} {before later : List Entry} :
    l.PermitsAll (before ++ later) ↔ l.PermitsAll before ∧ (l.afterAll before).PermitsAll later := by
  induction before generalizing l with
  | nil => exact ⟨fun h => ⟨trivial, h⟩, fun h => h.2⟩
  | cons entry before ih =>
    show l.Permits entry ∧ (l.after entry).PermitsAll (before ++ later) ↔
      (l.Permits entry ∧ (l.after entry).PermitsAll before) ∧ ((l.after entry).afterAll before).PermitsAll later
    rw [ih, and_assoc]

/-! ## Counting in words and in integers -/

/-- The ledger shows that `total` bytes of `capacity` are in use: none, or fewer than all. -/
structure Counts (l : Ledger) (capacity : UInt64) (total : Int) : Prop where
  used : (l.used.toNat : Int) = total
  within : l.used = 0 ∨ l.used < l.capacity
  capacity : l.capacity = capacity

theorem used_within_iff {l : Ledger} :
    l.used = 0 ∨ l.used < l.capacity ↔ l.used.toNat = 0 ∨ l.used.toNat < l.capacity.toNat := by
  rw [← UInt64.toNat_inj, UInt64.lt_iff_toNat_lt, UInt64.toNat_zero]

theorem counts_empty (capacity : UInt64) : (empty capacity).Counts capacity 0 := ⟨rfl, Or.inl rfl, rfl⟩

/-- A claim that fits is added without overflow. -/
theorem claim_exact {l : Ledger} {n : UInt64} (h : l.fits n = true) :
    l.used.toNat + n.toNat < UInt64.size ∧ (l.claim n).used.toNat = l.used.toNat + n.toNat :=
  ⟨Nat.lt_trans (fits_iff.1 h) (Word.toNat_lt l.capacity), toNat_used_claim h⟩

section Counts

variable {l : Ledger} {capacity : UInt64} {total : Int}

theorem counts_claim (hcounts : l.Counts capacity total) {n : UInt64} (h : l.fits n = true) :
    (l.claim n).Counts capacity (total + n.toNat) where
  used := by
    rw [toNat_used_claim h, Int.natCast_add, hcounts.used]
  within := by
    rw [used_within_iff, capacity_claim, toNat_used_claim h]
    exact Or.inr (fits_iff.1 h)
  capacity := hcounts.capacity

theorem counts_release (hcounts : l.Counts capacity total) (n : UInt64) :
    (l.release n).Counts capacity (max 0 (total - n.toNat)) where
  used := by
    rw [toNat_used_release, ← hcounts.used]
    omega
  within := by
    have hwithin := used_within_iff.1 hcounts.within
    rw [used_within_iff, capacity_release, toNat_used_release]
    omega
  capacity := hcounts.capacity

/-- **A permitted entry changes the word as it changes the integer.** -/
theorem counts_after (hcounts : l.Counts capacity total) {entry : Entry} (h : l.Permits entry) :
    (l.after entry).Counts capacity (entry.total total) := by
  cases entry with
  | claim n => exact counts_claim hcounts h
  | release n => exact counts_release hcounts n

theorem counts_afterAll (hcounts : l.Counts capacity total) {history : List Entry} (h : l.PermitsAll history) :
    (l.afterAll history).Counts capacity (history.foldl Entry.total total) := by
  induction history generalizing l total with
  | nil => exact hcounts
  | cons entry history ih => exact ih (counts_after hcounts h.1) h.2

end Counts

/-- **The ledger counts exactly over every history.** Of any ledger, a claim fits if and only if it is smaller than what
is available, that is if the sum with what is in use stays below the capacity in unbounded numbers. A ledger that starts
empty and sees any permitted history has, at every moment of it, none or fewer than all bytes in use, as many as the
claims added and the releases subtracted, down to zero, in unbounded integers; and the claim that comes next is added
without overflow. -/
theorem history_exact :
    (∀ (l : Ledger) (n : UInt64), (l.fits n = true ↔ n < l.available) ∧
      (l.fits n = true ↔ l.used.toNat + n.toNat < l.capacity.toNat)) ∧
    ∀ (capacity : UInt64) (history : List Entry), (empty capacity).PermitsAll history →
      ∀ before later, history = before ++ later →
        ((empty capacity).afterAll before).Counts capacity (before.foldl Entry.total 0) ∧
        ∀ n rest, later = .claim n :: rest →
          ((empty capacity).afterAll before).used.toNat + n.toNat < UInt64.size ∧
          (((empty capacity).afterAll before).claim n).used.toNat =
            ((empty capacity).afterAll before).used.toNat + n.toNat := by
  refine ⟨fun l n => ⟨fits_iff_lt_available, fits_iff⟩, ?_⟩
  rintro capacity history hpermits before later rfl
  obtain ⟨hbefore, hlater⟩ := permitsAll_append.1 hpermits
  refine ⟨counts_afterAll (counts_empty capacity) hbefore, ?_⟩
  rintro n rest rfl
  exact claim_exact hlater.1

/-- The largest claim that the largest ledger takes, a release of more than that, and a claim from there. -/
theorem history_exact_over_released :
    ∃ history : List Entry, (empty Word.largest).PermitsAll history ∧
      history = [.claim 18446744073709551614, .release Word.largest, .claim 5, .release 3] ∧
      (empty Word.largest).used.toNat + (18446744073709551614 : UInt64).toNat < UInt64.size ∧
      ((empty Word.largest).afterAll (history.take 2)).Counts Word.largest 0 ∧
      ((empty Word.largest).afterAll history).Counts Word.largest 2 := by
  have hpermits : (empty Word.largest).PermitsAll
      [.claim 18446744073709551614, .release Word.largest, .claim 5, .release 3] := by decide
  have hmoments := history_exact.2 Word.largest _ hpermits
  refine ⟨_, hpermits, rfl, ?_, ?_, ?_⟩
  · exact ((hmoments [] _ rfl).2 _ _ rfl).1
  · exact (hmoments [.claim 18446744073709551614, .release Word.largest] _ rfl).1
  · exact (hmoments _ [] rfl).1

end BoundedStore.Ledger
