import BoundedStore.Table

/-!
# Totals over a table

Every value of a table weighs something.

* `Table.total` : what all values weigh together;
* `Table.part` : what the value under one key weighs, nothing if there is none;
* `total_insert`, `total_erase` : how the total follows the changes of a table.
-/

namespace BoundedStore.Table

variable {κ α : Type} [Ord κ]

def sum (weight : α → Nat) : List (κ × α) → Nat
  | [] => 0
  | e :: es => weight e.2 + sum weight es

/-- The weight of all values. -/
def total (weight : α → Nat) (t : Table κ α) : Nat := sum weight t.entries

/-- The weight of the value under `k`, zero if there is none. -/
def part (weight : α → Nat) (t : Table κ α) (k : κ) : Nat := ((t.get? k).map weight).getD 0

@[simp] theorem total_empty (weight : α → Nat) : (empty : Table κ α).total weight = 0 := rfl

theorem part_of_get? {weight : α → Nat} {t : Table κ α} {k : κ} {v : α} (h : t.get? k = some v) :
    t.part weight k = weight v := by
  rw [part, h]
  rfl

theorem part_of_get?_eq_none {weight : α → Nat} {t : Table κ α} {k : κ} (h : t.get? k = none) :
    t.part weight k = 0 := by
  rw [part, h]
  rfl

theorem part_congr {weight : α → Nat} {t u : Table κ α} {k : κ} (h : t.get? k = u.get? k) :
    t.part weight k = u.part weight k := by
  rw [part, h, part]

/-! ## Entry lists -/

theorem find_eq_none {k : κ} {es : List (κ × α)} (h : ∀ e ∈ es, compare k e.1 ≠ .eq) : find k es = none := by
  induction es with
  | nil => rfl
  | cons e es ih =>
    rw [find, if_neg (h e List.mem_cons_self)]
    exact ih fun x hx => h x (List.mem_cons_of_mem _ hx)

/-- A key that is not above the first one is none of the later ones. -/
theorem compare_ne_eq_of_mem [Std.TransOrd κ] {k : κ} {e : κ × α} {es : List (κ × α)} (hk : compare k e.1 ≠ .gt)
    (hes : ∀ x ∈ es, compare e.1 x.1 = .lt) : ∀ x ∈ es, compare k x.1 ≠ .eq := by
  intro x hx
  have hlt : compare k x.1 = .lt := by
    cases hke : compare k e.1 with
    | lt => exact Std.TransCmp.lt_trans hke (hes x hx)
    | eq => exact Std.TransCmp.lt_of_eq_of_lt hke (hes x hx)
    | gt => exact absurd hke hk
  rw [hlt]
  decide

theorem sum_place [Std.TransOrd κ] (weight : α → Nat) (k : κ) (v : α) {es : List (κ × α)}
    (hes : es.Pairwise fun a b => compare a.1 b.1 = .lt) :
    sum weight (place k v es) + ((find k es).map weight).getD 0 = sum weight es + weight v := by
  induction es with
  | nil => simp [place, find, sum]
  | cons e es ih =>
    rw [List.pairwise_cons] at hes
    have hih := ih hes.2
    rw [place, find]
    cases h : compare k e.1 with
    | lt =>
      have hnone : find k es = none := find_eq_none (compare_ne_eq_of_mem (by simp [h]) hes.1)
      simp [hnone, sum]
      omega
    | eq =>
      simp [sum]
      omega
    | gt =>
      simp only [reduceCtorEq, if_false, sum]
      omega

theorem sum_filter [Std.TransOrd κ] (weight : α → Nat) (k : κ) {es : List (κ × α)}
    (hes : es.Pairwise fun a b => compare a.1 b.1 = .lt) :
    sum weight (es.filter fun e => compare k e.1 ≠ .eq) + ((find k es).map weight).getD 0 = sum weight es := by
  induction es with
  | nil => rfl
  | cons e es ih =>
    rw [List.pairwise_cons] at hes
    by_cases h : compare k e.1 = .eq
    · -- the entry goes, and no later one has its key
      have hrest : es.filter (fun x => compare k x.1 ≠ .eq) = es := by
        apply List.filter_eq_self.2
        intro x hx
        simpa using compare_ne_eq_of_mem (by simp [h]) hes.1 x hx
      rw [List.filter_cons_of_neg (by simpa using h), hrest, find, if_pos h]
      simp [sum]
      omega
    · have hih := ih hes.2
      rw [List.filter_cons_of_pos (by simpa using h), find, if_neg h]
      simp only [sum]
      omega

/-! ## Changes of a table -/

variable [Std.TransOrd κ] (weight : α → Nat) (t : Table κ α) (k : κ)

/-- A new value counts, and the one it replaces does not any more. -/
theorem total_insert (v : α) : (t.insert k v).total weight + t.part weight k = t.total weight + weight v :=
  sum_place weight k v t.ordered

theorem total_erase : (t.erase k).total weight + t.part weight k = t.total weight :=
  sum_filter weight k t.ordered

theorem part_le_total : t.part weight k ≤ t.total weight := by
  have h := total_erase weight t k
  omega

end BoundedStore.Table
