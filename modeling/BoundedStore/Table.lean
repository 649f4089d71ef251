/-!
# Tables

A table maps keys to values. Its entries are kept in the order of their keys, each key once, so tables that agree on
every look-up are equal (`Table.ext_get?`).

* `Table.get?` : the value under a key; `get?_insert_self`, `get?_insert_of_ne`, `get?_erase_self`,
  `get?_erase_of_ne` describe the changes, `get?_insert` and `get?_erase` with both cases in one;
* `Table.insert` : puts a value under a key in place of an earlier one;
* `Table.erase` : removes a key; `erase_comm` : the order of two removals does not matter.
-/

namespace BoundedStore

/-- Values under ordered keys. -/
structure Table (κ α : Type) [Ord κ] where
  entries : List (κ × α)
  ordered : entries.Pairwise fun a b => compare a.1 b.1 = .lt

namespace Table

variable {κ α : Type} [Ord κ]

/-! ## Entry lists -/

/-- The value of the first entry under `k`. -/
def find (k : κ) : List (κ × α) → Option α
  | [] => none
  | e :: es => if compare k e.1 = .eq then some e.2 else find k es

/-- The entries with `v` under `k`, which takes the place that its order gives it. -/
def place (k : κ) (v : α) : List (κ × α) → List (κ × α)
  | [] => [(k, v)]
  | e :: es =>
    match compare k e.1 with
    | .lt => (k, v) :: e :: es
    | .eq => (k, v) :: es
    | .gt => e :: place k v es

theorem mem_place {k : κ} {v : α} {es : List (κ × α)} {x : κ × α} (h : x ∈ place k v es) : x = (k, v) ∨ x ∈ es := by
  induction es with
  | nil => simpa [place] using h
  | cons e es ih =>
    unfold place at h
    split at h
    · simpa using h
    · simp only [List.mem_cons] at h ⊢
      rcases h with h | h
      · exact Or.inl h
      · exact Or.inr (Or.inr h)
    · simp only [List.mem_cons] at h ⊢
      rcases h with h | h
      · exact Or.inr (Or.inl h)
      · rcases ih h with h | h
        · exact Or.inl h
        · exact Or.inr (Or.inr h)

theorem ordered_place [Std.TransOrd κ] {k : κ} {v : α} {es : List (κ × α)}
    (h : es.Pairwise fun a b => compare a.1 b.1 = .lt) :
    (place k v es).Pairwise fun a b => compare a.1 b.1 = .lt := by
  induction es with
  | nil => simp [place]
  | cons e es ih =>
    rw [List.pairwise_cons] at h
    unfold place
    split
    · next hlt =>
      rw [List.pairwise_cons, List.pairwise_cons]
      refine ⟨fun x hx => ?_, h⟩
      rcases List.mem_cons.1 hx with rfl | hx
      · exact hlt
      · exact Std.TransCmp.lt_trans hlt (h.1 x hx)
    · next heq =>
      rw [List.pairwise_cons]
      exact ⟨fun x hx => Std.TransCmp.lt_of_eq_of_lt heq (h.1 x hx), h.2⟩
    · next hgt =>
      rw [List.pairwise_cons]
      refine ⟨fun x hx => ?_, ih h.2⟩
      rcases mem_place hx with rfl | hx
      · exact Std.OrientedCmp.lt_of_gt hgt
      · exact h.1 x hx

theorem compare_self [Std.LawfulEqOrd κ] (k : κ) : compare k k = .eq := Std.ReflCmp.compare_self

theorem find_place_self [Std.LawfulEqOrd κ] (k : κ) (v : α) (es : List (κ × α)) :
    find k (place k v es) = some v := by
  induction es with
  | nil => simp [place, find]
  | cons e es ih =>
    simp only [place]
    split
    · simp [find]
    · simp [find]
    · next h => simp only [find, h, reduceCtorEq, if_false]; exact ih

theorem find_place_of_ne [Std.LawfulEqOrd κ] {k l : κ} (v : α) (h : l ≠ k) (es : List (κ × α)) :
    find l (place k v es) = find l es := by
  have hne : compare l k ≠ .eq := fun e => h (Std.LawfulEqOrd.eq_of_compare e)
  induction es with
  | nil => simp [place, find, hne]
  | cons e es ih =>
    simp only [place]
    split
    · simp [find, hne]
    · next heq =>
      rw [Std.LawfulEqOrd.eq_of_compare heq] at hne
      simp [find, hne, Std.LawfulEqOrd.eq_of_compare heq]
    · simp only [find, ih]

theorem find_filter_self (k : κ) (es : List (κ × α)) : find k (es.filter fun e => compare k e.1 ≠ .eq) = none := by
  induction es with
  | nil => rfl
  | cons e es ih =>
    by_cases h : compare k e.1 = .eq
    · simpa [h] using ih
    · simpa [h, find] using ih

theorem find_filter_of_ne [Std.LawfulEqOrd κ] {k l : κ} (h : l ≠ k) (es : List (κ × α)) :
    find l (es.filter fun e => compare k e.1 ≠ .eq) = find l es := by
  induction es with
  | nil => rfl
  | cons e es ih =>
    by_cases hk : compare k e.1 = .eq
    · have hl : compare l e.1 ≠ .eq := by
        intro hl
        exact h ((Std.LawfulEqOrd.eq_of_compare hl).trans (Std.LawfulEqOrd.eq_of_compare hk).symm)
      rw [List.filter_cons_of_neg (by simpa using hk), find, if_neg hl, ih]
    · rw [List.filter_cons_of_pos (by simpa using hk), find, find, ih]

theorem mem_iff_find [Std.LawfulEqOrd κ] {k : κ} {v : α} {es : List (κ × α)}
    (hes : es.Pairwise fun a b => compare a.1 b.1 = .lt) : (k, v) ∈ es ↔ find k es = some v := by
  induction es with
  | nil => simp [find]
  | cons e es ih =>
    rw [List.pairwise_cons] at hes
    rw [List.mem_cons, find]
    split
    · next h =>
      have hk := Std.LawfulEqOrd.eq_of_compare h
      constructor
      · rintro (rfl | h')
        · rfl
        · have := hes.1 _ h'
          rw [hk, compare_self] at this
          cases this
      · intro h'
        left
        rw [hk, ← Option.some.inj h']
    · next h =>
      rw [ih hes.2]
      constructor
      · rintro (rfl | h')
        · exact absurd (compare_self _) h
        · exact h'
      · exact Or.inr

theorem eq_of_mem_iff [Std.OrientedOrd κ] [Std.LawfulEqOrd κ] {es fs : List (κ × α)}
    (hes : es.Pairwise fun a b => compare a.1 b.1 = .lt) (hfs : fs.Pairwise fun a b => compare a.1 b.1 = .lt)
    (h : ∀ x, x ∈ es ↔ x ∈ fs) : es = fs := by
  have hirrefl : ∀ x : κ × α, compare x.1 x.1 ≠ .lt := by simp
  induction es generalizing fs with
  | nil => exact (List.eq_nil_iff_forall_not_mem.2 fun x hx => by simpa using (h x).2 hx).symm
  | cons e es ih =>
    cases fs with
    | nil => exact absurd ((h e).1 List.mem_cons_self) (by simp)
    | cons f fs =>
      rw [List.pairwise_cons] at hes hfs
      have hef : e = f := by
        rcases List.mem_cons.1 ((h e).1 List.mem_cons_self) with he | he
        · exact he
        · rcases List.mem_cons.1 ((h f).2 List.mem_cons_self) with hf | hf
          · exact hf.symm
          · have := Std.OrientedCmp.gt_of_lt (hfs.1 e he)
            rw [hes.1 f hf] at this
            cases this
      subst hef
      congr 1
      refine ih hes.2 hfs.2 fun x => ?_
      constructor
      · intro hx
        rcases List.mem_cons.1 ((h x).1 (List.mem_cons_of_mem _ hx)) with rfl | hx'
        · exact absurd (hes.1 _ hx) (hirrefl _)
        · exact hx'
      · intro hx
        rcases List.mem_cons.1 ((h x).2 (List.mem_cons_of_mem _ hx)) with rfl | hx'
        · exact absurd (hfs.1 _ hx) (hirrefl _)
        · exact hx'

/-! ## Tables and their look-ups -/

def empty : Table κ α := ⟨[], List.Pairwise.nil⟩

def get? (t : Table κ α) (k : κ) : Option α := find k t.entries

def contains (t : Table κ α) (k : κ) : Bool := (t.get? k).isSome

def keys (t : Table κ α) : List κ := t.entries.map Prod.fst

def insert [Std.TransOrd κ] (t : Table κ α) (k : κ) (v : α) : Table κ α :=
  ⟨place k v t.entries, ordered_place t.ordered⟩

def erase (t : Table κ α) (k : κ) : Table κ α :=
  ⟨t.entries.filter fun e => compare k e.1 ≠ .eq, t.ordered.filter _⟩

@[simp] theorem get?_empty (k : κ) : (empty : Table κ α).get? k = none := rfl

@[simp] theorem get?_insert_self [Std.TransOrd κ] [Std.LawfulEqOrd κ] (t : Table κ α) (k : κ) (v : α) :
    (t.insert k v).get? k = some v :=
  find_place_self k v _

theorem get?_insert_of_ne [Std.TransOrd κ] [Std.LawfulEqOrd κ] (t : Table κ α) {k l : κ} (v : α) (h : l ≠ k) :
    (t.insert k v).get? l = t.get? l :=
  find_place_of_ne v h _

@[simp] theorem get?_erase_self (t : Table κ α) (k : κ) : (t.erase k).get? k = none :=
  find_filter_self k _

theorem get?_erase_of_ne [Std.LawfulEqOrd κ] (t : Table κ α) {k l : κ} (h : l ≠ k) :
    (t.erase k).get? l = t.get? l :=
  find_filter_of_ne h _

theorem get?_insert [Std.TransOrd κ] [Std.LawfulEqOrd κ] [DecidableEq κ] (t : Table κ α) (k : κ) (v : α) (l : κ) :
    (t.insert k v).get? l = if l = k then some v else t.get? l := by
  split
  · next h => rw [h, get?_insert_self]
  · next h => rw [get?_insert_of_ne _ _ h]

theorem get?_erase [Std.LawfulEqOrd κ] [DecidableEq κ] (t : Table κ α) (k l : κ) :
    (t.erase k).get? l = if l = k then none else t.get? l := by
  split
  · next h => rw [h, get?_erase_self]
  · next h => rw [get?_erase_of_ne _ h]

theorem contains_of_get? {t : Table κ α} {k : κ} {v : α} (h : t.get? k = some v) : t.contains k = true := by
  rw [contains, h]
  rfl

theorem contains_eq_false_iff {t : Table κ α} {k : κ} : t.contains k = false ↔ t.get? k = none := by
  rw [contains, Option.isSome_eq_false_iff, Option.isNone_iff_eq_none]

theorem get?_ne_none_of_contains {t : Table κ α} {k : κ} (h : t.contains k = true) : t.get? k ≠ none := by
  intro hnone
  rw [← contains_eq_false_iff, h] at hnone
  cases hnone

theorem mem_entries_iff [Std.LawfulEqOrd κ] {t : Table κ α} {k : κ} {v : α} :
    (k, v) ∈ t.entries ↔ t.get? k = some v :=
  mem_iff_find t.ordered

theorem ext_get? [Std.OrientedOrd κ] [Std.LawfulEqOrd κ] {t u : Table κ α}
    (h : ∀ k, t.get? k = u.get? k) : t = u := by
  obtain ⟨es, hes⟩ := t
  obtain ⟨fs, hfs⟩ := u
  congr
  refine eq_of_mem_iff hes hfs fun x => ?_
  rw [mem_iff_find hes, mem_iff_find hfs]
  exact iff_of_eq (congrArg (· = some x.2) (h x.1))

/-- A value that is put where it is already changes nothing. -/
theorem insert_of_get? [Std.TransOrd κ] [Std.LawfulEqOrd κ] {t : Table κ α} {k : κ} {v : α} (h : t.get? k = some v) :
    t.insert k v = t := by
  apply ext_get?
  intro l
  by_cases hl : l = k
  · rw [hl, get?_insert_self, h]
  · rw [get?_insert_of_ne _ _ hl]

/-- A key without a value can be removed without effect. -/
theorem erase_of_get?_eq_none [Std.OrientedOrd κ] [Std.LawfulEqOrd κ] {t : Table κ α} {k : κ} (h : t.get? k = none) :
    t.erase k = t := by
  apply ext_get?
  intro l
  by_cases hl : l = k
  · rw [hl, get?_erase_self, h]
  · rw [get?_erase_of_ne _ hl]

theorem erase_comm (t : Table κ α) (k l : κ) : (t.erase k).erase l = (t.erase l).erase k := by
  simp only [erase, List.filter_filter, mk.injEq]
  congr 1
  funext e
  exact Bool.and_comm _ _

end Table
end BoundedStore
