import BoundedStore.Table

/-!
# The entries of a table

* `Table.map` : a table with another value under every key; what is inserted is mapped too (`map_insert`);
* `mem_keys`, `nodup_keys` : the keys are those under which there is a value, each of them once;
* `perm_insert` : a new key adds one entry;
* `filter_insert` : a key that is filtered out changes nothing in what is left.
-/

namespace BoundedStore.Table

variable {κ α β : Type} [Ord κ]

/-! ## Other values under the same keys -/

/-- The table with `f` applied to every value. -/
def map (f : α → β) (t : Table κ α) : Table κ β :=
  ⟨t.entries.map fun e => (e.1, f e.2), List.pairwise_map.2 t.ordered⟩

theorem find_map (f : α → β) (k : κ) (es : List (κ × α)) :
    find k (es.map fun e => (e.1, f e.2)) = (find k es).map f := by
  induction es with
  | nil => rfl
  | cons e es ih =>
    rw [List.map_cons, find, find]
    split
    · rfl
    · exact ih

@[simp] theorem get?_map (f : α → β) (t : Table κ α) (k : κ) : (t.map f).get? k = (t.get? k).map f :=
  find_map f k t.entries

@[simp] theorem contains_map (f : α → β) (t : Table κ α) (k : κ) : (t.map f).contains k = t.contains k := by
  rw [contains, get?_map, Option.isSome_map, contains]

@[simp] theorem map_insert [Std.TransOrd κ] [Std.LawfulEqOrd κ] (f : α → β) (t : Table κ α) (k : κ) (v : α) :
    (t.insert k v).map f = (t.map f).insert k (f v) := by
  apply ext_get?
  intro l
  by_cases hl : l = k
  · rw [hl, get?_map, get?_insert_self, get?_insert_self, Option.map_some]
  · rw [get?_map, get?_insert_of_ne _ _ hl, get?_insert_of_ne _ _ hl, get?_map]

/-! ## The keys of a table -/

theorem mem_keys [Std.LawfulEqOrd κ] {t : Table κ α} {k : κ} : k ∈ t.keys ↔ t.contains k = true := by
  rw [keys, List.mem_map, contains, Option.isSome_iff_exists]
  constructor
  · rintro ⟨⟨k, v⟩, he, rfl⟩
    exact ⟨v, mem_entries_iff.1 he⟩
  · rintro ⟨v, hv⟩
    exact ⟨(k, v), mem_entries_iff.2 hv, rfl⟩

theorem nodup_keys [Std.LawfulEqOrd κ] (t : Table κ α) : t.keys.Nodup := by
  rw [keys, List.Nodup, List.pairwise_map]
  refine t.ordered.imp fun hlt heq => ?_
  rw [heq, compare_self] at hlt
  cases hlt

/-! ## What an insertion does to the entries -/

theorem perm_place {k : κ} {v : α} {es : List (κ × α)} (h : find k es = none) :
    (place k v es).Perm ((k, v) :: es) := by
  induction es with
  | nil => exact List.Perm.refl _
  | cons e es ih =>
    rw [find] at h
    rw [place]
    split
    · exact List.Perm.refl _
    · next heq => simp [heq] at h
    · next hgt =>
      rw [if_neg (by simp [hgt])] at h
      exact ((ih h).cons e).trans (List.Perm.swap (k, v) e es)

theorem filter_place [Std.LawfulEqOrd κ] {p : κ → Bool} {k : κ} (h : p k = false) (v : α) (es : List (κ × α)) :
    ((place k v es).filter fun e => p e.1) = es.filter fun e => p e.1 := by
  induction es with
  | nil => simp [place, h]
  | cons e es ih =>
    rw [place]
    split
    · simp [h]
    · next heq =>
      have hkey : p e.1 = false := by rw [← Std.LawfulEqOrd.eq_of_compare heq, h]
      rw [List.filter_cons_of_neg (by simp [h]), List.filter_cons_of_neg (by simp [hkey])]
    · rw [List.filter_cons, List.filter_cons, ih]

variable [Std.TransOrd κ] (t : Table κ α)

/-- A key that the table does not hold adds its entry. -/
theorem perm_insert {k : κ} (v : α) (h : t.get? k = none) : (t.insert k v).entries.Perm ((k, v) :: t.entries) :=
  perm_place h

/-- Where `k` does not count, it does not matter whether and with which value it is put in. -/
theorem filter_insert [Std.LawfulEqOrd κ] (p : κ → Bool) {k : κ} (h : p k = false) (v : α) :
    ((t.insert k v).entries.filter fun e => p e.1) = t.entries.filter fun e => p e.1 :=
  filter_place h v t.entries

end BoundedStore.Table
