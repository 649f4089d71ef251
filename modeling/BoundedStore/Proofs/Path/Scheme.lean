import BoundedStore.Path.Key
import Mathlib.Data.List.Infix

/-!
# Where a path is cut

A path is cut at its first `://`, wherever in the path that stands.

* `Markless` : a path without `://`; it is left as it is (`ofPath_of_markless`);
* `cutScheme_append`, `eq_append_of_cutScheme` : the cut is at the first mark;
* `Cut` : a path as scheme, mark, authority and the rest that is its local part (`Cut.localPart_eq`). By `exists_cut`
  every path with a mark has these parts, and by `Cut.takeWhile_eq` and `Cut.dropWhile_eq` they are found again;
* `canonicalPath_of_markless`, `canonicalPath_of_cut` : what is resolved, all of the path or its rest.
-/

namespace BoundedStore

/-- A path in which `://` does not occur. -/
def Markless (path : String) : Prop := ¬schemeMark <:+: path.toList

instance (path : String) : Decidable (Markless path) := inferInstanceAs (Decidable ¬_)

theorem Markless.of_append {a b : String} (h : Markless (a ++ b)) : Markless a := by
  intro hmark
  apply h
  rw [String.toList_append]
  exact hmark.trans (List.prefix_append _ _).isInfix

/-! ## The first mark -/

/-- No mark begins in front of the first one and reaches into it: no proper end of the mark is a beginning of it. -/
theorem isPrefixOf_cons_append_mark {c : Char} {u v : List Char} (h : ¬schemeMark <:+: c :: u) :
    schemeMark.isPrefixOf (c :: (u ++ schemeMark ++ v)) = false := by
  rw [List.infix_cons_iff, not_or] at h
  have hfront := h.1
  match u with
  | [] => simp [schemeMark, List.isPrefixOf]
  | [d] => simp [schemeMark, List.isPrefixOf]
  | d :: e :: u => simpa [schemeMark, List.isPrefixOf] using hfront

/-- The text is cut at the first mark. -/
theorem cutScheme_append {u v : List Char} (h : ¬schemeMark <:+: u) :
    cutScheme (u ++ schemeMark ++ v) = some (u, v) := by
  induction u with
  | nil => rfl
  | cons c u ih =>
    have hrest : ¬schemeMark <:+: u := fun hmark => h (List.infix_cons hmark)
    rw [List.cons_append, List.cons_append, cutScheme, isPrefixOf_cons_append_mark h, ih hrest]
    rfl

theorem eq_append_of_cutScheme {cs u v : List Char} (h : cutScheme cs = some (u, v)) :
    cs = u ++ schemeMark ++ v ∧ ¬schemeMark <:+: u := by
  induction cs generalizing u with
  | nil => cases h
  | cons c cs ih =>
    rw [cutScheme] at h
    split at h
    · next hmark =>
      obtain ⟨rest, hrest⟩ := List.isPrefixOf_iff_prefix.1 hmark
      obtain ⟨rfl, rfl⟩ : ':' = c ∧ ['/', '/'] ++ rest = cs := List.cons.inj hrest
      cases h
      exact ⟨rfl, by simp [schemeMark]⟩
    · next hmark =>
      obtain ⟨⟨u, v⟩, hcut, heq⟩ := Option.map_eq_some_iff.1 h
      cases heq
      obtain ⟨rfl, hfirst⟩ := ih hcut
      refine ⟨rfl, fun hinfix => ?_⟩
      rcases List.infix_cons_iff.1 hinfix with hfront | hlater
      · -- a mark that ends within the scheme is seen here already
        have hlong : schemeMark <+: c :: (u ++ schemeMark ++ v) := by
          rw [List.append_assoc]
          exact hfront.trans (List.prefix_append (c :: u) _)
        exact hmark (List.isPrefixOf_iff_prefix.2 hlong)
      · exact hfirst hlater

/-! ## The parts of a path -/

/-- The path is `scheme://authority` and then `rest`; the mark is the first one, and the authority ends at the first
`/` behind it or with the path. -/
structure Cut (path scheme authority rest : List Char) : Prop where
  path_eq : path = scheme ++ schemeMark ++ (authority ++ rest)
  isFirst : ¬schemeMark <:+: scheme
  authority_plain : '/' ∉ authority
  rest_slash : rest = [] ∨ ∃ inner, rest = '/' :: inner

namespace Cut

variable {path scheme authority rest : List Char}

theorem cutScheme_eq (h : Cut path scheme authority rest) : cutScheme path = some (scheme, authority ++ rest) := by
  rw [h.path_eq, cutScheme_append h.isFirst]

theorem authority_ne_slash (h : Cut path scheme authority rest) : ∀ c ∈ authority, decide (c ≠ '/') = true := by
  intro c hc
  simp only [decide_eq_true_eq]
  rintro rfl
  exact h.authority_plain hc

/-- The authority is what stands before the first `/` behind the mark. -/
theorem takeWhile_eq (h : Cut path scheme authority rest) : (authority ++ rest).takeWhile (· ≠ '/') = authority := by
  have hstop : rest.takeWhile (· ≠ '/') = [] := by
    rcases h.rest_slash with rfl | ⟨inner, rfl⟩
    · rfl
    · exact List.takeWhile_cons_of_neg (by simp)
  rw [List.takeWhile_append_of_pos h.authority_ne_slash, hstop, List.append_nil]

/-- The rest is what begins there. -/
theorem dropWhile_eq (h : Cut path scheme authority rest) : (authority ++ rest).dropWhile (· ≠ '/') = rest := by
  rw [List.dropWhile_append_of_pos h.authority_ne_slash]
  rcases h.rest_slash with rfl | ⟨inner, rfl⟩
  · rfl
  · exact List.dropWhile_cons_of_neg (by simp)

/-- What is left of a path that is cut. -/
theorem localPart_eq (h : Cut path scheme authority rest) : localPart path = rest := by
  rw [localPart, h.cutScheme_eq]
  exact h.dropWhile_eq

/-- The scheme is empty only if the path begins with a mark. -/
theorem scheme_eq_nil_iff (h : Cut path scheme authority rest) : scheme = [] ↔ schemeMark <+: path := by
  rw [h.path_eq]
  constructor
  · rintro rfl
    exact List.prefix_append schemeMark _
  · intro hmark
    cases scheme with
    | nil => rfl
    | cons c scheme =>
      rw [← List.isPrefixOf_iff_prefix, List.cons_append, List.cons_append,
        isPrefixOf_cons_append_mark h.isFirst] at hmark
      cases hmark

end Cut

theorem cut_of_cutScheme {path scheme behind : List Char} (h : cutScheme path = some (scheme, behind)) :
    Cut path scheme (behind.takeWhile (· ≠ '/')) (behind.dropWhile (· ≠ '/')) := by
  obtain ⟨hpath, hfirst⟩ := eq_append_of_cutScheme h
  constructor
  · rw [List.takeWhile_append_dropWhile]
    exact hpath
  · exact hfirst
  · intro hslash
    have hall := List.all_eq_true.1 (List.all_takeWhile (p := (· ≠ '/'))) _ hslash
    simp at hall
  · have hhead := List.head?_dropWhile_not (· ≠ '/') behind
    cases hrest : behind.dropWhile (· ≠ '/') with
    | nil => exact Or.inl rfl
    | cons c inner =>
      rw [hrest] at hhead
      exact Or.inr ⟨inner, by simpa using hhead⟩

/-- A path with a mark has all parts. -/
theorem exists_cut {path : List Char} (h : schemeMark <:+: path) :
    ∃ scheme authority rest, Cut path scheme authority rest := by
  cases hcut : cutScheme path with
  | none => exact absurd h (cutScheme_eq_none_iff.1 hcut)
  | some sides => exact ⟨_, _, _, cut_of_cutScheme hcut⟩

/-! ## Paths without a mark -/

theorem localPart_of_markless {path : String} (h : Markless path) : localPart path.toList = path.toList := by
  rw [localPart, cutScheme_eq_none_iff.2 h]

theorem Key.ofPath_of_markless {path : String} (h : Markless path) : ofPath path = resolve path.toList := by
  rw [ofPath, localPart_of_markless h]

/-! ## What is resolved -/

theorem canonicalPath_of_markless {path : String} (h : Markless path) :
    canonicalPath path = (Key.resolve path.toList).text := by
  rw [canonicalPath, Key.ofPath_of_markless h]

theorem canonicalPath_of_cut {path : String} {scheme authority rest : List Char}
    (h : Cut path.toList scheme authority rest) : canonicalPath path = (Key.resolve rest).text := by
  rw [canonicalPath, Key.ofPath, h.localPart_eq]

end BoundedStore
