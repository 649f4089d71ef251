import BoundedStore.Proofs.Path.Walk

/-!
# Absolute paths with a mark inside

A path that begins with `/` names no scheme, but it is cut at a `://` all the same: what stands before the mark, and
the authority behind it, do not count among its components.

* `Key.climb` : how far a walk climbs above the directory where it begins. `follow_eq_iff` : only a walk that climbs
  above all of a key leads where it leads from the root;
* `absolute_path_key` : an absolute path without a mark stands for all its components, one with a mark for those behind
  the authority; the two agree exactly when these climb out of what is cut off;
* `absolute_path_cut_inside` : two absolute paths with different components and one key.
-/

namespace BoundedStore

namespace Key

/-! ## How far a walk climbs -/

/-- How far the components climb above the directory where they begin, `depth` directories below it. -/
def climb : Nat → List (List Char) → Nat
  | _, [] => 0
  | depth, component :: components =>
    if IsName component then climb (depth + 1) components
    else if component = ['.', '.'] then
      if depth = 0 then climb 0 components + 1 else climb (depth - 1) components
    else climb depth components

/-- The names below `trail` are only touched by what climbs above it. -/
theorem foldl_enter_append (trail base : List Name) (components : List (List Char)) :
    components.foldl enter (trail ++ base) =
      components.foldl enter trail ++ base.drop (climb trail.length components) := by
  induction components generalizing trail base with
  | nil => rfl
  | cons component components ih =>
    rw [List.foldl_cons, List.foldl_cons, climb]
    by_cases hname : IsName component
    · rw [if_pos hname, enter_name _ ⟨component, hname⟩, enter_name _ ⟨component, hname⟩]
      exact ih (⟨component, hname⟩ :: trail) base
    · by_cases hup : component = ['.', '.']
      · subst hup
        rw [if_neg hname, if_pos rfl, enter_up, enter_up]
        cases trail with
        | nil =>
          -- the walk is back where it began, and takes a name from below
          have hbelow := ih [] base.tail
          rw [List.nil_append, List.drop_tail] at hbelow
          exact hbelow
        | cons n trail => exact ih trail base
      · rw [if_neg hname, if_neg hup, enter_of_not_isName _ hname hup, enter_of_not_isName _ hname hup]
        exact ih trail base

/-- A walk leads from a key where it leads from the root if and only if it climbs above all names of the key. -/
theorem follow_eq_iff {k : Key} {path : List Char} :
    k.follow path = resolve path ↔ k.names.length ≤ climb 0 (path.splitOn '/') := by
  have hwalk := foldl_enter_append [] k.names.reverse (path.splitOn '/')
  rw [List.nil_append, List.length_nil] at hwalk
  rw [follow, resolve, Key.mk.injEq, List.reverse_inj, hwalk, List.append_right_eq_self, List.drop_eq_nil_iff,
    List.length_reverse]

end Key

/-! ## What a cut leaves out -/

namespace Cut

variable {path scheme authority rest : List Char}

/-- All components of a path: first those that are cut off, then those of the rest. -/
theorem resolve_eq (h : Cut path scheme authority rest) :
    Key.resolve path = (Key.resolve (scheme ++ schemeMark ++ authority)).follow rest := by
  rw [h.path_eq, ← List.append_assoc]
  rcases h.rest_slash with rfl | ⟨inner, rfl⟩
  · rw [List.append_nil, Key.follow_nil]
  · have hslash := (Key.resolve (scheme ++ schemeMark ++ authority)).follow_append [] inner
    rw [Key.follow_nil, List.nil_append] at hslash
    rw [hslash]
    exact Key.root.follow_append (scheme ++ schemeMark ++ authority) inner

/-- What stands before the mark of an absolute path is no scheme. -/
theorem slash_prefix_scheme (h : Cut path scheme authority rest) (habs : ['/'] <+: path) : ['/'] <+: scheme := by
  rw [h.path_eq] at habs
  cases scheme with
  | nil => simp [schemeMark] at habs
  | cons c scheme =>
    rw [List.cons_append, List.cons_append, List.cons_prefix_cons] at habs
    exact List.cons_prefix_cons.2 ⟨habs.1, List.nil_prefix⟩

end Cut

/-- **An absolute path stands for all its components if it has no mark, and only for those behind the authority if it
has one.** Without a mark, two paths share a key only if their components lead to the same names. With one, what stands
before the first mark begins with `/`, so it is no scheme, and it is lost: the path stands for all its components
exactly when those behind the authority climb above all directories that are cut off. -/
theorem absolute_path_key (path : String) (habs : ['/'] <+: path.toList) :
    (Markless path → canonicalPath path = (Key.resolve path.toList).text) ∧
    (∀ other, Markless path → Markless other →
      (canonicalPath path = canonicalPath other ↔ Key.resolve path.toList = Key.resolve other.toList)) ∧
    (¬Markless path → ∃ scheme authority rest, Cut path.toList scheme authority rest) ∧
    ∀ scheme authority rest, Cut path.toList scheme authority rest →
      ['/'] <+: scheme ∧ canonicalPath path = (Key.resolve rest).text ∧
      (canonicalPath path = (Key.resolve path.toList).text ↔
        (Key.resolve (scheme ++ schemeMark ++ authority)).names.length ≤ Key.climb 0 (rest.splitOn '/')) := by
  refine ⟨canonicalPath_of_markless, ?_, fun hmark => exists_cut (not_not.1 hmark), ?_⟩
  · intro other hpath hother
    rw [canonicalPath_of_markless hpath, canonicalPath_of_markless hother]
    exact ⟨Key.text_injective, congrArg Key.text⟩
  · intro scheme authority rest hcut
    refine ⟨hcut.slash_prefix_scheme habs, canonicalPath_of_cut hcut, ?_⟩
    rw [canonicalPath_of_cut hcut, hcut.resolve_eq, ← Key.follow_eq_iff]
    exact ⟨fun h => (Key.text_injective h).symm, fun h => congrArg Key.text h.symm⟩

/-- A cut that goes unnoticed: one directory is left of what is cut off, and the rest climbs two. -/
theorem absolute_path_key_climbing :
    canonicalPath "/a/x://../../../b" = (Key.resolve "/a/x://../../../b".toList).text := by
  have hcut : Cut "/a/x://../../../b".toList "/a/x".toList "..".toList "/../../b".toList :=
    ⟨by decide +kernel, by decide +kernel, by decide +kernel, Or.inr ⟨"../../b".toList, by decide +kernel⟩⟩
  have hkey := absolute_path_key "/a/x://../../../b" (by decide +kernel)
  exact (hkey.2.2.2 _ _ _ hcut).2.2.2 (by decide +kernel)

/-- Two absolute paths with different components and one key: the first loses all that stands before `/b`. -/
theorem absolute_path_cut_inside :
    ['/'] <+: "/a/x://y/b".toList ∧ ['/'] <+: "/b".toList ∧
    Key.resolve "/a/x://y/b".toList ≠ Key.resolve "/b".toList ∧
    canonicalPath "/a/x://y/b" = canonicalPath "/b" ∧
    canonicalPath "/a/x://y/b" ≠ (Key.resolve "/a/x://y/b".toList).text := by
  decide +kernel

end BoundedStore
