import BoundedStore.Path.Key

/-!
# Companion keys

The checksums of a file are kept beside it, under the name `.<name>.crc` in the same directory; the companion of
the root is `/..crc`.

* `Key.companion`, `companionPath` : the companion of a key and of a path; `companion_injective` : no two keys share
  one; `canonicalPath_eq_companionPath_iff` : when a path leads to a companion;
* `Key.isCompanion`, `isCompanionPath` : whether the last name begins with `.` and ends with `.crc`. The two tests
  may overlap, so `.crc` passes both.
-/

namespace BoundedStore

/-- How the name of a companion ends. -/
def companionEnding : List Char := ['.', 'c', 'r', 'c']

namespace Key

/-- The last name of a key; empty for the root. -/
def leaf (k : Key) : List Char :=
  match k.names.getLast? with
  | some n => n.chars
  | none => []

theorem slash_notMem_leaf (k : Key) : '/' ∉ k.leaf := by
  unfold leaf
  split
  · next n _ => exact n.isName.2.1
  · simp

theorem isName_companion {leaf : List Char} (h : '/' ∉ leaf) : IsName ('.' :: (leaf ++ companionEnding)) := by
  refine ⟨by simp, ?_, ?_, ?_⟩
  · simp [companionEnding, h]
  · simp [companionEnding]
  · intro e
    have := congrArg List.length e
    simp [companionEnding] at this

/-- The key of the checksum companion. -/
def companion (k : Key) : Key :=
  ⟨k.names.dropLast ++ [⟨'.' :: (k.leaf ++ companionEnding), isName_companion k.slash_notMem_leaf⟩]⟩

/-- The last name begins with `.` and ends with `.crc`. -/
def isCompanion (k : Key) : Bool := ['.'].isPrefixOf k.leaf && companionEnding.isSuffixOf k.leaf

@[simp] theorem leaf_companion (k : Key) : k.companion.leaf = '.' :: (k.leaf ++ companionEnding) := by
  simp [companion, leaf]

theorem isCompanion_companion (k : Key) : k.companion.isCompanion = true := by
  simp only [isCompanion, leaf_companion, Bool.and_eq_true, List.isPrefixOf_iff_prefix, List.isSuffixOf_iff_suffix]
  exact ⟨⟨_, rfl⟩, ⟨'.' :: k.leaf, rfl⟩⟩

theorem companion_ne (k : Key) : k.companion ≠ k := by
  intro h
  have := congrArg (fun k : Key => k.leaf.length) h
  simp [companionEnding] at this
  omega

/-- A key is known by its directory and its last name; only the root has no last name. -/
theorem eq_of_leaf_eq {k l : Key} (hdir : k.names.dropLast = l.names.dropLast) (hleaf : k.leaf = l.leaf) : k = l := by
  obtain ⟨ns⟩ := k
  obtain ⟨ms⟩ := l
  rcases List.eq_nil_or_concat ns with rfl | ⟨ns, n, rfl⟩ <;> rcases List.eq_nil_or_concat ms with rfl | ⟨ms, m, rfl⟩
  · rfl
  · exact absurd (by simpa [leaf] using hleaf.symm) m.isName.1
  · exact absurd (by simpa [leaf] using hleaf) n.isName.1
  · obtain ⟨n, hn⟩ := n
    obtain ⟨m, hm⟩ := m
    obtain rfl : ns = ms := by simpa using hdir
    obtain rfl : n = m := by simpa [leaf] using hleaf
    rfl

/-- No two keys share a companion. -/
theorem companion_injective {k l : Key} (h : k.companion = l.companion) : k = l := by
  have hdir := congrArg (fun k : Key => k.names.dropLast) h
  have hleaf := congrArg leaf h
  simp only [companion, List.dropLast_concat] at hdir
  simp only [leaf_companion, List.cons.injEq, true_and, List.append_cancel_right_eq] at hleaf
  exact eq_of_leaf_eq hdir hleaf

end Key

/-- The text of the companion key of a path. -/
def companionPath (path : String) : String := (Key.ofPath path).companion.text

/-- Whether a path names a key with the shape of a companion. -/
def isCompanionPath (path : String) : Bool := (Key.ofPath path).isCompanion

@[simp] theorem ofPath_companionPath (path : String) :
    Key.ofPath (companionPath path) = (Key.ofPath path).companion :=
  Key.ofPath_text _

theorem canonicalPath_eq_companionPath_iff {p q : String} :
    canonicalPath p = companionPath q ↔ Key.ofPath p = (Key.ofPath q).companion :=
  ⟨Key.text_injective, congrArg Key.text⟩

end BoundedStore
