import BoundedStore.Path.Companion

/-!
# Keys with the shape of a companion

The shape of a companion is told from the last name of a key: it begins with `.` and ends with `.crc`. More keys have
this shape than are companions.

* `Key.isCompanion_iff` : the last names with this shape, `.crc` among them;
* `Key.exists_companion_iff` : such a key is a companion if a file of its directory can have the name in between;
* `Key.Ownerless` : the keys with this shape that are the companion of no key (`ownerless_iff`);
* `isCompanionPath_exact` : the shape is that of the companions and of the keys without an owner;
* `isCompanionPath_crc` : `/.crc` has the shape and is the companion of no path.
-/

namespace BoundedStore
namespace Key

variable {k : Key}

/-! ## The shape -/

/-- The tests of the two ends may overlap. -/
theorem isCompanion_iff :
    k.isCompanion = true ↔ k.leaf = companionEnding ∨ ∃ inner, k.leaf = '.' :: (inner ++ companionEnding) := by
  rw [isCompanion, Bool.and_eq_true, List.isPrefixOf_iff_prefix, List.isSuffixOf_iff_suffix]
  constructor
  · rintro ⟨⟨others, hfront⟩, hend⟩
    rw [← hfront, List.singleton_append, List.suffix_cons_iff] at hend
    rcases hend with hwhole | ⟨inner, hinner⟩
    · exact Or.inl (by rw [← hfront, hwhole]; rfl)
    · exact Or.inr ⟨inner, by rw [← hfront, hinner]; rfl⟩
  · rintro (hleaf | ⟨inner, hleaf⟩)
    · rw [hleaf]
      exact ⟨⟨_, rfl⟩, List.suffix_rfl⟩
    · rw [hleaf]
      exact ⟨⟨_, rfl⟩, ⟨'.' :: inner, rfl⟩⟩

/-! ## The owner of a companion -/

theorem isName_leaf_or_eq_root (k : Key) : IsName k.leaf ∨ k = root := by
  obtain ⟨ns⟩ := k
  rcases List.eq_nil_or_concat ns with rfl | ⟨ns, n, rfl⟩
  · exact Or.inr rfl
  · left
    rw [leaf, List.concat_eq_append, List.getLast?_concat]
    exact n.isName

theorem companion_eq_of_leaf {l : Key} (hdir : l.names.dropLast = k.names.dropLast)
    (hleaf : k.leaf = '.' :: (l.leaf ++ companionEnding)) : l.companion = k := by
  apply eq_of_leaf_eq
  · rw [companion, List.dropLast_concat, hdir]
  · rw [leaf_companion, hleaf]

/-- A companion has the name of a file in between, or, at the root, nothing. -/
theorem exists_companion_iff {inner : List Char} (h : k.leaf = '.' :: (inner ++ companionEnding)) :
    (∃ l : Key, l.companion = k) ↔ IsName inner ∨ inner = [] ∧ k.names.dropLast = [] := by
  constructor
  · rintro ⟨l, rfl⟩
    rw [leaf_companion, List.cons.injEq, List.append_cancel_right_eq] at h
    rw [← h.2]
    rcases l.isName_leaf_or_eq_root with hname | rfl
    · exact Or.inl hname
    · exact Or.inr ⟨rfl, rfl⟩
  · rintro (hname | ⟨rfl, hdir⟩)
    · refine ⟨⟨k.names.dropLast ++ [⟨inner, hname⟩]⟩, companion_eq_of_leaf ?_ ?_⟩
      · rw [List.dropLast_concat]
      · rw [h, leaf, List.getLast?_concat]
    · exact ⟨root, companion_eq_of_leaf hdir.symm h⟩

/-- The ending alone is too short for a companion. -/
theorem not_exists_companion_of_ending (h : k.leaf = companionEnding) : ¬∃ l : Key, l.companion = k := by
  rintro ⟨l, rfl⟩
  have hlength := congrArg List.length h
  simp [companionEnding] at hlength

/-! ## Keys without an owner -/

/-- The last name is `.crc`, or there is `.` or `..` between its first `.` and its ending, or there is nothing and the
key is in a directory below the root. -/
def Ownerless (k : Key) : Prop :=
  k.leaf = ".crc".toList ∨ k.leaf = "...crc".toList ∨ k.leaf = "....crc".toList ∨
    (k.leaf = "..crc".toList ∧ k.names.dropLast ≠ [])

instance (k : Key) : Decidable k.Ownerless := inferInstanceAs (Decidable (_ ∨ _ ∨ _ ∨ _))

/-- Between the two ends of a last name, these alone are no names. -/
theorem ownerless_of_not_isName {inner : List Char} (h : k.leaf = '.' :: (inner ++ companionEnding))
    (hname : ¬(IsName inner ∨ inner = [] ∧ k.names.dropLast = [])) : k.Ownerless := by
  have hslash : '/' ∉ inner := by
    have hleaf := k.slash_notMem_leaf
    rw [h] at hleaf
    simp only [List.mem_cons, List.mem_append, not_or] at hleaf
    exact hleaf.2.1
  by_cases hnil : inner = []
  · subst hnil
    exact Or.inr (Or.inr (Or.inr ⟨h, fun hdir => hname (Or.inr ⟨rfl, hdir⟩)⟩))
  by_cases hdot : inner = ['.']
  · subst hdot
    exact Or.inr (Or.inl h)
  by_cases hup : inner = ['.', '.']
  · subst hup
    exact Or.inr (Or.inr (Or.inl h))
  · exact absurd (Or.inl ⟨hnil, hslash, hdot, hup⟩) hname

/-- The keys with the shape of a companion that are the companion of no key. -/
theorem ownerless_iff : k.Ownerless ↔ k.isCompanion = true ∧ ¬∃ l : Key, l.companion = k := by
  have hinner : ∀ inner, k.leaf = '.' :: (inner ++ companionEnding) →
      ¬(IsName inner ∨ inner = [] ∧ k.names.dropLast = []) → k.isCompanion = true ∧ ¬∃ l : Key, l.companion = k :=
    fun inner h hname => ⟨isCompanion_iff.2 (Or.inr ⟨inner, h⟩), fun hl => hname ((exists_companion_iff h).1 hl)⟩
  constructor
  · rintro (h | h | h | ⟨h, hdir⟩)
    · exact ⟨isCompanion_iff.2 (Or.inl h), not_exists_companion_of_ending h⟩
    · exact hinner ['.'] h (by simp [IsName])
    · exact hinner ['.', '.'] h (by simp [IsName])
    · exact hinner [] h (by simp [IsName, hdir])
  · rintro ⟨hshape, hnone⟩
    rcases isCompanion_iff.1 hshape with hleaf | ⟨inner, hleaf⟩
    · exact Or.inl hleaf
    · exact ownerless_of_not_isName hleaf fun hname => hnone ((exists_companion_iff hleaf).2 hname)

/-- The same last name in a directory and at the root, where it belongs to the root itself. -/
example : (ofPath "/d/..crc").Ownerless ∧ ¬(ofPath "/..crc").Ownerless := by decide +kernel

end Key

/-! ## Paths -/

theorem exists_companionPath_iff {path : String} :
    (∃ q, companionPath q = canonicalPath path) ↔ ∃ l : Key, l.companion = Key.ofPath path := by
  constructor
  · rintro ⟨q, hq⟩
    exact ⟨Key.ofPath q, Key.text_injective hq⟩
  · rintro ⟨l, hl⟩
    exact ⟨l.text, by rw [companionPath, Key.ofPath_text, hl, canonicalPath]⟩

/-- **The shape of a companion tells the companions from all keys but those without an owner.** A path has the shape if
its key is a companion or one of these, so the shape is right about a path exactly when its key is none of these. -/
theorem isCompanionPath_exact (path : String) :
    (isCompanionPath path = true ↔ (∃ q, companionPath q = canonicalPath path) ∨ (Key.ofPath path).Ownerless) ∧
    ((isCompanionPath path = true ↔ ∃ q, companionPath q = canonicalPath path) ↔ ¬(Key.ofPath path).Ownerless) := by
  have hshape : (∃ l : Key, l.companion = Key.ofPath path) → isCompanionPath path = true := by
    rintro ⟨l, hl⟩
    rw [isCompanionPath, ← hl, Key.isCompanion_companion]
  rw [exists_companionPath_iff, Key.ownerless_iff, ← isCompanionPath]
  by_cases howner : ∃ l : Key, l.companion = Key.ofPath path
  · simp [howner, hshape howner]
  · simp [howner]

/-- `/.crc` has the shape of a companion, and no path has it as its companion. -/
theorem isCompanionPath_crc :
    isCompanionPath "/.crc" = true ∧ ¬∃ q, companionPath q = canonicalPath "/.crc" := by
  have hleaf : (Key.ofPath "/.crc").leaf = companionEnding := by decide +kernel
  refine ⟨by decide +kernel, fun hq => ?_⟩
  exact Key.not_exists_companion_of_ending hleaf (exists_companionPath_iff.1 hq)

end BoundedStore
