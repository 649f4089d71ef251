import BoundedStore.Proofs.Path.Text

/-!
# Canonical texts

`canonicalPath` gives every path its one canonical spelling.

* `IsCanonical` : `/`, or `/` and a name once or more;
* `isCanonical_iff_text` : these texts are the texts of keys;
* `canonicalPath_canonicalizes` : the canonical texts are what `canonicalPath` gives, and what it leaves as it is.
-/

namespace BoundedStore

/-- The text is `/`, or it is `/` and a name once or more. -/
def IsCanonical (text : String) : Prop :=
  text = "/" ∨ ∃ names : List (List Char), names ≠ [] ∧ (∀ name ∈ names, IsName name) ∧
    text.toList = names.flatMap fun name => '/' :: name

/-! ## Canonical texts and keys -/

theorem Key.isCanonical_text (k : Key) : IsCanonical k.text := by
  by_cases hroot : k.names = []
  · left
    rw [text, chars, if_pos hroot]
  · right
    refine ⟨k.names.map Name.chars, by simpa using hroot, ?_, ?_⟩
    · intro name hname
      obtain ⟨n, -, rfl⟩ := List.mem_map.1 hname
      exact n.isName
    · rw [toList_text, chars, if_neg hroot, List.flatMap_map]

theorem isCanonical_iff_text {text : String} : IsCanonical text ↔ ∃ k : Key, k.text = text := by
  constructor
  · rintro (rfl | ⟨names, hne, hnames, htext⟩)
    · exact ⟨Key.root, rfl⟩
    · refine ⟨⟨names.pmap Name.mk hnames⟩, ?_⟩
      have hkept : names.pmap Name.mk hnames ≠ [] := by simpa using hne
      rw [Key.text, Key.chars, if_neg hkept, ← String.ofList_toList (s := text), htext]
      congr 1
      rw [← List.flatMap_map (f := Name.chars), List.map_pmap, List.pmap_eq_map, List.map_id']
  · rintro ⟨k, rfl⟩
    exact k.isCanonical_text

/-! ## The canonical spelling -/

/-- **The canonical texts are what `canonicalPath` gives, and what it leaves as it is.** It gives nothing else, so a
second pass finds nothing to change, and there is no empty component and no mark in what it gives. -/
theorem canonicalPath_canonicalizes (path : String) :
    IsCanonical (canonicalPath path) ∧
    (canonicalPath path = path ↔ IsCanonical path) ∧
    canonicalPath (canonicalPath path) = canonicalPath path ∧
    ¬['/', '/'] <:+: (canonicalPath path).toList ∧ ¬schemeMark <:+: (canonicalPath path).toList ∧
    ((∃ source, canonicalPath source = path) ↔ IsCanonical path) := by
  have hfixed : ∀ {text : String}, IsCanonical text → canonicalPath text = text := by
    intro text htext
    obtain ⟨k, rfl⟩ := isCanonical_iff_text.1 htext
    rw [canonicalPath, Key.ofPath_text]
  have hcanonical : ∀ text, IsCanonical (canonicalPath text) := fun text => (Key.ofPath text).isCanonical_text
  refine ⟨hcanonical path, ⟨fun hself => ?_, hfixed⟩, hfixed (hcanonical path), ?_, ?_, ?_, fun h => ⟨path, hfixed h⟩⟩
  · rw [← hself]
    exact hcanonical path
  · rw [canonicalPath, Key.toList_text]
    exact (Key.ofPath path).slashes_notInfix_chars
  · rw [canonicalPath, Key.toList_text]
    exact cutScheme_eq_none_iff.1 (Key.ofPath path).cutScheme_chars
  · rintro ⟨source, rfl⟩
    exact hcanonical source

end BoundedStore
