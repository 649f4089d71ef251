import BoundedStore.Proofs.Path.Text
import BoundedStore.Proofs.Path.Walk
import Mathlib.Logic.Function.Iterate

/-!
# Companions never clash

A companion has the last name of its file, five characters longer, in the same directory. So it tells its file, and the
companion of a companion is a key that did not occur before.

* `companionPath_eq_iff` : only paths to one key share a companion;
* `Key.length_leaf_iterate`, `Key.iterate_companion_injective` : from one companion to the next the last name grows;
* `exists_folder` : the paths of a file and of its companion differ behind the last `/` only;
* `companions_never_clash` : all of it, for paths.
-/

namespace BoundedStore

theorem companionPath_eq_iff {p q : String} : companionPath p = companionPath q ↔ canonicalPath p = canonicalPath q := by
  rw [canonicalPath_eq_iff]
  constructor
  · intro h
    exact Key.companion_injective (Key.text_injective h)
  · intro h
    rw [companionPath, h, companionPath]

/-! ## From one companion to the next -/

namespace Key

theorem length_leaf_companion (k : Key) : k.companion.leaf.length = k.leaf.length + 5 := by
  simp [companionEnding]

theorem length_leaf_iterate (k : Key) (n : Nat) : (companion^[n] k).leaf.length = k.leaf.length + 5 * n := by
  induction n with
  | zero => rfl
  | succ n ih =>
    rw [Function.iterate_succ_apply', length_leaf_companion, ih]
    omega

theorem iterate_companion_injective (k : Key) : Function.Injective fun n => companion^[n] k := by
  intro m n h
  have hlength := congrArg (fun l : Key => l.leaf.length) h
  simp only [length_leaf_iterate] at hlength
  omega

/-- `..` leads to one directory from a file and from its companion; the companion of the root is in the root. -/
theorem follow_up_companion (k : Key) : k.companion.follow ['.', '.'] = k.follow ['.', '.'] := by
  rw [follow_up, follow_up, companion, List.dropLast_concat]

end Key

theorem ofPath_iterate_companionPath (path : String) (n : Nat) :
    Key.ofPath (companionPath^[n] path) = Key.companion^[n] (Key.ofPath path) := by
  have hsemiconj : Function.Semiconj Key.ofPath companionPath Key.companion := ofPath_companionPath
  exact hsemiconj.iterate_right n path

/-! ## Paths -/

/-- The canonical path of a file, and the path of its companion, cut at the last `/`. -/
theorem exists_folder (path : String) :
    ∃ folder name : String, '/' ∉ name.toList ∧ canonicalPath path = folder ++ "/" ++ name ∧
      companionPath path = folder ++ "/." ++ name ++ ".crc" := by
  refine ⟨String.ofList (Key.ofPath path).folder, String.ofList (Key.ofPath path).leaf, ?_, ?_, ?_⟩
  · rw [String.toList_ofList]
    exact (Key.ofPath path).slash_notMem_leaf
  · apply String.toList_inj.1
    rw [canonicalPath, Key.toList_text, Key.chars_eq]
    simp
  · apply String.toList_inj.1
    rw [companionPath, Key.toList_text, Key.chars_companion]
    simp [companionEnding]

/-- **Companions never clash.** Two paths share a companion only if they lead to one key. A companion is a canonical
path and another one than that of its file, and of the keys that come one from another by taking the companion, no two
are the same. It lies in the directory of its file, with `.` and `.crc` about the last name; the companion of the root,
which has no name, is `/..crc`. -/
theorem companions_never_clash (p q : String) :
    (companionPath p = companionPath q ↔ canonicalPath p = canonicalPath q) ∧
    canonicalPath (companionPath p) = companionPath p ∧
    companionPath p ≠ canonicalPath p ∧
    (∀ m n, canonicalPath (companionPath^[m] p) = canonicalPath (companionPath^[n] p) ↔ m = n) ∧
    (Key.ofPath (companionPath p)).follow ['.', '.'] = (Key.ofPath p).follow ['.', '.'] ∧
    ∃ folder name : String, '/' ∉ name.toList ∧ canonicalPath p = folder ++ "/" ++ name ∧
      companionPath p = folder ++ "/." ++ name ++ ".crc" := by
  refine ⟨companionPath_eq_iff, ?_, ?_, ?_, ?_, exists_folder p⟩
  · exact canonicalPath_text _
  · intro h
    exact (Key.ofPath p).companion_ne (Key.text_injective h)
  · intro m n
    rw [canonicalPath_eq_iff, ofPath_iterate_companionPath, ofPath_iterate_companionPath]
    exact (Key.iterate_companion_injective (Key.ofPath p)).eq_iff
  · rw [ofPath_companionPath, Key.follow_up_companion]

/-- The companion of the root, and the companion of that. -/
example : canonicalPath "a/.." = "/" ∧ companionPath "a/.." = "/..crc" ∧ companionPath "/..crc" = "/...crc.crc" := by
  decide +kernel

end BoundedStore
