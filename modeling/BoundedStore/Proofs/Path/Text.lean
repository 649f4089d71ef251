import BoundedStore.Path.Companion

/-!
# The last name in a text

The last `/` in the text of a key stands before its last name.

* `Key.folder` : what comes before that `/`; `Key.chars_eq` : the text is the folder, `/` and the leaf;
* `cut_unique` : a text has no second cut with no `/` behind it;
* `companionPath_of_cut` : the companion of `folder/leaf` is `folder/.leaf.crc`, and nothing in it has to be resolved.
-/

namespace BoundedStore

/-- Only one place in a text has a `/` and none behind it. -/
theorem cut_unique {folder folder' leaf leaf' : List Char} (hleaf : '/' ∉ leaf) (hleaf' : '/' ∉ leaf')
    (h : folder ++ '/' :: leaf = folder' ++ '/' :: leaf') : folder = folder' ∧ leaf = leaf' := by
  -- a folder that is longer would take a `/` from the leaf of the other cut
  have hlonger : ∀ {between x y : List Char}, '/' ∉ x → '/' :: x = between ++ '/' :: y → between = [] ∧ x = y := by
    intro between x y hx heq
    cases between with
    | nil => exact ⟨rfl, (List.cons.inj heq).2⟩
    | cons c between =>
      rw [List.cons_append, List.cons.injEq] at heq
      exact absurd (heq.2 ▸ List.mem_append_right between List.mem_cons_self) hx
  rcases List.append_eq_append_iff.1 h with ⟨between, rfl, heq⟩ | ⟨between, rfl, heq⟩
  · obtain ⟨rfl, hsame⟩ := hlonger hleaf heq
    exact ⟨(List.append_nil folder).symm, hsame⟩
  · obtain ⟨rfl, hsame⟩ := hlonger hleaf' heq
    exact ⟨List.append_nil folder', hsame.symm⟩

namespace Key

/-- The text of a key up to the `/` before its last name. -/
def folder (k : Key) : List Char := k.names.dropLast.flatMap fun n => '/' :: n.chars

theorem chars_eq (k : Key) : k.chars = k.folder ++ '/' :: k.leaf := by
  obtain ⟨ns⟩ := k
  rcases List.eq_nil_or_concat ns with rfl | ⟨ns, n, rfl⟩
  · rfl
  · simp [chars, folder, leaf]

@[simp] theorem folder_companion (k : Key) : k.companion.folder = k.folder := by
  rw [folder, companion, List.dropLast_concat, folder]

theorem chars_companion (k : Key) : k.companion.chars = k.folder ++ '/' :: '.' :: (k.leaf ++ companionEnding) := by
  rw [chars_eq, folder_companion, leaf_companion]

theorem toList_text (k : Key) : k.text.toList = k.chars := String.toList_ofList

end Key

/-- The path of a companion is put together from the two sides of the last `/` of a canonical path. -/
theorem companionPath_of_cut {path : String} {folder leaf : List Char}
    (hpath : (canonicalPath path).toList = folder ++ '/' :: leaf) (hleaf : '/' ∉ leaf) :
    companionPath path = String.ofList (folder ++ '/' :: '.' :: (leaf ++ companionEnding)) := by
  rw [canonicalPath, Key.toList_text, Key.chars_eq] at hpath
  obtain ⟨hfolder, hname⟩ := cut_unique (Key.slash_notMem_leaf _) hleaf hpath
  rw [companionPath, Key.text, Key.chars_companion, hfolder, hname]

end BoundedStore
