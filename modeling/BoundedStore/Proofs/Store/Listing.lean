import BoundedStore.Store.Basic
import BoundedStore.Proofs.Table.Entries

/-!
# What is listed

The table of files knows an order and `Store.list` promises none, so the listing is described by what is in it.

* `mem_list_iff`, `canonicalPath_mem_list_iff`, `isCommitted_of_mem_list` : the texts of the keys that exist;
* `nodup_list` : each of them once;
* `list_perm` : the listing against the entries of the table.
-/

namespace BoundedStore.Store

variable (s : Store) {path : String}

theorem mem_list_iff {accepts : String → Bool} {text : String} :
    text ∈ s.list accepts ↔ accepts text = true ∧ ∃ key, s.committed.contains key = true ∧ key.text = text := by
  simp only [list, List.mem_filter, List.mem_map, Table.mem_keys, and_comm]

/-- No other file is listed under the text of a key. -/
theorem canonicalPath_mem_list_iff {accepts : String → Bool} :
    canonicalPath path ∈ s.list accepts ↔ accepts (canonicalPath path) = true ∧ s.isCommitted path = true := by
  rw [mem_list_iff]
  refine and_congr_right fun _ => ⟨?_, fun hexists => ⟨Key.ofPath path, hexists, rfl⟩⟩
  rintro ⟨key, hexists, htext⟩
  rw [Key.text_injective htext] at hexists
  exact hexists

/-- What is listed exists, under the very text in the list. -/
theorem isCommitted_of_mem_list {accepts : String → Bool} {text : String} (h : text ∈ s.list accepts) :
    s.isCommitted text = true := by
  obtain ⟨-, key, hexists, rfl⟩ := s.mem_list_iff.1 h
  rw [isCommitted, Key.ofPath_text]
  exact hexists

theorem nodup_list (accepts : String → Bool) : (s.list accepts).Nodup := by
  have htexts : (s.committed.keys.map Key.text).Nodup := by
    rw [List.Nodup, List.pairwise_map]
    exact s.committed.nodup_keys.imp fun hne htext => hne (Key.text_injective htext)
  exact htexts.filter accepts

theorem list_perm (accepts : String → Bool) :
    (s.list accepts).Perm ((s.committed.entries.filter fun entry => accepts entry.1.text).map fun entry =>
      entry.1.text) := by
  rw [list, Table.keys, List.map_map, List.filter_map]
  exact List.Perm.refl _

end BoundedStore.Store
