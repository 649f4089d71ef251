import BoundedStore.Proofs.WholeFile.Put

/-!
# Files that are already there

`put` checks for a file under the key it is given, and publishes two: the second one, the companion, goes over whatever
is published under its key.

* `get?_put_of_ne` : the files under other keys;
* `put_keeps_files` : every file is kept, but for the content under the companion's key when `put` succeeds;
* `put_replaces_left_companion` : there, a companion that a deletion has left behind is replaced.
-/

namespace BoundedStore.Store

/-- Files under other keys than those of the file and of its companion are as before. -/
theorem get?_put_of_ne (s : Store) {path : String} (data : Bytes) {k : Key} (hkey : k ≠ Key.ofPath path)
    (hcompanion : k ≠ (Key.ofPath path).companion) :
    (s.put path data).2.committed.get? k = s.committed.get? k := by
  rcases s.put_cases path data with ⟨-, hput⟩ | ⟨-, -, hput⟩ | ⟨file, sums, -, -, -, -, -, -, -, hput⟩
  · rw [hput]
  · rw [hput]
  · rw [hput]
    exact s.get?_stored_of_ne _ data file sums hkey hcompanion

/-- A file that exists makes `put` fail and leave the store as it is. -/
theorem put_of_isCommitted (s : Store) {path : String} (data : Bytes) (h : s.isCommitted path = true) :
    s.put path data = (.error (.alreadyExists path), s) := by
  rcases s.put_cases path data with ⟨-, hput⟩ | ⟨hnew, -⟩ | ⟨file, sums, hnew, -⟩
  · exact hput
  · rw [h] at hnew
    cases hnew
  · rw [h] at hnew
    cases hnew

/-- Under the companion's key a file is still there, and it is the same one unless `put` succeeds. -/
theorem get?_put_companion (s : Store) (path : String) (data : Bytes) {buffer : Buffer}
    (h : s.committed.get? (Key.ofPath path).companion = some buffer) :
    (s.put path data).2.committed.contains (Key.ofPath path).companion = true ∧
      ((s.put path data).2.committed.get? (Key.ofPath path).companion = some buffer ∨
        (s.put path data).1 = .ok true) := by
  have hkept := Table.contains_of_get? h
  rcases s.put_cases path data with ⟨-, hput⟩ | ⟨-, -, hput⟩ | ⟨file, sums, -, -, -, -, -, -, -, hput⟩
  · rw [hput]
    exact ⟨hkept, Or.inl h⟩
  · rw [hput]
    exact ⟨hkept, Or.inl h⟩
  · rw [hput]
    have hsums := s.get?_stored_companion (Key.ofPath path) data file sums
    exact ⟨Table.contains_of_get? hsums, Or.inr rfl⟩

/-- **`put` keeps every file.** Whatever it returns, a file is still published under each key, and its content is the
same, except under the key of the companion when `put` succeeds. -/
theorem put_keeps_files (s : Store) (path : String) (data : Bytes) {k : Key} {buffer : Buffer}
    (h : s.committed.get? k = some buffer) :
    (s.put path data).2.committed.contains k = true ∧
      ((s.put path data).2.committed.get? k = some buffer ∨
        (k = (Key.ofPath path).companion ∧ (s.put path data).1 = .ok true)) := by
  have hkept := Table.contains_of_get? h
  by_cases hcompanion : k = (Key.ofPath path).companion
  · subst hcompanion
    obtain ⟨hcontains, hsame | htrue⟩ := s.get?_put_companion path data h
    · exact ⟨hcontains, Or.inl hsame⟩
    · exact ⟨hcontains, Or.inr ⟨rfl, htrue⟩⟩
  · by_cases hkey : k = Key.ofPath path
    · have hexists : s.isCommitted path = true := by rw [isCommitted, ← hkey, hkept]
      rw [s.put_of_isCommitted data hexists]
      exact ⟨hkept, Or.inl h⟩
    · have hget := s.get?_put_of_ne data hkey hcompanion
      rw [h] at hget
      exact ⟨Table.contains_of_get? hget, Or.inl hget⟩

/-- Two files side by side. -/
theorem put_keeps_files_neighbour :
    ∃ (store : Store) (buffer : Buffer), Store.ofCapacity 1000 512 = .ok store ∧
      (store.put "/b" [1, 2]).2.committed.get? (Key.ofPath "/b") = some buffer ∧
      ((store.put "/b" [1, 2]).2.put "/a" [3]).2.committed.contains (Key.ofPath "/b") = true ∧
      (((store.put "/b" [1, 2]).2.put "/a" [3]).2.committed.get? (Key.ofPath "/b") = some buffer ∨
        (Key.ofPath "/b" = (Key.ofPath "/a").companion ∧
          ((store.put "/b" [1, 2]).2.put "/a" [3]).1 = .ok true)) := by
  refine ⟨_, ⟨[1, 2], by decide⟩, rfl, ?_, ?_⟩
  · decide +kernel
  · apply put_keeps_files
    decide +kernel

/-- The companion that a deletion leaves behind does not survive the next `put`. -/
theorem put_replaces_left_companion :
    ∃ (store : Store) (sums : Buffer), Store.ofCapacity 1000 512 = .ok store ∧
      ((store.put "/a" [120]).2.delete "/a").2.committed.get? (Key.ofPath "/.a.crc") = some sums ∧
      (((store.put "/a" [120]).2.delete "/a").2.put "/a" [121]).2.committed.get? (Key.ofPath "/.a.crc") ≠
        some sums := by
  refine ⟨_, ⟨Companion.encode ⟨512, by decide⟩ [120], by decide +kernel⟩, rfl, ?_, ?_⟩
  · decide +kernel
  · decide +kernel

end BoundedStore.Store
