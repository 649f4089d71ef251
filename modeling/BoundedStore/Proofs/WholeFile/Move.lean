import BoundedStore.Proofs.Checksum.Verification
import BoundedStore.Proofs.Store.Outcome

/-!
# A file moved together with its companion

To move a file with its companion takes two calls of `rename`, and each of them takes away one entry and puts another
one, over whatever is there. Four keys are involved, and some of them may be the same. The second call finds what it has
to move, and leaves the file that was moved before, if only the destination is not the companion of the source.

* `verify_eq_ok_iff` : what is published for a path that passes the check;
* `Store.carried` : the store after both moves, with its look-ups in `get?_committed_carried`;
* `rename_rename_of_get?` : the two moves;
* `rename_keeps_verified` : what is read and checked at the destination, and what is left at the source.
-/

namespace BoundedStore

namespace Store

variable (s : Store)

/-- A path passes the check if its file and its companion are published, and the companion begins with what the bytes of
the file are encoded to. The path itself, which stands in the errors, has no influence. -/
theorem verify_eq_ok_iff {path : String} :
    s.verify path = .ok () ↔ s.closed = false ∧ ∃ file sums g, s.committed.get? (Key.ofPath path) = some file ∧
      s.committed.get? (Key.ofPath path).companion = some sums ∧ Companion.encode g file.bytes <+: sums.bytes := by
  constructor
  · intro h
    cases hdata : s.readAll path with
    | error e =>
      simp only [verify, hdata] at h
      cases h
    | ok data =>
      cases hcompanion : s.readAll (companionPath path) with
      | error e =>
        simp only [verify, hdata, hcompanion] at h
        cases h
      | ok companion =>
        simp only [verify, hdata, hcompanion] at h
        obtain ⟨hopen, file, hfile, rfl⟩ := s.readAll_eq_ok_iff.1 hdata
        obtain ⟨-, sums, hsums, rfl⟩ := s.readAll_eq_ok_iff.1 hcompanion
        obtain ⟨g, hprefix⟩ := Companion.verify_eq_ok_iff.1 h
        rw [ofPath_companionPath] at hsums
        exact ⟨hopen, file, sums, g, hfile, hsums, hprefix⟩
  · rintro ⟨hopen, file, sums, g, hfile, hsums, hprefix⟩
    rw [s.verify_of_get? hopen hfile hsums]
    exact Companion.verify_eq_ok_iff.2 ⟨g, hprefix⟩

/-! ## Two moves -/

/-- The store after `file` is moved from `source` to `destination`, and then `sums` from the companion of the one to the
companion of the other. -/
def carried (source destination : Key) (file sums : Buffer) : Store :=
  { s with
    committed := (((s.committed.erase source).insert destination file).erase source.companion).insert
      destination.companion sums }

variable {s}

section Carried

variable {source destination : Key} {file sums : Buffer}

/-- The destination is not emptied by the second move, and everything that is moved away is gone unless it is moved to
where it came from. -/
theorem get?_committed_carried (hother : destination ≠ source.companion) (x : Key) :
    (s.carried source destination file sums).committed.get? x =
      if x = destination.companion then some sums else if x = destination then some file
      else if x = source ∨ x = source.companion then none else s.committed.get? x := by
  simp only [carried, Table.get?_insert, Table.get?_erase]
  by_cases hdestination : x = destination
  · subst hdestination
    rw [if_neg hother, if_pos rfl, if_pos rfl]
  · by_cases hcompanion : x = source.companion
    · simp only [if_neg hdestination, if_pos hcompanion, if_pos (Or.inr hcompanion)]
    · simp only [hdestination, hcompanion, if_false, or_false]

theorem contains_committed_carried_source (hother : destination ≠ source.companion) :
    (s.carried source destination file sums).committed.contains source = true ↔
      source = destination ∨ source = destination.companion := by
  rw [Table.contains, get?_committed_carried hother, if_pos (Or.inl rfl)]
  split
  · next hcompanion => exact iff_of_true rfl (Or.inr hcompanion)
  · next hcompanion =>
    split
    · next hsame => exact iff_of_true rfl (Or.inl hsame)
    · next hsame => exact iff_of_false Bool.false_ne_true (not_or.2 ⟨hsame, hcompanion⟩)

end Carried

theorem rename_rename_of_get? {source destination : String} {file sums : Buffer}
    (hfile : s.committed.get? (Key.ofPath source) = some file)
    (hsums : s.committed.get? (Key.ofPath source).companion = some sums)
    (hother : Key.ofPath destination ≠ (Key.ofPath source).companion) :
    ∃ t, s.rename source destination = (true, t) ∧ t.rename (companionPath source) (companionPath destination) =
      (true, s.carried (Key.ofPath source) (Key.ofPath destination) file sums) := by
  refine ⟨_, s.rename_of_get? hfile destination, ?_⟩
  rw [carried, ← ofPath_companionPath, ← ofPath_companionPath]
  apply rename_of_get?
  rw [ofPath_companionPath, Table.get?_insert_of_ne _ _ hother.symm, Table.get?_erase_of_ne _ (Key.companion_ne _), hsums]

/-- **A file stays verified when it is moved with its companion**, also over other files, onto itself or away from the
companion of its destination. Only the companion of the source is no destination: the first move would put the file over
what the second one is to move. -/
theorem rename_keeps_verified {source destination : String} (hverify : s.verify source = .ok ())
    (hother : canonicalPath destination ≠ companionPath source) :
    ∃ t u, s.rename source destination = (true, t) ∧
      t.rename (companionPath source) (companionPath destination) = (true, u) ∧
      u.readAll destination = s.readAll source ∧ u.verify destination = .ok () ∧ u.used = s.used ∧
      (u.isCommitted source = true ↔
        canonicalPath source = canonicalPath destination ∨ canonicalPath source = companionPath destination) := by
  obtain ⟨hopen, file, sums, g, hfile, hsums, hprefix⟩ := s.verify_eq_ok_iff.1 hverify
  have hkeys := mt canonicalPath_eq_companionPath_iff.2 hother
  obtain ⟨t, hfirst, hsecond⟩ := rename_rename_of_get? hfile hsums hkeys
  have hfileThere : (s.carried (Key.ofPath source) (Key.ofPath destination) file sums).committed.get?
      (Key.ofPath destination) = some file := by
    rw [get?_committed_carried hkeys, if_neg (Key.companion_ne _).symm, if_pos rfl]
  have hsumsThere : (s.carried (Key.ofPath source) (Key.ofPath destination) file sums).committed.get?
      (Key.ofPath destination).companion = some sums := by
    rw [get?_committed_carried hkeys, if_pos rfl]
  refine ⟨t, _, hfirst, hsecond, ?_, ?_, rfl, ?_⟩
  · rw [s.readAll_of_get? hopen hfile]
    exact readAll_of_get? _ hopen hfileThere
  · exact (verify_eq_ok_iff _).2 ⟨hopen, file, sums, g, hfileThere, hsumsThere, hprefix⟩
  · rw [canonicalPath_eq_iff, canonicalPath_eq_companionPath_iff]
    exact contains_committed_carried_source hkeys

/-- A file whose companion is asked for again, as the name of a file that is there already. -/
theorem rename_keeps_verified_from_companion :
    ∃ store s t u : Store, Store.ofCapacity 1000 512 = .ok store ∧
      s = (((store.put "/x" [9]).2.rename "/x" "/b").2.put "/.b.crc" [1, 2]).2 ∧
      s.rename "/.b.crc" "x/../b" = (true, t) ∧
      t.rename (companionPath "/.b.crc") (companionPath "x/../b") = (true, u) ∧
      u.readAll "x/../b" = .ok [1, 2] ∧ u.verify "x/../b" = .ok () ∧ u.used = s.used ∧
      u.isCommitted "/.b.crc" = true := by
  have hbuild : Store.ofCapacity 1000 512 =
    .ok ⟨Address.default, ⟨512, by decide⟩, Ledger.empty 1000, Table.empty, Table.empty, false⟩ := rfl
  have hverify : (((Store.put ⟨Address.default, ⟨512, by decide⟩, Ledger.empty 1000, Table.empty, Table.empty, false⟩
      "/x" [9]).2.rename "/x" "/b").2.put "/.b.crc" [1, 2]).2.verify "/.b.crc" = .ok () :=
    (verify_eq_ok_iff _).2 ⟨rfl, _, _, ⟨512, by decide⟩, rfl, rfl, by decide +kernel⟩
  have hother : canonicalPath "x/../b" ≠ companionPath "/.b.crc" := by decide +kernel
  obtain ⟨t, u, hfirst, hsecond, hread, hthere, hused, hsource⟩ := rename_keeps_verified hverify hother
  exact ⟨_, _, t, u, hbuild, rfl, hfirst, hsecond, hread.trans (by rfl), hthere, hused, hsource.2 (by decide +kernel)⟩

/-- A file moved onto its own companion is gone: all that is left of the two lies two companions away. -/
example :
    let s := (Store.put ⟨Address.default, ⟨512, by decide⟩, Ledger.empty 1000, Table.empty, Table.empty, false⟩ "/a" [1]).2
    let t := (s.rename "/a" (companionPath "/a")).2.rename (companionPath "/a") (companionPath (companionPath "/a"))
    t.2.committed.keys.map Key.text = ["/..a.crc.crc"] ∧ t.2.readAll "/..a.crc.crc" = .ok [1] := by
  constructor
  · decide +kernel
  · rfl

end Store
end BoundedStore
