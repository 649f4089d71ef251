import BoundedStore.Proofs.Staging.Inputs
import BoundedStore.Proofs.Store.Listing

/-!
# Every listed file verifies

The listing keeps back the keys that have the shape of a companion. A file under any other key was stored by a `put`,
so its companion was published with it; no later `put` replaces that companion, neither as a file, since a file that
exists is refused, nor as a companion, since no two keys share one.

* `Verifiable` : the companion of every such file holds its checksums; `Verifiable.after` : every input keeps this;
* `verifyAll_of_isCommitted` : such files are verified in whatever order they come;
* `listing` : their keys, sorted, with the lengths (`verifyAll_sortTexts`, `listing_ordered`);
* `listing_perm` : the listing against the sizes in the table.
-/

namespace BoundedStore.Store

/-- Beside every file that is not itself shaped like a companion stands its companion. -/
structure Verifiable (s : Store) : Prop where
  isOpen : s.closed = false
  companion : ∀ {key : Key} {file : Buffer}, s.committed.get? key = some file → key.isCompanion = false →
    ∃ sums, s.committed.get? key.companion = some sums ∧ sums.bytes = Companion.encode s.granularity file.bytes

theorem Verifiable.stored {s : Store} (h : s.Verifiable) {key : Key} {data : Bytes} {file sums : Buffer}
    (hnew : s.committed.get? key = none) (hfile : file.bytes = data)
    (hsums : sums.bytes = Companion.encode s.granularity data) : (s.stored key data file sums).Verifiable where
  isOpen := by rw [closed_stored, h.isOpen]
  companion := by
    intro k other hother hshape
    have hne : k ≠ key.companion := by
      rintro rfl
      rw [Key.isCompanion_companion] at hshape
      cases hshape
    by_cases hkey : k = key
    · subst hkey
      rw [get?_stored_self, Option.some.injEq] at hother
      exact ⟨sums, s.get?_stored_companion k data file sums, by rw [granularity_stored, ← hother, hfile, hsums]⟩
    · rw [s.get?_stored_of_ne key data file sums hkey hne] at hother
      obtain ⟨kept, hkept, hbytes⟩ := h.companion hother hshape
      -- an earlier file: the companion it has is neither the new file nor the new companion
      have hfresh : k.companion ≠ key := by
        rintro rfl
        rw [hnew] at hkept
        cases hkept
      have hapart : k.companion ≠ key.companion := fun heq => hkey (Key.companion_injective heq)
      exact ⟨kept, by rw [s.get?_stored_of_ne key data file sums hfresh hapart, hkept],
        by rw [granularity_stored, hbytes]⟩

theorem Verifiable.after {s : Store} (h : s.Verifiable) (input : Input) : (s.after input).Verifiable := by
  rcases s.put_input_cases input with ⟨-, -, hafter⟩ | ⟨file, sums, -, -, hnew, -, hfile, hsums, -, hafter⟩
  · rw [hafter]
    exact h
  · rw [hafter]
    exact h.stored hnew hfile hsums

theorem Verifiable.putEach {s : Store} (h : s.Verifiable) (inputs : List Input) : (s.putEach inputs).Verifiable :=
  putEach_induction (fun _ input hs => hs.after input) inputs h

/-- A new store holds no file. -/
theorem verifiable_of_ofConfig {config : Config} {s : Store} (h : ofConfig config = .ok s) : s.Verifiable := by
  obtain ⟨address, hbuild⟩ := build_of_ofConfig h
  obtain ⟨g, -, rfl⟩ := build_eq_ok_iff.1 hbuild
  exact ⟨rfl, fun hfile => by cases hfile⟩

/-! ## The listing -/

/-- The size of every file. -/
def sizes (s : Store) : Table Key UInt64 := s.committed.map Buffer.capacity

/-- The size of the file under `path`. -/
def fileSize (s : Store) (path : String) : UInt64 := (s.sizes.get? (Key.ofPath path)).getD 0

theorem fileSize_of_get? {s : Store} {path : String} {file : Buffer}
    (h : s.committed.get? (Key.ofPath path) = some file) : s.fileSize path = file.capacity := by
  rw [fileSize, sizes, Table.get?_map, h]
  rfl

/-- Files that exist and do not have the shape of a companion are verified one after the other, in any order. -/
theorem verifyAll_of_isCommitted {s : Store} (h : s.Verifiable) {keys : List String}
    (hkeys : ∀ key ∈ keys, s.isCommitted key = true ∧ isCompanionPath key = false) :
    verifyAll s keys = .ok (keys.map fun key => (key, s.fileSize key)) := by
  induction keys with
  | nil => rfl
  | cons key keys ih =>
    obtain ⟨hexists, hshape⟩ := hkeys key List.mem_cons_self
    obtain ⟨file, hfile⟩ := Option.isSome_iff_exists.1 hexists
    obtain ⟨sums, hsums, hbytes⟩ := h.companion hfile hshape
    have hrest := ih fun other hother => hkeys other (List.mem_cons_of_mem _ hother)
    have hverify : s.verify key = .ok () := by
      rw [s.verify_of_get? h.isOpen hfile hsums, hbytes, Companion.verify_encode]
    simp only [List.map_cons, verifyAll, hverify, s.length_of_get? hfile, fileSize_of_get? hfile, hrest]

/-- The files whose keys do not have the shape of a companion, sorted by their keys, with their sizes. -/
def listing (s : Store) : List (String × UInt64) :=
  (sortTexts (s.list fun key => !isCompanionPath key)).map fun key => (key, s.fileSize key)

/-- Every file that is listed agrees with its companion. -/
theorem verifyAll_sortTexts {s : Store} (h : s.Verifiable) :
    verifyAll s (sortTexts (s.list fun key => !isCompanionPath key)) = .ok s.listing := by
  apply verifyAll_of_isCommitted h
  intro key hkey
  rw [(sortTexts_perm _).mem_iff] at hkey
  exact ⟨s.isCommitted_of_mem_list hkey, by simpa using (s.mem_list_iff.1 hkey).1⟩

/-- The listing is in the order of the UTF-8 bytes of the keys. -/
theorem listing_ordered (s : Store) :
    (s.listing.map fun entry => entry.1.toByteArray.data.toList).Pairwise (· < ·) := by
  rw [listing, List.map_map]
  exact sortTexts_ordered (s.nodup_list _)

theorem listing_perm (s : Store) :
    s.listing.Perm ((s.sizes.entries.filter fun entry => !entry.1.isCompanion).map fun entry =>
      (entry.1.text, entry.2)) := by
  have hsorted := ((sortTexts_perm _).trans (s.list_perm fun key => !isCompanionPath key)).map fun key =>
    (key, s.fileSize key)
  have hentries : (s.sizes.entries.filter fun entry => !entry.1.isCompanion) =
      (s.committed.entries.filter fun entry => !isCompanionPath entry.1.text).map fun entry =>
        (entry.1, entry.2.capacity) := by
    simp only [sizes, Table.map, List.filter_map, isCompanionPath, Key.ofPath_text, Function.comp_def]
  rw [hentries, List.map_map]
  rw [List.map_map] at hsorted
  refine hsorted.trans (List.Perm.of_eq (List.map_congr_left fun entry hentry => ?_))
  have hfile := Table.mem_entries_iff.1 (List.mem_filter.1 hentry).1
  rw [← Key.ofPath_text entry.1] at hfile
  exact congrArg (entry.1.text, ·) (fileSize_of_get? hfile)

end BoundedStore.Store
