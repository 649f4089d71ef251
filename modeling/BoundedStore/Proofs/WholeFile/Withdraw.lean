import BoundedStore.Proofs.WholeFile.Put

/-!
# A stored file deleted again

`put` claims the space of a file and of its companion at once, and two deletions release it in two parts. Each part is
the capacity of a published buffer, which is the size that was reserved for it, so together they are what was claimed.

* `Store.cleared` : a store with nothing left under a key and under its companion; by `cleared_eq_self_iff` it is the
  store itself exactly if there was nothing before;
* `delete_delete_of_get?` : two files deleted one after the other;
* `delete_undoes_put` : what is left after `put` and both deletions, in either order.
-/

namespace BoundedStore

theorem Table.erase_erase_eq_self_iff {κ α : Type} [Ord κ] [Std.OrientedOrd κ] [Std.LawfulEqOrd κ] {t : Table κ α}
    {k l : κ} : (t.erase k).erase l = t ↔ t.get? k = none ∧ t.get? l = none := by
  constructor
  · intro h
    constructor
    · rw [← h, Table.erase_comm, Table.get?_erase_self]
    · rw [← h, Table.get?_erase_self]
  · rintro ⟨hk, hl⟩
    rw [Table.erase_of_get?_eq_none hk, Table.erase_of_get?_eq_none hl]

namespace Store

/-! ## A store without a file and its companion -/

/-- The store with nothing reserved and nothing published under a key and under its companion; as much space is in use
as before. -/
def cleared (s : Store) (key : Key) : Store :=
  { s with
    reserved := (s.reserved.erase key).erase key.companion
    committed := (s.committed.erase key).erase key.companion }

theorem cleared_eq_self_iff {s : Store} {key : Key} :
    s.cleared key = s ↔ (s.reserved.get? key = none ∧ s.reserved.get? key.companion = none) ∧
      s.committed.get? key = none ∧ s.committed.get? key.companion = none := by
  rw [← Table.erase_erase_eq_self_iff, ← Table.erase_erase_eq_self_iff]
  constructor
  · intro h
    exact ⟨congrArg Store.reserved h, congrArg Store.committed h⟩
  · rintro ⟨hreserved, hcommitted⟩
    rw [cleared, hreserved, hcommitted]

/-! ## Two deletions -/

variable (s : Store)

theorem delete_delete_of_get? {first second : String} {a b : Buffer} (hne : Key.ofPath second ≠ Key.ofPath first)
    (ha : s.committed.get? (Key.ofPath first) = some a) (hb : s.committed.get? (Key.ofPath second) = some b) :
    ∃ t, s.delete first = (true, t) ∧ t.delete second = (true, { s with
      ledger := (s.ledger.release a.capacity).release b.capacity
      committed := (s.committed.erase (Key.ofPath first)).erase (Key.ofPath second) }) := by
  refine ⟨_, s.delete_of_get? ha, delete_of_get? _ ?_⟩
  rw [Table.get?_erase_of_ne _ hne]
  exact hb

/-! ## What `put` has stored -/

section Stored

variable {data : Bytes} {file sums : Buffer}

/-- What was claimed for a file and for its companion is what their buffers give back. -/
theorem release_stored (key : Key) (hfile : file.bytes = data)
    (hsums : sums.capacity = s.granularity.companionSize (Bytes.size data))
    (hfits : s.used.toNat + s.granularity.footprint (Bytes.size data) < s.capacity.toNat) :
    ((s.stored key data file sums).ledger.release file.capacity).release sums.capacity = s.ledger := by
  rw [ledger_stored, Buffer.capacity, hfile, hsums]
  exact Ledger.release_release_claim hfits

/-- Without the two files that were stored, both tables are cleared under their keys. -/
theorem stored_cleared (key : Key) :
    { s.stored key data file sums with
      ledger := s.ledger
      committed := ((s.stored key data file sums).committed.erase key).erase key.companion } = s.cleared key := by
  rw [committed_stored, Table.erase_comm, Table.erase_erase_insert_insert, Table.erase_comm]
  simp only [stored, cleared]

/-- The file first or its companion first: the ledger and the table end up the same. -/
theorem delete_delete_stored (path : String) (hfile : file.bytes = data)
    (hsums : sums.capacity = s.granularity.companionSize (Bytes.size data))
    (hfits : s.used.toNat + s.granularity.footprint (Bytes.size data) < s.capacity.toNat) :
    (∃ t, (s.stored (Key.ofPath path) data file sums).delete path = (true, t) ∧
      t.delete (companionPath path) = (true, s.cleared (Key.ofPath path))) ∧
    ∃ t, (s.stored (Key.ofPath path) data file sums).delete (companionPath path) = (true, t) ∧
      t.delete path = (true, s.cleared (Key.ofPath path)) := by
  have hself := s.get?_stored_self (Key.ofPath path) data file sums
  have hcompanion := s.get?_stored_companion (Key.ofPath path) data file sums
  have hledger := s.release_stored (Key.ofPath path) hfile hsums hfits
  have hne := (Key.ofPath path).companion_ne
  rw [← ofPath_companionPath] at hcompanion hne
  constructor
  · have hdelete := delete_delete_of_get? _ hne hself hcompanion
    rw [hledger, ofPath_companionPath, stored_cleared] at hdelete
    exact hdelete
  · have hdelete := delete_delete_of_get? _ hne.symm hcompanion hself
    rw [Ledger.release_comm, hledger, ofPath_companionPath, Table.erase_comm, stored_cleared] at hdelete
    exact hdelete

end Stored

theorem cleared_ofPath_eq_self_iff {path : String} (hnew : s.isCommitted path = false) :
    s.cleared (Key.ofPath path) = s ↔
      s.isReserved path = false ∧ s.isReserved (companionPath path) = false ∧
        s.isCommitted (companionPath path) = false := by
  have hfree := Table.contains_eq_false_iff.1 (show s.committed.contains (Key.ofPath path) = false from hnew)
  rw [cleared_eq_self_iff, isReserved, isReserved, isCommitted, ofPath_companionPath]
  simp only [Table.contains_eq_false_iff, hfree, true_and, and_assoc]

/-- **Both deletions undo a `put`.** After a `put` that has stored a file, the file and its companion can be deleted, in
either order, and then the space in use is what it was before, and nothing is left under the two keys. So the store is
the one before the `put` exactly if nothing was reserved under either key and no file was under that of the companion. -/
theorem delete_undoes_put {s t : Store} {path : String} {data : Bytes} (hput : s.put path data = (.ok true, t)) :
    (∃ u, t.delete path = (true, u) ∧ u.delete (companionPath path) = (true, s.cleared (Key.ofPath path))) ∧
    (∃ u, t.delete (companionPath path) = (true, u) ∧ u.delete path = (true, s.cleared (Key.ofPath path))) ∧
    (s.cleared (Key.ofPath path) = s ↔
      s.isReserved path = false ∧ s.isReserved (companionPath path) = false ∧
        s.isCommitted (companionPath path) = false) := by
  rcases s.put_cases path data with ⟨-, h⟩ | ⟨-, -, h⟩ | ⟨file, sums, hnew, -, -, hfits, hfile, -, hsums, h⟩
  · rw [h] at hput
    cases hput
  · rw [h] at hput
    cases hput
  · rw [h] at hput
    cases hput
    obtain ⟨hfirst, hlast⟩ := s.delete_delete_stored path hfile hsums hfits
    exact ⟨hfirst, hlast, s.cleared_ofPath_eq_self_iff hnew⟩

/-- A file among others: one beside it, and a reservation that was never used. -/
theorem delete_undoes_put_neighbours :
    ∃ store s t : Store, Store.ofCapacity 1000 2 = .ok store ∧ s = ((store.put "/d/b" [7]).2.reserve "/d/c" 2).2 ∧
      s.put "d/./a" [1, 2, 3] = (.ok true, t) ∧
      (∃ u, t.delete "d/./a" = (true, u) ∧ u.delete (companionPath "d/./a") = (true, s)) ∧
      ∃ u, t.delete (companionPath "d/./a") = (true, u) ∧ u.delete "d/./a" = (true, s) := by
  have hbuild : Store.ofCapacity 1000 2 =
    .ok ⟨Address.default, ⟨2, by decide⟩, Ledger.empty 1000, Table.empty, Table.empty, false⟩ := rfl
  have hput : ((Store.put ⟨Address.default, ⟨2, by decide⟩, Ledger.empty 1000, Table.empty, Table.empty, false⟩ "/d/b"
      [7]).2.reserve "/d/c" 2).2.put "d/./a" [1, 2, 3] = (.ok true, _) := Prod.ext (by rfl) rfl
  obtain ⟨hfirst, hlast, hsame⟩ := delete_undoes_put hput
  rw [hsame.2 (by decide +kernel)] at hfirst hlast
  exact ⟨_, _, _, hbuild, rfl, hput, hfirst, hlast⟩

end Store
end BoundedStore
