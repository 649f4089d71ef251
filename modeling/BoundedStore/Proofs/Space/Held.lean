import BoundedStore.Proofs.Table.Total
import BoundedStore.Proofs.WholeFile.Put
import BoundedStore.Session.Step

/-!
# Where the bytes in use are

A buffer is in the table of reservations, in a writer or in the table of files.

* `Store.reservedExtent`, `Store.committedExtent`, `Session.writersExtent` : the bytes of all buffers in each place;
* `Session.held` : the bytes in all three;
* `reservedExtent_granted`, `reservedExtent_stored`, `committedExtent_stored` : what a reservation and a new file do to the
  bytes in the two tables;
* `extent_write`, `extent_writeSlice` : writing keeps the bytes of a writer.
-/

namespace BoundedStore

/-- The capacity as an unbounded number. -/
def Buffer.extent (b : Buffer) : Nat := b.capacity.toNat

def Writer.extent (w : Writer) : Nat := w.capacity.toNat

theorem Buffer.extent_of_allocate {n : UInt64} {b : Buffer} (h : allocate n = .ok b) : b.extent = n.toNat :=
  toNat_capacity_of_allocate h

/-! ## Writing -/

theorem Writer.extent_write {w v : Writer} {data : Bytes} (h : w.write data = .ok v) : v.extent = w.extent := by
  rcases write_cases h with ⟨-, rfl⟩ | hwrote
  · rfl
  · rw [extent, extent, capacity, capacity, Buffer.toNat_capacity, Buffer.toNat_capacity, hwrote.bytes,
      Bytes.length_overwrite]

theorem Writer.extent_writeSlice {w v : Writer} {data : Bytes} {offset len : UInt64}
    (h : w.writeSlice data offset len = .ok v) : v.extent = w.extent := by
  unfold writeSlice at h
  split at h
  · exact extent_write h
  · cases h

/-! ## The two tables -/

namespace Store

variable (s : Store)

/-- The bytes of all reserved buffers. -/
def reservedExtent : Nat := s.reserved.total Buffer.extent

/-- The bytes of all published files. -/
def committedExtent : Nat := s.committed.total Buffer.extent

/-- The bytes of the file under `key`, zero if there is none. -/
def fileExtent (key : Key) : Nat := s.committed.part Buffer.extent key

/-- The bytes reserved for a file and for its companion, zero where nothing is reserved. -/
def pairExtent (key : Key) : Nat := s.reserved.part Buffer.extent key + s.reserved.part Buffer.extent key.companion

/-- A granted reservation replaces what was reserved under its two keys. -/
theorem reservedExtent_granted {size : UInt64} {data sums : Buffer} (hdata : Buffer.allocate size = .ok data)
    (hsums : Buffer.allocate (s.granularity.companionSize size) = .ok sums) (key : Key) :
    (s.granted key size data sums).reservedExtent + s.pairExtent key =
      s.reservedExtent + s.granularity.footprint size := by
  have hinner := Table.total_insert Buffer.extent s.reserved key.companion sums
  have houter := Table.total_insert Buffer.extent (s.reserved.insert key.companion sums) key data
  have hpart : (s.reserved.insert key.companion sums).part Buffer.extent key = s.reserved.part Buffer.extent key :=
    Table.part_congr (Table.get?_insert_of_ne _ _ key.companion_ne.symm)
  rw [hpart, Buffer.extent_of_allocate hdata] at houter
  rw [Buffer.extent_of_allocate hsums] at hinner
  rw [reservedExtent, reservedExtent, pairExtent, reserved_granted, Granularity.footprint]
  omega

/-- Storing a file uses up what was reserved under its two keys. -/
theorem reservedExtent_stored (key : Key) (data : Bytes) (file sums : Buffer) :
    (s.stored key data file sums).reservedExtent + s.pairExtent key = s.reservedExtent := by
  have hinner := Table.total_erase Buffer.extent s.reserved key
  have houter := Table.total_erase Buffer.extent (s.reserved.erase key) key.companion
  have hpart : (s.reserved.erase key).part Buffer.extent key.companion =
      s.reserved.part Buffer.extent key.companion :=
    Table.part_congr (Table.get?_erase_of_ne _ key.companion_ne)
  rw [hpart] at houter
  rw [reservedExtent, reservedExtent, pairExtent, reserved_stored]
  omega

/-- Storing a new file replaces a file under its companion key. -/
theorem committedExtent_stored {key : Key} (hnew : s.committed.get? key = none) (data : Bytes) (file sums : Buffer) :
    (s.stored key data file sums).committedExtent + s.fileExtent key.companion =
      s.committedExtent + (file.extent + sums.extent) := by
  have hinner := Table.total_insert Buffer.extent s.committed key file
  have houter := Table.total_insert Buffer.extent (s.committed.insert key file) key.companion sums
  have hpart : (s.committed.insert key file).part Buffer.extent key.companion = s.fileExtent key.companion :=
    Table.part_congr (Table.get?_insert_of_ne _ _ key.companion_ne)
  rw [Table.part_of_get?_eq_none hnew] at hinner
  rw [hpart] at houter
  rw [committedExtent, committedExtent, committed_stored]
  omega

end Store

/-! ## Sessions -/

namespace Session

variable (s : Session)

/-- The bytes of all writers. -/
def writersExtent : Nat := s.writers.total Writer.extent

/-- The bytes of the writer under `name`, zero if there is none. -/
def writerExtent (name : String) : Nat := s.writers.part Writer.extent name

/-- The bytes of all buffers that the store or a writer holds. -/
def held : Nat := s.store.reservedExtent + s.store.committedExtent + s.writersExtent

end Session
end BoundedStore
