import BoundedStore.Proofs.Checksum.Encoding
import BoundedStore.Proofs.Store.Outcome
import BoundedStore.Store.WholeFile

/-!
# Storing a whole file

`put` takes six steps, and only the first one, the reservation, can fail: what it reserves under the companion of the
key is found under the key of the companion path, each buffer is as long as what is written into it, and publishing
the file leaves the reservation of the companion alone.

* `fill_of_reserved` : a buffer of the right length is filled and published;
* `put_cases` : the three outcomes of `put`, with the state that each one leaves;
* `put_total_and_correct` : which outcome arises, and what the store shows of the file afterwards.
-/

namespace BoundedStore

theorem Table.erase_erase_insert_insert {κ α : Type} [Ord κ] [Std.TransOrd κ] [Std.LawfulEqOrd κ] (t : Table κ α)
    (k l : κ) (v w : α) : (((t.insert l w).insert k v).erase k).erase l = (t.erase k).erase l := by
  apply Table.ext_get?
  intro x
  by_cases hl : x = l
  · rw [hl, Table.get?_erase_self, Table.get?_erase_self]
  · rw [Table.get?_erase_of_ne _ hl, Table.get?_erase_of_ne _ hl]
    by_cases hk : x = k
    · rw [hk, Table.get?_erase_self, Table.get?_erase_self]
    · rw [Table.get?_erase_of_ne _ hk, Table.get?_erase_of_ne _ hk, Table.get?_insert_of_ne _ _ hk,
        Table.get?_insert_of_ne _ _ hl]

/-- Data as long as the buffer is written in one go, and becomes its content. -/
theorem Writer.write_start (key : Key) {buffer : Buffer} {data : Bytes} (h : data.length = buffer.bytes.length) :
    ∃ w, (start key buffer).write data = .ok w ∧ w.key = key ∧ w.buffer.bytes = data := by
  have hfits : (start key buffer).position.toNat + data.length ≤ (start key buffer).buffer.bytes.length := by
    show 0 + data.length ≤ buffer.bytes.length
    omega
  obtain ⟨w, hw, hwrote⟩ := exists_write_of_le hfits
  exact ⟨w, hw, hwrote.key, hwrote.bytes.trans (Bytes.overwrite_zero h)⟩

namespace Store

variable (s : Store)

/-- The store after a reserved buffer has been filled with the bytes of `file` and published. -/
def filled (key : Key) (file : Buffer) : Store :=
  { s with reserved := s.reserved.erase key, committed := s.committed.insert key file }

@[simp] theorem granularity_filled (key : Key) (file : Buffer) : (s.filled key file).granularity = s.granularity := by
  simp only [filled]

@[simp] theorem reserved_filled (key : Key) (file : Buffer) :
    (s.filled key file).reserved = s.reserved.erase key := by
  simp only [filled]

@[simp] theorem closed_filled (key : Key) (file : Buffer) : (s.filled key file).closed = s.closed := by
  simp only [filled]

theorem fill_of_reserved (path : String) (overwrite : Bool) {data : Bytes} {buffer : Buffer}
    (hfree : s.committed.contains (Key.ofPath path) = true → overwrite = true) (hopen : s.closed = false)
    (hreserved : s.reserved.get? (Key.ofPath path) = some buffer) (hlength : data.length = buffer.bytes.length) :
    ∃ file : Buffer, file.bytes = data ∧
      s.fill path overwrite data = (.ok (), s.filled (Key.ofPath path) file) := by
  obtain ⟨w, hwrite, hkey, hbytes⟩ := Writer.write_start (Key.ofPath path) hlength
  refine ⟨w.buffer, hbytes, ?_⟩
  rw [fill, s.create_of_reserved hfree hopen hreserved]
  simp only [hwrite, commit, hopen, hkey, Bool.false_eq_true, if_false, filled]

/-- The store after `data` has been put under `key`: the space is claimed, nothing is left reserved, and both files
are published. -/
def stored (key : Key) (data : Bytes) (file sums : Buffer) : Store :=
  { s with
    ledger := s.ledger.claim (Bytes.size data + s.granularity.companionSize (Bytes.size data))
    reserved := (s.reserved.erase key).erase key.companion
    committed := (s.committed.insert key file).insert key.companion sums }

theorem filled_filled_granted (key : Key) (data : Bytes) (zeros sumZeros file sums : Buffer) :
    ((s.granted key (Bytes.size data) zeros sumZeros).filled key file).filled key.companion sums =
      s.stored key data file sums := by
  simp only [filled, granted, stored, Table.erase_erase_insert_insert]

/-- Once the reservation is granted, the file and then its companion are filled and published. -/
theorem put_of_granted {path : String} {data : Bytes} {zeros sumZeros : Buffer}
    (hnew : s.isCommitted path = false) (hopen : s.closed = false)
    (hzeros : Buffer.allocate (Bytes.size data) = .ok zeros)
    (hsumZeros : Buffer.allocate (s.granularity.companionSize (Bytes.size data)) = .ok sumZeros)
    (hgrant : s.reserve path (Bytes.size data) =
      (true, s.granted (Key.ofPath path) (Bytes.size data) zeros sumZeros)) :
    ∃ file sums : Buffer, file.bytes = data ∧ sums.bytes = Companion.encode s.granularity data ∧
      sums.capacity = s.granularity.companionSize (Bytes.size data) ∧
      s.put path data = (.ok true, s.stored (Key.ofPath path) data file sums) := by
  have hzerosLength := Buffer.toNat_capacity_of_allocate hzeros
  have hsumsLength := Buffer.toNat_capacity_of_allocate hsumZeros
  have hzerosLt := zeros.length_lt
  have hsumsLt := sumZeros.length_lt
  rw [Buffer.toNat_capacity] at hzerosLength hsumsLength
  have hsize := Bytes.toNat_size_eq_min data
  have hdata : data.length = zeros.bytes.length := by omega
  have hencode : (Companion.encode s.granularity data).length = sumZeros.bytes.length := by
    rw [Companion.length_encode_eq_companionSize (by omega) (by omega), hsumsLength]
  have hne := Key.companion_ne (Key.ofPath path)
  -- the file itself
  have hfree : (s.granted (Key.ofPath path) (Bytes.size data) zeros sumZeros).committed.contains (Key.ofPath path) =
      true → false = true := by
    rw [committed_granted, show s.committed.contains (Key.ofPath path) = false from hnew]
    exact id
  have hreserved : (s.granted (Key.ofPath path) (Bytes.size data) zeros sumZeros).reserved.get? (Key.ofPath path) =
      some zeros := by
    rw [reserved_granted, Table.get?_insert_self]
  obtain ⟨file, hfile, hfill⟩ := fill_of_reserved _ path false hfree (by rw [closed_granted, hopen]) hreserved hdata
  -- its companion, whose buffer is reserved all the same
  have hreservedSums : ((s.granted (Key.ofPath path) (Bytes.size data) zeros sumZeros).filled (Key.ofPath path)
      file).reserved.get? (Key.ofPath (companionPath path)) = some sumZeros := by
    rw [reserved_filled, reserved_granted, ofPath_companionPath, Table.get?_erase_of_ne _ hne,
      Table.get?_insert_of_ne _ _ hne, Table.get?_insert_self]
  obtain ⟨sums, hsums, hfillSums⟩ := fill_of_reserved _ (companionPath path) true (fun _ => rfl)
    (by rw [closed_filled, closed_granted, hopen]) hreservedSums hencode
  rw [ofPath_companionPath, filled_filled_granted] at hfillSums
  have hcapacity : sums.capacity = s.granularity.companionSize (Bytes.size data) := by
    rw [← UInt64.toNat_inj, Buffer.toNat_capacity, hsums, hencode, hsumsLength]
  refine ⟨file, sums, hfile, hsums, hcapacity, ?_⟩
  simp only [put, hnew, hgrant, hfill, granularity_filled, granularity_granted, hfillSums, Bool.false_eq_true,
    if_false]

/-- **The outcomes of `put`.** The file exists, or there is no room, and nothing changes; or the file and its companion
are stored. -/
theorem put_cases (path : String) (data : Bytes) :
    (s.isCommitted path = true ∧ s.put path data = (.error (.alreadyExists path), s)) ∨
      (s.isCommitted path = false ∧ s.reserve path (Bytes.size data) = (false, s) ∧
        s.put path data = (.ok false, s)) ∨
      ∃ file sums : Buffer, s.isCommitted path = false ∧ (s.reserve path (Bytes.size data)).1 = true ∧
        s.closed = false ∧ s.used.toNat + s.granularity.footprint (Bytes.size data) < s.capacity.toNat ∧
        file.bytes = data ∧ sums.bytes = Companion.encode s.granularity data ∧
        sums.capacity = s.granularity.companionSize (Bytes.size data) ∧
        s.put path data = (.ok true, s.stored (Key.ofPath path) data file sums) := by
  cases hnew : s.isCommitted path with
  | true => exact Or.inl ⟨rfl, by simp [put, hnew]⟩
  | false =>
    right
    rcases s.reserve_cases path (Bytes.size data) with hrefused | ⟨zeros, sumZeros, hzeros, hsumZeros, hopen, hfits, hgrant⟩
    · exact Or.inl ⟨rfl, hrefused, by simp [put, hnew, hrefused]⟩
    · obtain ⟨file, sums, hfile, hsums, hcapacity, hput⟩ := s.put_of_granted hnew hopen hzeros hsumZeros hgrant
      exact Or.inr ⟨file, sums, rfl, by rw [hgrant], hopen, hfits, hfile, hsums, hcapacity, hput⟩

/-- The result of `put` says whether the file exists, and else whether its space is granted. -/
theorem fst_put (path : String) (data : Bytes) :
    (s.put path data).1 =
      if s.isCommitted path then .error (.alreadyExists path) else .ok (s.reserve path (Bytes.size data)).1 := by
  rcases s.put_cases path data with ⟨hexists, hput⟩ | ⟨hnew, hrefused, hput⟩ |
    ⟨file, sums, hnew, hgranted, -, -, -, -, -, hput⟩
  · rw [hput, hexists, if_pos rfl]
  · rw [hput, hnew, hrefused, if_neg (by decide)]
  · rw [hput, hnew, hgranted, if_neg (by decide)]

/-! ## What is seen of a stored file -/

section Stored

variable (key : Key) (data : Bytes) (file sums : Buffer)

@[simp] theorem granularity_stored : (s.stored key data file sums).granularity = s.granularity := by
  simp only [stored]

@[simp] theorem closed_stored : (s.stored key data file sums).closed = s.closed := by
  simp only [stored]

@[simp] theorem ledger_stored : (s.stored key data file sums).ledger =
    s.ledger.claim (Bytes.size data + s.granularity.companionSize (Bytes.size data)) := by
  simp only [stored]

@[simp] theorem reserved_stored :
    (s.stored key data file sums).reserved = (s.reserved.erase key).erase key.companion := by
  simp only [stored]

@[simp] theorem committed_stored :
    (s.stored key data file sums).committed = (s.committed.insert key file).insert key.companion sums := by
  simp only [stored]

theorem get?_stored_self : (s.stored key data file sums).committed.get? key = some file := by
  rw [committed_stored, Table.get?_insert_of_ne _ _ key.companion_ne.symm, Table.get?_insert_self]

theorem get?_stored_companion : (s.stored key data file sums).committed.get? key.companion = some sums := by
  rw [committed_stored, Table.get?_insert_self]

theorem get?_stored_of_ne {k : Key} (hkey : k ≠ key) (hcompanion : k ≠ key.companion) :
    (s.stored key data file sums).committed.get? k = s.committed.get? k := by
  rw [committed_stored, Table.get?_insert_of_ne _ _ hcompanion, Table.get?_insert_of_ne _ _ hkey]

theorem reserved_stored_self : (s.stored key data file sums).reserved.get? key = none := by
  rw [reserved_stored, Table.get?_erase_of_ne _ key.companion_ne.symm, Table.get?_erase_self]

theorem reserved_stored_companion : (s.stored key data file sums).reserved.get? key.companion = none := by
  rw [reserved_stored, Table.get?_erase_self]

theorem used_stored (h : s.used.toNat + s.granularity.footprint (Bytes.size data) < s.capacity.toNat) :
    (s.stored key data file sums).used.toNat = s.used.toNat + s.granularity.footprint (Bytes.size data) :=
  filled_filled_granted s key data file sums file sums ▸ s.used_granted h key file sums

@[simp] theorem capacity_stored : (s.stored key data file sums).capacity = s.capacity := by
  simp only [stored, capacity, Ledger.capacity_claim]

end Stored

attribute [irreducible] stored

/-- **`put` is total and correct.** It refuses exactly a file that exists and is out of room exactly when the
reservation would be refused; no other failure can come out of it. A file that it stores is read back with its
companion and verifies, its space is in use, and no reservation is left. Data too long for any buffer is refused like
any other that does not fit. -/
theorem put_total_and_correct (s : Store) (path : String) (data : Bytes) :
    ((s.put path data).1 = .error (.alreadyExists path) ↔ s.isCommitted path = true) ∧
      (s.isCommitted path = false →
        ((s.put path data).1 = .ok false ↔ (s.reserve path (Bytes.size data)).1 = false) ∧
        ((s.put path data).1 = .ok true ↔ (s.reserve path (Bytes.size data)).1 = true)) ∧
      ((s.put path data).1 = .ok true →
        (s.put path data).2.readAll path = .ok data ∧
        ((s.put path data).2.length path).map UInt64.toNat = .ok data.length ∧
        (s.put path data).2.readAll (companionPath path) = .ok (Companion.encode s.granularity data) ∧
        (s.put path data).2.verify path = .ok () ∧
        (s.put path data).2.used.toNat =
          s.used.toNat + data.length + (s.granularity.companionSize (Bytes.size data)).toNat ∧
        (s.put path data).2.isReserved path = false ∧
        (s.put path data).2.isReserved (companionPath path) = false) := by
  rcases s.put_cases path data with ⟨hexists, hput⟩ | ⟨hnew, hrefused, hput⟩ |
    ⟨file, sums, hnew, hgrant, hopen, hfits, hfile, hsums, -, hput⟩
  · rw [hput]
    refine ⟨by simp [hexists], ?_, ?_⟩
    · intro hnew
      rw [hexists] at hnew
      cases hnew
    · intro htrue
      cases htrue
  · rw [hput, hrefused]
    refine ⟨by simp [hnew], ?_, ?_⟩
    · intro _
      simp
    · intro htrue
      cases htrue
  · have hself := s.get?_stored_self (Key.ofPath path) data file sums
    have hcompanion := s.get?_stored_companion (Key.ofPath path) data file sums
    have hstill : (s.stored (Key.ofPath path) data file sums).closed = false := by rw [closed_stored, hopen]
    rw [hput, hgrant]
    refine ⟨by simp [hnew], fun _ => by simp, fun _ => ⟨?_, ?_, ?_, ?_, ?_, ?_, ?_⟩⟩
    · rw [readAll_of_get? _ hstill hself, hfile]
    · rw [length_of_get? _ hself, Except.map, Buffer.toNat_capacity, hfile]
    · rw [← ofPath_companionPath] at hcompanion
      rw [readAll_of_get? _ hstill hcompanion, hsums]
    · rw [verify_of_get? _ hstill hself hcompanion, hfile, hsums, Companion.verify_encode]
    · have hlength : (Bytes.size data).toNat = data.length := by
        have hlt := file.length_lt
        rw [hfile] at hlt
        exact Bytes.toNat_size (by omega)
      rw [used_stored _ _ _ _ _ hfits, Granularity.footprint, hlength, Nat.add_assoc]
    · exact Table.contains_eq_false_iff.2 (reserved_stored_self _ _ _ _ _)
    · rw [isReserved, ofPath_companionPath]
      exact Table.contains_eq_false_iff.2 (reserved_stored_companion _ _ _ _ _)

end Store
end BoundedStore
