import BoundedStore.Proofs.Reading.Cursor
import BoundedStore.Store.WholeFile

/-!
# What an operation on the store can do

Each lemma gives the possible outcomes of one operation, with the state that it leaves and all it has checked. Proofs
about operations go through these lemmas and do not open the definitions.

* `Granularity.footprint` : what a file takes together with its companion, as an unbounded number;
* `build_eq_ok_iff` : what a new store is;
* `reserve_cases`, `create_cases`, `rename_cases`, `delete_cases` : the outcomes;
* `reserve_of_room`, `create_of_reserved`, `commit_of_open` : what suffices for space to be granted, for a writer to be
  made and to be published; `create_eq_ok_iff` : what is necessary as well;
* `rename_of_get?`, `delete_of_get?` : what a published file is enough for;
* `openFile_eq_ok_iff`, `readAll_eq_ok_iff` : when a file can be opened and read, and what is read.
-/

namespace BoundedStore

/-- The bytes of a file of `size` bytes and of its companion. -/
def Granularity.footprint (g : Granularity) (size : UInt64) : Nat := size.toNat + (g.companionSize size).toNat

namespace Store

variable (s : Store)

/-! ## New stores -/

/-- A new store is open, empty and has nothing in use. -/
theorem build_eq_ok_iff {address : Address} {capacity : UInt64} {granularity : UInt32} {store : Store} :
    build address capacity granularity = .ok store ↔
      ∃ g, Granularity.ofWord? granularity = some g ∧
        store = ⟨address, g, Ledger.empty capacity, Table.empty, Table.empty, false⟩ := by
  unfold build
  split
  · next hnone => simp [hnone]
  · next g hg =>
    simp only [hg, Except.ok.injEq, Option.some.injEq, exists_eq_left']
    exact eq_comm

section New

variable {address : Address} {capacity : UInt64} {granularity : UInt32} {store : Store}

theorem used_of_build (h : build address capacity granularity = .ok store) : store.used = 0 := by
  obtain ⟨g, -, rfl⟩ := build_eq_ok_iff.1 h
  rfl

theorem capacity_of_build (h : build address capacity granularity = .ok store) : store.capacity = capacity := by
  obtain ⟨g, -, rfl⟩ := build_eq_ok_iff.1 h
  rfl

theorem granularity_of_build (h : build address capacity granularity = .ok store) :
    store.granularity.bytes = granularity := by
  obtain ⟨g, hg, rfl⟩ := build_eq_ok_iff.1 h
  exact Granularity.bytes_of_ofWord? hg

end New

theorem build_of_ofConfig {config : Config} {store : Store} (h : ofConfig config = .ok store) :
    ∃ address, build address config.capacityBytes config.bytesPerChecksum = .ok store := by
  unfold ofConfig at h
  split at h
  · cases h
  · next address _ => exact ⟨address, h⟩

/-- The configuration that stands for one that is not given is a good one. -/
theorem ofConfig_default : ofConfig Config.default =
    .ok ⟨Address.default, ⟨512, by decide⟩, Ledger.empty 104857600, Table.empty, Table.empty, false⟩ :=
  rfl

/-! ## Reservations -/

/-- The store after `size` bytes are granted for `key`, in the buffer `data`, and the rest for its companion. -/
def granted (key : Key) (size : UInt64) (data sums : Buffer) : Store :=
  { s with
    ledger := s.ledger.claim (size + s.granularity.companionSize size)
    reserved := (s.reserved.insert key.companion sums).insert key data }

@[simp] theorem granularity_granted (key : Key) (size : UInt64) (data sums : Buffer) :
    (s.granted key size data sums).granularity = s.granularity := by
  simp only [granted]

@[simp] theorem ledger_granted (key : Key) (size : UInt64) (data sums : Buffer) :
    (s.granted key size data sums).ledger = s.ledger.claim (size + s.granularity.companionSize size) := by
  simp only [granted]

@[simp] theorem committed_granted (key : Key) (size : UInt64) (data sums : Buffer) :
    (s.granted key size data sums).committed = s.committed := by
  simp only [granted]

@[simp] theorem reserved_granted (key : Key) (size : UInt64) (data sums : Buffer) :
    (s.granted key size data sums).reserved = (s.reserved.insert key.companion sums).insert key data := by
  simp only [granted]

/-- Under its two keys a reservation lies over whatever was reserved before. -/
theorem get?_reserved_granted (key : Key) (size : UInt64) (data sums : Buffer) (k : Key) :
    (s.granted key size data sums).reserved.get? k =
      if k = key then some data else if k = key.companion then some sums else s.reserved.get? k := by
  rw [reserved_granted, Table.get?_insert, Table.get?_insert]

@[simp] theorem closed_granted (key : Key) (size : UInt64) (data sums : Buffer) :
    (s.granted key size data sums).closed = s.closed := by
  simp only [granted]

theorem used_granted {size : UInt64} (h : s.used.toNat + s.granularity.footprint size < s.capacity.toNat) (key : Key)
    (data sums : Buffer) :
    (s.granted key size data sums).used.toNat = s.used.toNat + s.granularity.footprint size := by
  have hcapacity := Word.toNat_lt s.capacity
  unfold Granularity.footprint at h ⊢
  have hsum : (size + s.granularity.companionSize size).toNat =
      size.toNat + (s.granularity.companionSize size).toNat := by
    rw [UInt64.toNat_add, Nat.mod_eq_of_lt (by omega)]
  have hfits : s.ledger.fits (size + s.granularity.companionSize size) = true := by
    rw [Ledger.fits_iff, hsum]
    exact h
  rw [← hsum]
  exact Ledger.toNat_used_claim hfits

@[simp] theorem capacity_granted (key : Key) (size : UInt64) (data sums : Buffer) :
    (s.granted key size data sums).capacity = s.capacity := by
  simp only [granted, capacity, Ledger.capacity_claim]

/-- A reservation is refused and changes nothing, or it is granted: then the store is open, both buffers exist, and
what is claimed fits into the capacity without overflow. -/
theorem reserve_cases (path : String) (size : UInt64) :
    s.reserve path size = (false, s) ∨
      ∃ data sums, Buffer.allocate size = .ok data ∧ Buffer.allocate (s.granularity.companionSize size) = .ok sums ∧
        s.closed = false ∧ s.used.toNat + s.granularity.footprint size < s.capacity.toNat ∧
        s.reserve path size = (true, s.granted (Key.ofPath path) size data sums) := by
  unfold reserve
  simp only
  split
  · exact Or.inl rfl
  · next total htotal =>
    rw [Word.add?_eq_some_iff] at htotal
    split
    · exact Or.inl rfl
    · next hopen =>
      split
      · next hfits =>
        rw [Ledger.fits_iff, ← htotal] at hfits
        split
        · exact Or.inl rfl
        · next data hdata =>
          split
          · exact Or.inl rfl
          · next sums hsums =>
            have hsum : total = size + s.granularity.companionSize size := by
              have hlt := Word.toNat_lt total
              rw [← UInt64.toNat_inj, UInt64.toNat_add, Nat.mod_eq_of_lt (by omega), htotal]
            refine Or.inr ⟨data, sums, hdata, hsums, by simpa using hopen, hfits, ?_⟩
            rw [hsum, granted]
      · exact Or.inl rfl

/-- An open store with room grants a reservation for which there is memory. -/
theorem reserve_of_room (path : String) {size : UInt64} {data sums : Buffer} (hdata : Buffer.allocate size = .ok data)
    (hsums : Buffer.allocate (s.granularity.companionSize size) = .ok sums) (hopen : s.closed = false)
    (hfits : s.used.toNat + s.granularity.footprint size < s.capacity.toNat) :
    s.reserve path size = (true, s.granted (Key.ofPath path) size data sums) := by
  have hcapacity := Word.toNat_lt s.capacity
  unfold Granularity.footprint at hfits
  have hsum : (size + s.granularity.companionSize size).toNat =
      size.toNat + (s.granularity.companionSize size).toNat := by
    rw [UInt64.toNat_add, Nat.mod_eq_of_lt (by omega)]
  have hadd : Word.add? size (s.granularity.companionSize size) =
      some (size + s.granularity.companionSize size) := by
    rw [Word.add?_eq_some_iff, hsum]
  have hroom : s.ledger.fits (size + s.granularity.companionSize size) = true := by
    rw [Ledger.fits_iff, hsum]
    exact hfits
  simp only [reserve, hadd, hopen, hroom, hdata, hsums, Bool.false_eq_true, if_false, if_true, granted]

-- Its fields are known by the lemmas above; compared field by field with `s`, its ledger would be added up.
attribute [irreducible] granted

/-! ## Writers -/

/-- No writer is made and nothing changes, or the writer takes the buffer that is reserved for it. -/
theorem create_cases (path : String) (overwrite : Bool) :
    (∃ e, s.create path overwrite = (.error e, s)) ∨
      ∃ buffer, s.reserved.get? (Key.ofPath path) = some buffer ∧ s.closed = false ∧
        s.create path overwrite =
          (.ok (Writer.start (Key.ofPath path) buffer), { s with reserved := s.reserved.erase (Key.ofPath path) }) := by
  unfold create
  simp only
  split
  · exact Or.inl ⟨_, rfl⟩
  · split
    · exact Or.inl ⟨_, rfl⟩
    · next hopen =>
      split
      · next buffer hbuffer => exact Or.inr ⟨buffer, hbuffer, by simpa using hopen, rfl⟩
      · exact Or.inl ⟨_, rfl⟩

/-- A writer for a file that exists is made only to overwrite it. -/
theorem overwrite_of_create {path : String} {overwrite : Bool} {w : Writer}
    (h : (s.create path overwrite).1 = .ok w) (hexists : s.committed.contains (Key.ofPath path) = true) :
    overwrite = true := by
  cases overwrite with
  | true => rfl
  | false =>
    have hrefused : s.create path false = (.error (.alreadyExists (Key.ofPath path).text), s) := by
      simp [create, hexists]
    rw [hrefused] at h
    cases h

theorem contains_and_not_eq_false {key : Key} {overwrite : Bool}
    (hfree : s.committed.contains key = true → overwrite = true) : (s.committed.contains key && !overwrite) = false := by
  cases hexists : s.committed.contains key with
  | true =>
    rw [hfree hexists]
    rfl
  | false => rfl

theorem create_of_reserved {path : String} {overwrite : Bool} {buffer : Buffer}
    (hfree : s.committed.contains (Key.ofPath path) = true → overwrite = true) (hopen : s.closed = false)
    (h : s.reserved.get? (Key.ofPath path) = some buffer) :
    s.create path overwrite =
      (.ok (Writer.start (Key.ofPath path) buffer), { s with reserved := s.reserved.erase (Key.ofPath path) }) := by
  simp [create, s.contains_and_not_eq_false hfree, hopen, h]

theorem create_eq_ok_iff {path : String} {overwrite : Bool} {w : Writer} :
    (s.create path overwrite).1 = .ok w ↔ s.closed = false ∧ (s.isCommitted path = true → overwrite = true) ∧
      ∃ buffer, s.reserved.get? (Key.ofPath path) = some buffer ∧ w = Writer.start (Key.ofPath path) buffer := by
  constructor
  · intro h
    have hfree := s.overwrite_of_create h
    rcases s.create_cases path overwrite with ⟨e, hrefused⟩ | ⟨buffer, hbuffer, hopen, hmade⟩
    · rw [hrefused] at h
      cases h
    · rw [hmade] at h
      cases h
      exact ⟨hopen, hfree, buffer, hbuffer, rfl⟩
  · rintro ⟨hopen, hfree, buffer, hbuffer, rfl⟩
    rw [s.create_of_reserved hfree hopen hbuffer]

theorem commit_of_open (hopen : s.closed = false) (w : Writer) :
    s.commit w = (.ok (), { s with committed := s.committed.insert w.key w.buffer }) := by
  simp [commit, hopen]

theorem commit_of_closed (hclosed : s.closed = true) (w : Writer) : s.commit w = (.error .closed, s) := by
  simp [commit, hclosed]

/-! ## Closing -/

@[simp] theorem closed_close : s.close.closed = true := by
  unfold close
  split
  · next h => exact h
  · rfl

/-- Closing publishes nothing. -/
theorem get?_close_eq_none {key : Key} (h : s.committed.get? key = none) : s.close.committed.get? key = none := by
  unfold close
  split
  · exact h
  · rfl

/-! ## Published files -/

theorem rename_of_get? {source : String} {buffer : Buffer} (h : s.committed.get? (Key.ofPath source) = some buffer)
    (destination : String) :
    s.rename source destination = (true, { s with
      committed := (s.committed.erase (Key.ofPath source)).insert (Key.ofPath destination) buffer }) := by
  simp [rename, h]

theorem rename_cases (source destination : String) :
    (s.committed.get? (Key.ofPath source) = none ∧ s.rename source destination = (false, s)) ∨
      ∃ buffer, s.committed.get? (Key.ofPath source) = some buffer ∧
        s.rename source destination = (true, { s with
          committed := (s.committed.erase (Key.ofPath source)).insert (Key.ofPath destination) buffer }) := by
  cases h : s.committed.get? (Key.ofPath source) with
  | none => exact Or.inl ⟨rfl, by simp [rename, h]⟩
  | some buffer => exact Or.inr ⟨buffer, rfl, s.rename_of_get? h destination⟩

theorem delete_of_get? {path : String} {buffer : Buffer} (h : s.committed.get? (Key.ofPath path) = some buffer) :
    s.delete path = (true, { s with
      ledger := s.ledger.release buffer.capacity
      committed := s.committed.erase (Key.ofPath path) }) := by
  simp [delete, h]

theorem delete_cases (path : String) :
    (s.committed.get? (Key.ofPath path) = none ∧ s.delete path = (false, s)) ∨
      ∃ buffer, s.committed.get? (Key.ofPath path) = some buffer ∧
        s.delete path = (true, { s with
          ledger := s.ledger.release buffer.capacity
          committed := s.committed.erase (Key.ofPath path) }) := by
  cases h : s.committed.get? (Key.ofPath path) with
  | none => exact Or.inl ⟨rfl, by simp [delete, h]⟩
  | some buffer => exact Or.inr ⟨buffer, rfl, s.delete_of_get? h⟩

/-! ## Reading -/

theorem openFile_of_get? {path : String} {buffer : Buffer} (hopen : s.closed = false)
    (h : s.committed.get? (Key.ofPath path) = some buffer) :
    s.openFile path = .ok (Reader.start (Key.ofPath path) buffer) := by
  simp [openFile, hopen, h]

theorem openFile_eq_ok_iff {path : String} {r : Reader} :
    s.openFile path = .ok r ↔ s.closed = false ∧
      ∃ buffer, s.committed.get? (Key.ofPath path) = some buffer ∧ r = Reader.start (Key.ofPath path) buffer := by
  constructor
  · intro h
    unfold openFile at h
    split at h
    · cases h
    · next hopen =>
      split at h
      · next buffer hbuffer =>
        cases h
        exact ⟨by simpa using hopen, buffer, hbuffer, rfl⟩
      · cases h
  · rintro ⟨hopen, buffer, hbuffer, rfl⟩
    exact s.openFile_of_get? hopen hbuffer

theorem readAll_of_get? {path : String} {buffer : Buffer} (hopen : s.closed = false)
    (h : s.committed.get? (Key.ofPath path) = some buffer) : s.readAll path = .ok buffer.bytes := by
  rw [readAll, s.openFile_of_get? hopen h]
  exact (Reader.shows_start (Key.ofPath path) buffer).readWhole

theorem readAll_eq_ok_iff {path : String} {content : Bytes} :
    s.readAll path = .ok content ↔
      s.closed = false ∧ ∃ buffer, s.committed.get? (Key.ofPath path) = some buffer ∧ content = buffer.bytes := by
  constructor
  · intro h
    cases hfile : s.openFile path with
    | error e =>
      rw [readAll, hfile] at h
      cases h
    | ok r =>
      obtain ⟨hopen, buffer, hbuffer, -⟩ := s.openFile_eq_ok_iff.1 hfile
      rw [s.readAll_of_get? hopen hbuffer] at h
      cases h
      exact ⟨hopen, buffer, hbuffer, rfl⟩
  · rintro ⟨hopen, buffer, hbuffer, rfl⟩
    exact s.readAll_of_get? hopen hbuffer

theorem verify_of_get? {path : String} {file sums : Buffer} (hopen : s.closed = false)
    (hfile : s.committed.get? (Key.ofPath path) = some file)
    (hsums : s.committed.get? (Key.ofPath path).companion = some sums) :
    s.verify path = Companion.verify path file.bytes sums.bytes := by
  rw [← ofPath_companionPath] at hsums
  rw [verify, s.readAll_of_get? hopen hfile]
  simp only [s.readAll_of_get? hopen hsums]

theorem length_of_get? {path : String} {buffer : Buffer} (h : s.committed.get? (Key.ofPath path) = some buffer) :
    s.length path = .ok buffer.capacity := by
  simp [length, h]

end Store
end BoundedStore
