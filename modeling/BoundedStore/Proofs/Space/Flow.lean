import BoundedStore.Proofs.Reading.Copying
import BoundedStore.Proofs.Space.Held

/-!
# What a step does to the space

Space enters when a reservation is granted, is given back when a file is deleted, and is lost when a buffer is replaced
or given up while it still counts as used.

* `Session.claimed`, `Session.released`, `Session.leak` : the three amounts for one step;
* `Session.Flow` : how the bytes in use and the bytes held follow these amounts;
* `flow_step` : every step is such a flow.
-/

namespace BoundedStore.Session

/-! ## The three amounts -/

/-- The bytes that a step claims: those of a reservation that is granted, alone or as a part of `put`. -/
def claimed (s : Session) : Action → Nat
  | .store (.reserve path size) =>
    match (s.store.reserve path size).1 with
    | true => s.store.granularity.footprint size
    | false => 0
  | .store (.put path data) =>
    match (s.store.put path data).1 with
    | .ok true => s.store.granularity.footprint (Bytes.size data)
    | _ => 0
  | _ => 0

/-- The bytes that a step gives back: those of a file that is deleted. -/
def released (s : Session) : Action → Nat
  | .store (.delete path) => s.store.fileExtent (Key.ofPath path)
  | _ => 0

/-- The bytes that an action on the store loses. -/
def storeLeak (s : Session) : StoreAction → Nat
  /- what was reserved under the same two keys -/
  | .reserve path size =>
    match (s.store.reserve path size).1 with
    | true => s.store.pairExtent (Key.ofPath path)
    | false => 0
  /- the writer that had the name of the new one -/
  | .create path overwrite name =>
    match (s.store.create path overwrite).1 with
    | .ok _ => s.writerExtent name
    | .error _ => 0
  /- the file at another destination -/
  | .rename source destination =>
    match s.store.committed.get? (Key.ofPath source) with
    | some _ => if Key.ofPath source = Key.ofPath destination then 0 else s.store.fileExtent (Key.ofPath destination)
    | none => 0
  /- what was reserved under the same two keys, and the companion that is replaced -/
  | .put path data =>
    match (s.store.put path data).1 with
    | .ok true => s.store.pairExtent (Key.ofPath path) + s.store.fileExtent (Key.ofPath path).companion
    | _ => 0
  | .close => if s.store.closed then 0 else s.store.reservedExtent + s.store.committedExtent
  | _ => 0

/-- The bytes that an action on the writer `w` loses. -/
def writerLeak (s : Session) (w : Writer) : WriterAction → Nat
  /- the file that is replaced, or the writer itself if the store is closed -/
  | .close => if s.store.closed then w.extent else s.store.fileExtent w.key
  | .drop => w.extent
  | _ => 0

/-- The bytes that a step loses: they stay in use, and no buffer holds them any more. -/
def leak (s : Session) : Action → Nat
  | .store action => s.storeLeak action
  | .writer name action =>
    match s.writers.get? name with
    | some w => s.writerLeak w action
    | none => 0
  | .reader .. => 0
  | .copy .. => 0

/-! ## Flows -/

/-- From `s` to `t` so many bytes were claimed, given back and lost, and what was claimed had room. -/
structure Flow (s : Session) (claimed released lost : Nat) (t : Session) : Prop where
  held : t.held + lost + released = s.held + claimed
  used : t.store.used.toNat = s.store.used.toNat + claimed - released
  room : claimed = 0 ∨ s.store.used.toNat + claimed < s.store.capacity.toNat
  capacity : t.store.capacity = s.store.capacity

/-- Without a change of the ledger bytes can only be lost. -/
theorem Flow.of_ledger {s t : Session} {lost : Nat} (hledger : t.store.ledger = s.store.ledger)
    (hheld : t.held + lost = s.held) : s.Flow 0 0 lost t where
  held := by rw [hheld]
  used := by rw [Store.used, hledger, Nat.add_zero, Nat.sub_zero, Store.used]
  room := Or.inl rfl
  capacity := by rw [Store.capacity, hledger, Store.capacity]

/-- Nothing flows while the store and the bytes of the writers are the same. -/
theorem Flow.still {s t : Session} (hstore : t.store = s.store) (hwriters : t.writersExtent = s.writersExtent) :
    s.Flow 0 0 0 t :=
  Flow.of_ledger (by rw [hstore]) (by rw [Session.held, Session.held, hstore, hwriters, Nat.add_zero])

/-- A claim that has room is in use from then on. -/
theorem Flow.of_claim {s : Session} {store : Store} {claimed lost : Nat}
    (hroom : s.store.used.toNat + claimed < s.store.capacity.toNat) (hcapacity : store.capacity = s.store.capacity)
    (hused : store.used.toNat = s.store.used.toNat + claimed)
    (hheld : store.reservedExtent + store.committedExtent + lost =
      s.store.reservedExtent + s.store.committedExtent + claimed) :
    s.Flow claimed 0 lost { s with store := store } where
  held := by
    simp only [Session.held, writersExtent]
    omega
  used := by rw [hused, Nat.sub_zero]
  room := Or.inr hroom
  capacity := hcapacity

/-- What is given back leaves both the ledger and the tables. -/
theorem Flow.of_release {s : Session} {store : Store} {released : Nat} (hcapacity : store.capacity = s.store.capacity)
    (hused : store.used.toNat = s.store.used.toNat - released)
    (hheld : store.reservedExtent + store.committedExtent + released =
      s.store.reservedExtent + s.store.committedExtent) :
    s.Flow 0 released 0 { s with store := store } where
  held := by
    simp only [Session.held, writersExtent]
    omega
  used := by rw [hused, Nat.add_zero]
  room := Or.inl rfl
  capacity := hcapacity

variable (s : Session)

/-! ## Actions on the store -/

theorem flow_reserve (path : String) (size : UInt64) :
    s.Flow (s.claimed (.store (.reserve path size))) 0 (s.storeLeak (.reserve path size))
      (s.storeStep (.reserve path size)).2 := by
  rcases s.store.reserve_cases path size with h | ⟨data, sums, hdata, hsums, -, hfits, h⟩
  · simp only [claimed, storeLeak, storeStep, h]
    exact Flow.still rfl rfl
  · have htable := s.store.reservedExtent_granted hdata hsums (Key.ofPath path)
    have hfiles : (s.store.granted (Key.ofPath path) size data sums).committedExtent = s.store.committedExtent := by
      rw [Store.committedExtent, Store.committed_granted, Store.committedExtent]
    simp only [claimed, storeLeak, storeStep, h]
    exact Flow.of_claim hfits (s.store.capacity_granted _ _ _ _) (s.store.used_granted hfits _ _ _) (by omega)

theorem flow_create (path : String) (overwrite : Bool) (name : String) :
    s.Flow 0 0 (s.storeLeak (.create path overwrite name)) (s.storeStep (.create path overwrite name)).2 := by
  rcases s.store.create_cases path overwrite with ⟨e, h⟩ | ⟨buffer, hbuffer, -, h⟩
  · simp only [storeLeak, storeStep, h]
    exact Flow.still rfl rfl
  · have htable := Table.total_erase Buffer.extent s.store.reserved (Key.ofPath path)
    have hwriters := Table.total_insert Writer.extent s.writers name (Writer.start (Key.ofPath path) buffer)
    have hsame : (Writer.start (Key.ofPath path) buffer).extent = buffer.extent := rfl
    rw [Table.part_of_get? hbuffer] at htable
    simp only [storeLeak, storeStep, h]
    refine Flow.of_ledger rfl ?_
    simp only [held, Store.reservedExtent, Store.committedExtent, writersExtent, writerExtent]
    omega

theorem flow_rename (source destination : String) :
    s.Flow 0 0 (s.storeLeak (.rename source destination)) (s.storeStep (.rename source destination)).2 := by
  rcases s.store.rename_cases source destination with ⟨hnone, h⟩ | ⟨buffer, hbuffer, h⟩
  · simp only [storeLeak, storeStep, h, hnone]
    exact Flow.still rfl rfl
  · have herase := Table.total_erase Buffer.extent s.store.committed (Key.ofPath source)
    have hinsert := Table.total_insert Buffer.extent (s.store.committed.erase (Key.ofPath source))
      (Key.ofPath destination) buffer
    rw [Table.part_of_get? hbuffer] at herase
    have hpart : (s.store.committed.erase (Key.ofPath source)).part Buffer.extent (Key.ofPath destination) =
        if Key.ofPath source = Key.ofPath destination then 0 else s.store.fileExtent (Key.ofPath destination) := by
      split
      · next heq => rw [heq, Table.part_of_get?_eq_none (Table.get?_erase_self _ _)]
      · next hne => exact Table.part_congr (Table.get?_erase_of_ne _ (Ne.symm hne))
    rw [hpart] at hinsert
    simp only [storeLeak, storeStep, h, hbuffer]
    refine Flow.of_ledger rfl ?_
    simp only [held, Store.reservedExtent, Store.committedExtent, writersExtent]
    omega

theorem flow_delete (path : String) :
    s.Flow 0 (s.released (.store (.delete path))) 0 (s.storeStep (.delete path)).2 := by
  rcases s.store.delete_cases path with ⟨hnone, h⟩ | ⟨buffer, hbuffer, h⟩
  · simp only [released, storeStep, h, Store.fileExtent, Table.part_of_get?_eq_none hnone]
    exact Flow.still rfl rfl
  · have htable := Table.total_erase Buffer.extent s.store.committed (Key.ofPath path)
    have hpart : s.store.committed.part Buffer.extent (Key.ofPath path) = buffer.extent := Table.part_of_get? hbuffer
    simp only [released, storeStep, h, Store.fileExtent]
    refine Flow.of_release rfl ?_ ?_
    · rw [hpart]
      exact Ledger.toNat_used_release _ _
    · simp only [Store.reservedExtent, Store.committedExtent]
      omega

theorem flow_put (path : String) (data : Bytes) :
    s.Flow (s.claimed (.store (.put path data))) 0 (s.storeLeak (.put path data)) (s.storeStep (.put path data)).2 := by
  rcases s.store.put_cases path data with ⟨-, h⟩ | ⟨-, -, h⟩ |
    ⟨file, sums, hnew, -, -, hfits, hfile, -, hcapacity, h⟩
  · simp only [claimed, storeLeak, storeStep, h]
    exact Flow.still rfl rfl
  · simp only [claimed, storeLeak, storeStep, h]
    exact Flow.still rfl rfl
  · have hnone : s.store.committed.get? (Key.ofPath path) = none := Table.contains_eq_false_iff.1 hnew
    have hreserved := s.store.reservedExtent_stored (Key.ofPath path) data file sums
    have hcommitted := s.store.committedExtent_stored hnone data file sums
    have hextents : file.extent + sums.extent = s.store.granularity.footprint (Bytes.size data) := by
      rw [Buffer.extent, Buffer.extent, Buffer.capacity, hfile, hcapacity, Granularity.footprint]
    simp only [claimed, storeLeak, storeStep, h]
    exact Flow.of_claim hfits (s.store.capacity_stored _ _ _ _) (s.store.used_stored _ _ _ _ hfits) (by omega)

theorem flow_close : s.Flow 0 0 (s.storeLeak .close) (s.storeStep .close).2 := by
  cases hclosed : s.store.closed with
  | true =>
    simp only [storeLeak, storeStep, Store.close, hclosed, if_true]
    exact Flow.still rfl rfl
  | false =>
    simp only [storeLeak, storeStep, Store.close, hclosed, Bool.false_eq_true, if_false]
    refine Flow.of_ledger rfl ?_
    simp only [held, Store.reservedExtent, Store.committedExtent, writersExtent, Table.total_empty]
    omega

theorem flow_storeStep (action : StoreAction) :
    s.Flow (s.claimed (.store action)) (s.released (.store action)) (s.storeLeak action) (s.storeStep action).2 := by
  cases action with
  | reserve path size => exact s.flow_reserve path size
  | create path overwrite name => exact s.flow_create path overwrite name
  | rename source destination => exact s.flow_rename source destination
  | delete path => exact s.flow_delete path
  | put path data => exact s.flow_put path data
  | close => exact s.flow_close
  | openFile path name =>
    simp only [storeStep]
    split <;> exact Flow.still rfl rfl
  | length path =>
    simp only [storeStep]
    split <;> exact Flow.still rfl rfl
  | readAll path =>
    simp only [storeStep]
    split <;> exact Flow.still rfl rfl
  | hints path start len =>
    simp only [storeStep]
    split <;> exact Flow.still rfl rfl
  | isCommitted | isReserved | verify | list | companionSize | share | inspect => exact Flow.still rfl rfl

/-! ## Actions on writers and readers -/

/-- A writer takes the place of an earlier state of itself. -/
theorem writersExtent_insert {name : String} {w v : Writer} (hw : s.writers.get? name = some w)
    (hv : v.extent = w.extent) : (s.writers.insert name v).total Writer.extent = s.writersExtent := by
  have h := Table.total_insert Writer.extent s.writers name v
  rw [Table.part_of_get? hw, hv] at h
  rw [writersExtent]
  omega

theorem flow_keepWriter {name : String} {w : Writer} (hw : s.writers.get? name = some w)
    {outcome : Except StoreError Writer} (houtcome : ∀ v, outcome = .ok v → v.extent = w.extent) (success : Answer)
    (failure : StoreError → Answer) : s.Flow 0 0 0 (s.keepWriter name w outcome success failure).2 := by
  cases outcome with
  | ok v => exact Flow.still rfl (s.writersExtent_insert hw (houtcome v rfl))
  | error e => exact Flow.still rfl rfl

theorem flow_writerStep {name : String} {w : Writer} (hw : s.writers.get? name = some w) (action : WriterAction) :
    s.Flow 0 0 (s.writerLeak w action) (s.writerStep name w action).2 := by
  have hwriters := Table.total_erase Writer.extent s.writers name
  rw [Table.part_of_get? hw] at hwriters
  cases action with
  | write data => exact s.flow_keepWriter hw (fun _ h => Writer.extent_write h) _ _
  | writeSlice data offset len => exact s.flow_keepWriter hw (fun _ h => Writer.extent_writeSlice h) _ _
  | writeByte byte => exact s.flow_keepWriter hw (fun _ h => Writer.extent_write h) _ _
  | send data => exact s.flow_keepWriter hw (fun _ h => Writer.extent_write h) _ _
  | sendAll data => exact s.flow_keepWriter hw (fun _ h => Writer.extent_write h) _ _
  | inspect => exact Flow.still rfl rfl
  | close =>
    cases hclosed : s.store.closed with
    | true =>
      simp only [writerLeak, writerStep, hclosed, if_true, Store.commit_of_closed _ hclosed]
      refine Flow.of_ledger rfl ?_
      simp only [held, writersExtent]
      omega
    | false =>
      have htable := Table.total_insert Buffer.extent s.store.committed w.key w.buffer
      have hsame : w.buffer.extent = w.extent := rfl
      simp only [writerLeak, writerStep, hclosed, Bool.false_eq_true, if_false, Store.commit_of_open _ hclosed]
      refine Flow.of_ledger rfl ?_
      simp only [held, Store.reservedExtent, Store.committedExtent, Store.fileExtent, writersExtent]
      omega
  | drop =>
    refine Flow.of_ledger rfl ?_
    simp only [held, writersExtent, writerStep, writerLeak]
    omega

/-- Readers neither reach the store nor a writer. -/
theorem readerStep_frame (name : String) (r : Reader) (action : ReaderAction) :
    (s.readerStep name r action).2.store = s.store ∧ (s.readerStep name r action).2.writers = s.writers := by
  cases action with
  | readByte | readInto | seek | read | readExact | seekFrom =>
    simp only [readerStep]
    constructor <;> split <;> rfl
  | skip | readToEnd | inspect | duplicate => exact ⟨rfl, rfl⟩

theorem flow_copyStep {writer : String} {w : Writer} (hw : s.writers.get? writer = some w) (reader : String)
    (r : Reader) : s.Flow 0 0 0 (s.copyStep reader r writer w).2 := by
  have hextent := Writer.extent_write (r.write_sent w)
  exact Flow.still rfl (s.writersExtent_insert hw hextent)

/-- **Every step is a flow of the bytes that it claims, gives back and loses.** -/
theorem flow_step (action : Action) :
    s.Flow (s.claimed action) (s.released action) (s.leak action) (s.step action).2 := by
  cases action with
  | store action => exact s.flow_storeStep action
  | writer name action =>
    cases hw : s.writers.get? name with
    | some w =>
      simp only [claimed, released, leak, step, hw]
      exact s.flow_writerStep hw action
    | none =>
      simp only [claimed, released, leak, step, hw]
      exact Flow.still rfl rfl
  | reader name action =>
    cases hr : s.readers.get? name with
    | some r =>
      simp only [claimed, released, leak, step, hr]
      obtain ⟨hstore, hwriters⟩ := s.readerStep_frame name r action
      exact Flow.still hstore (congrArg (Table.total Writer.extent) hwriters)
    | none =>
      simp only [claimed, released, leak, step, hr]
      exact Flow.still rfl rfl
  | copy reader writer =>
    cases hr : s.readers.get? reader with
    | none =>
      simp only [claimed, released, leak, step, hr]
      exact Flow.still rfl rfl
    | some r =>
      cases hw : s.writers.get? writer with
      | none =>
        simp only [claimed, released, leak, step, hr, hw]
        exact Flow.still rfl rfl
      | some w =>
        simp only [claimed, released, leak, step, hr, hw]
        exact s.flow_copyStep hw reader r

end BoundedStore.Session
