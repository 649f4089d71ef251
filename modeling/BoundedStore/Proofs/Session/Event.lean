import BoundedStore.Proofs.Reading.Copying
import BoundedStore.Proofs.WholeFile.Put
import BoundedStore.Session.Step

/-!
# What a step achieves

A step that changes the store or a writer is an event. Properties of whole runs speak of the events along a run, and
their proofs go through `effect_step` instead of the single actions.

* `Event`, `Session.event?` : the event of a step, read off the action and its answer, and of a copy off what it sends;
* `Session.Causes` : the actions that an event may come of;
* `Session.trace` : the events along a list of actions, the earliest first;
* `Session.Effect` : what is checked before an event, and what it does to the store and to the writers;
* `effect_step` : every step has the effect of its event, and without an event neither store nor writers change;
* `closed_run_iff` : the store is closed after a run if the run, or an earlier one, has closed it.
-/

namespace BoundedStore

inductive Event where
  /-- Space for `size` bytes and for their companion. -/
  | granted (key : Key) (size : UInt64)
  | made (writer : String) (key : Key) (overwrite : Bool)
  | wrote (writer : String) (data : Bytes)
  | published (writer : String) (key : Key)
  /-- The writer was dropped, or closed after the store. -/
  | lost (writer : String)
  | moved (source destination : Key)
  | deleted (key : Key)
  /-- A file and its companion at once. -/
  | stored (key : Key) (data : Bytes)
  /-- The store was closed. -/
  | ended
  deriving DecidableEq

/-! ## Reading an event off an answer -/

/-- The bytes that a write is to append; of a slice, those in its range. -/
def WriterAction.payload? : WriterAction → Option Bytes
  | .write data | .send data | .sendAll data => some data
  | .writeSlice data offset len => some ((data.drop offset.toNat).take len.toNat)
  | .writeByte byte => some [byte]
  | .inspect | .close | .drop => none

/-- The range of a slice lies within it; other writes have no range. -/
def WriterAction.InBounds : WriterAction → Prop
  | .writeSlice data offset len =>
    offset.toNat + len.toNat ≤ data.length ∧ offset.toNat + len.toNat < 0x1_0000_0000_0000_0000
  | _ => True

/-- The answer to a write that succeeds. -/
def WriterAction.acceptance : WriterAction → Answer
  | .send data => .count (Bytes.size data)
  | _ => .done

/-- The answer to a write that fails. -/
def WriterAction.refusal : WriterAction → StoreError → Answer
  | .send _ | .sendAll _ => .streamFailed ∘ .store
  | _ => .failed

def Answer.isFailure : Answer → Bool
  | .failed _ | .streamFailed _ => true
  | _ => false

@[simp] theorem WriterAction.isFailure_acceptance (action : WriterAction) : action.acceptance.isFailure = false := by
  cases action <;> rfl

@[simp] theorem WriterAction.isFailure_refusal (action : WriterAction) (e : StoreError) :
    (action.refusal e).isFailure = true := by
  cases action <;> rfl

namespace Session

/-- The event of an action on the writer under `name`. -/
def writerEvent? (s : Session) (name : String) : WriterAction → Answer → Option Event
  | .close, .done => (s.writers.get? name).map fun w => .published name w.key
  | .close, .failed _ => some (.lost name)
  | .drop, .nothing => some (.lost name)
  | action, .ofWriter answer _ => if answer.isFailure then none else action.payload?.map (.wrote name)
  | _, _ => none

/-- The event of a copy from the reader under `reader` to the writer under `name`: it has written what it has sent,
however it ends. -/
def copyEvent? (s : Session) (reader name : String) : Option Event :=
  match s.readers.get? reader, s.writers.get? name with
  | some r, some w => some (.wrote name (r.copyTo w).sent)
  | _, _ => none

/-- The event of a step, unless the step leaves the store and the writers alone. -/
def event? (s : Session) (action : Action) : Option Event :=
  match action, (s.step action).1 with
  | .store (.reserve path size), .flag true => some (.granted (Key.ofPath path) size)
  | .store (.create path overwrite name), .writer _ => some (.made name (Key.ofPath path) overwrite)
  | .store (.rename source destination), .flag true => some (.moved (Key.ofPath source) (Key.ofPath destination))
  | .store (.delete path), .flag true => some (.deleted (Key.ofPath path))
  | .store (.put path data), .flag true => some (.stored (Key.ofPath path) data)
  | .store .close, _ => some .ended
  | .writer name action, answer => s.writerEvent? name action answer
  | .copy reader name, _ => s.copyEvent? reader name
  | _, _ => none

/-- What an action must be for an event to come of it. -/
inductive Causes (s : Session) : Action → Event → Prop
  | granted (path : String) (size : UInt64) : Causes s (.store (.reserve path size)) (.granted (Key.ofPath path) size)
  | made (path : String) (overwrite : Bool) (name : String) :
      Causes s (.store (.create path overwrite name)) (.made name (Key.ofPath path) overwrite)
  | moved (source destination : String) :
      Causes s (.store (.rename source destination)) (.moved (Key.ofPath source) (Key.ofPath destination))
  | deleted (path : String) : Causes s (.store (.delete path)) (.deleted (Key.ofPath path))
  | stored (path : String) (data : Bytes) : Causes s (.store (.put path data)) (.stored (Key.ofPath path) data)
  | ended : Causes s (.store .close) .ended
  | published {name : String} {w : Writer} (hw : s.writers.get? name = some w) :
      Causes s (.writer name .close) (.published name w.key)
  | closedLate (name : String) : Causes s (.writer name .close) (.lost name)
  | dropped (name : String) : Causes s (.writer name .drop) (.lost name)
  | wrote (name : String) {action : WriterAction} {data : Bytes} (hdata : action.payload? = some data) :
      Causes s (.writer name action) (.wrote name data)
  | copied {reader name : String} {r : Reader} {w : Writer} (hr : s.readers.get? reader = some r)
      (hw : s.writers.get? name = some w) : Causes s (.copy reader name) (.wrote name (r.copyTo w).sent)

theorem causes_writerEvent {s : Session} {name : String} {action : WriterAction} {answer : Answer} {e : Event}
    (h : s.writerEvent? name action answer = some e) : s.Causes (.writer name action) e := by
  unfold writerEvent? at h
  split at h
  · obtain ⟨w, hw, rfl⟩ := Option.map_eq_some_iff.1 h
    exact .published hw
  · cases h
    exact .closedLate name
  · cases h
    exact .dropped name
  · split at h
    · cases h
    · obtain ⟨data, hdata, rfl⟩ := Option.map_eq_some_iff.1 h
      exact .wrote name hdata
  · cases h

theorem causes_copyEvent {s : Session} {reader name : String} {e : Event} (h : s.copyEvent? reader name = some e) :
    s.Causes (.copy reader name) e := by
  unfold copyEvent? at h
  split at h
  · next r w hr hw =>
    cases h
    exact .copied hr hw
  · cases h

/-- Events come of nothing else. -/
theorem causes_of_event {s : Session} {action : Action} {e : Event} (h : s.event? action = some e) :
    s.Causes action e := by
  unfold event? at h
  split at h
  · cases h
    exact .granted _ _
  · cases h
    exact .made _ _ _
  · cases h
    exact .moved _ _
  · cases h
    exact .deleted _
  · cases h
    exact .stored _ _
  · cases h
    exact .ended
  · exact causes_writerEvent h
  · exact causes_copyEvent h
  · cases h

/-- The events along a list of actions. -/
def trace (s : Session) : List Action → List Event
  | [] => []
  | action :: actions => (s.event? action).toList ++ (s.step action).2.trace actions

theorem run_append (s : Session) (before after : List Action) : s.run (before ++ after) = (s.run before).run after :=
  List.foldl_append

theorem trace_append (s : Session) (before after : List Action) :
    s.trace (before ++ after) = s.trace before ++ (s.run before).trace after := by
  induction before generalizing s with
  | nil => rfl
  | cons action before ih =>
    rw [List.cons_append, trace, ih, trace, List.append_assoc]
    rfl

/-! ## Effects -/

/-- From `s` an event leads to `t`. Each case names what was checked, what the store became and what became of the
writers. -/
inductive Effect (s t : Session) : Option Event → Prop
  | still (hstore : t.store = s.store) (hwriters : t.writers = s.writers) : Effect s t none
  | granted {key : Key} {size : UInt64} {data sums : Buffer} (hdata : Buffer.allocate size = .ok data)
      (hsums : Buffer.allocate (s.store.granularity.companionSize size) = .ok sums)
      (hopen : s.store.closed = false)
      (hfits : s.store.used.toNat + s.store.granularity.footprint size < s.store.capacity.toNat)
      (hstore : t.store = s.store.granted key size data sums) (hwriters : t.writers = s.writers) :
      Effect s t (some (.granted key size))
  | made {name : String} {key : Key} {overwrite : Bool} {buffer : Buffer}
      (hbuffer : s.store.reserved.get? key = some buffer) (hopen : s.store.closed = false)
      (hfree : s.store.committed.contains key = true → overwrite = true)
      (hstore : t.store = { s.store with reserved := s.store.reserved.erase key })
      (hwriters : t.writers = s.writers.insert name (Writer.start key buffer)) :
      Effect s t (some (.made name key overwrite))
  | wrote {name : String} {data : Bytes} {w v : Writer} (hw : s.writers.get? name = some w)
      (hv : w.write data = .ok v) (hstore : t.store = s.store) (hwriters : t.writers = s.writers.insert name v) :
      Effect s t (some (.wrote name data))
  | published {name : String} {w : Writer} (hw : s.writers.get? name = some w) (hopen : s.store.closed = false)
      (hstore : t.store = { s.store with committed := s.store.committed.insert w.key w.buffer })
      (hwriters : t.writers = s.writers.erase name) : Effect s t (some (.published name w.key))
  | lost {name : String} {w : Writer} (hw : s.writers.get? name = some w) (hstore : t.store = s.store)
      (hwriters : t.writers = s.writers.erase name) : Effect s t (some (.lost name))
  | moved {source destination : Key} {buffer : Buffer} (hbuffer : s.store.committed.get? source = some buffer)
      (hstore : t.store =
        { s.store with committed := (s.store.committed.erase source).insert destination buffer })
      (hwriters : t.writers = s.writers) : Effect s t (some (.moved source destination))
  | deleted {key : Key} {buffer : Buffer} (hbuffer : s.store.committed.get? key = some buffer)
      (hstore : t.store =
        { s.store with
          ledger := s.store.ledger.release buffer.capacity
          committed := s.store.committed.erase key })
      (hwriters : t.writers = s.writers) : Effect s t (some (.deleted key))
  | stored {key : Key} {data : Bytes} {file sums : Buffer} (hnew : s.store.committed.get? key = none)
      (hopen : s.store.closed = false)
      (hfits : s.store.used.toNat + s.store.granularity.footprint (Bytes.size data) < s.store.capacity.toNat)
      (hfile : file.bytes = data) (hsums : sums.bytes = Companion.encode s.store.granularity data)
      (hstore : t.store = s.store.stored key data file sums) (hwriters : t.writers = s.writers) :
      Effect s t (some (.stored key data))
  | ended (hstore : t.store = s.store.close) (hwriters : t.writers = s.writers) : Effect s t (some .ended)

variable (s : Session)

/-! ## Steps have the effects of their events -/

theorem effect_storeStep (action : StoreAction) :
    s.Effect (s.storeStep action).2 (s.event? (.store action)) := by
  cases action with
  | reserve path size =>
    rcases s.store.reserve_cases path size with h | ⟨data, sums, hdata, hsums, hopen, hfits, h⟩
    · simp only [event?, step, storeStep, h]
      exact .still rfl rfl
    · simp only [event?, step, storeStep, h]
      exact .granted hdata hsums hopen hfits rfl rfl
  | create path overwrite name =>
    rcases s.store.create_cases path overwrite with ⟨e, h⟩ | ⟨buffer, hbuffer, hopen, h⟩
    · simp only [event?, step, storeStep, h]
      exact .still rfl rfl
    · simp only [event?, step, storeStep, h]
      exact .made hbuffer hopen (s.store.overwrite_of_create (by rw [h])) rfl rfl
  | rename source destination =>
    rcases s.store.rename_cases source destination with ⟨-, h⟩ | ⟨buffer, hbuffer, h⟩
    · simp only [event?, step, storeStep, h]
      exact .still rfl rfl
    · simp only [event?, step, storeStep, h]
      exact .moved hbuffer rfl rfl
  | delete path =>
    rcases s.store.delete_cases path with ⟨-, h⟩ | ⟨buffer, hbuffer, h⟩
    · simp only [event?, step, storeStep, h]
      exact .still rfl rfl
    · simp only [event?, step, storeStep, h]
      exact .deleted hbuffer rfl rfl
  | put path data =>
    rcases s.store.put_cases path data with ⟨-, h⟩ | ⟨-, -, h⟩ | ⟨file, sums, hnew, -, hopen, hfits, hfile, hsums, -, h⟩
    · simp only [event?, step, storeStep, h]
      exact .still rfl rfl
    · simp only [event?, step, storeStep, h]
      exact .still rfl rfl
    · simp only [event?, step, storeStep, h]
      exact .stored (Table.contains_eq_false_iff.1 hnew) hopen hfits hfile hsums rfl rfl
  | close => exact .ended rfl rfl
  | openFile | length | readAll | hints =>
    simp only [storeStep]
    split <;> exact .still rfl rfl
  | isCommitted | isReserved | verify | list | companionSize | share | inspect => exact .still rfl rfl

theorem writerEvent?_ofWriter (name : String) (action : WriterAction) (answer : Answer) (w : Writer) :
    s.writerEvent? name action (.ofWriter answer w) =
      if answer.isFailure then none else action.payload?.map (.wrote name) := by
  cases action <;> rfl

/-- A write is an event if it succeeds. -/
theorem effect_keepWriter {name : String} {w : Writer} (hw : s.writers.get? name = some w) {action : WriterAction}
    {data : Bytes} (hdata : action.payload? = some data) {outcome : Except StoreError Writer}
    (houtcome : ∀ v, outcome = .ok v → w.write data = .ok v)
    (hstep : s.writerStep name w action = s.keepWriter name w outcome action.acceptance action.refusal) :
    s.Effect (s.writerStep name w action).2 (s.writerEvent? name action (s.writerStep name w action).1) := by
  rw [hstep]
  cases outcome with
  | ok v =>
    rw [keepWriter, writerEvent?_ofWriter, WriterAction.isFailure_acceptance, hdata]
    exact .wrote hw (houtcome v rfl) rfl rfl
  | error e =>
    rw [keepWriter, writerEvent?_ofWriter, WriterAction.isFailure_refusal]
    exact .still rfl rfl

theorem effect_writerStep {name : String} {w : Writer} (hw : s.writers.get? name = some w) (action : WriterAction) :
    s.Effect (s.writerStep name w action).2 (s.writerEvent? name action (s.writerStep name w action).1) := by
  cases action with
  | write data | writeByte byte | send data | sendAll data =>
    exact s.effect_keepWriter hw rfl (fun _ h => h) rfl
  | writeSlice data offset len =>
    refine s.effect_keepWriter hw rfl (fun v hv => ?_) rfl
    unfold Writer.writeSlice at hv
    split at hv
    · exact hv
    · cases hv
  | inspect => exact .still rfl rfl
  | close =>
    cases hclosed : s.store.closed with
    | true =>
      simp only [writerStep, Store.commit_of_closed _ hclosed]
      exact .lost hw rfl rfl
    | false =>
      simp only [writerStep, Store.commit_of_open _ hclosed, writerEvent?, Answer.ofUnit, hw]
      exact .published hw hclosed rfl rfl
  | drop => exact .lost hw rfl rfl

/-- Readers neither reach the store nor a writer. -/
theorem effect_readerStep (name : String) (r : Reader) (action : ReaderAction) :
    s.Effect (s.readerStep name r action).2 none := by
  cases action with
  | readByte | readInto | seek | read | readExact | seekFrom =>
    simp only [readerStep]
    split <;> exact .still rfl rfl
  | skip | readToEnd | inspect | duplicate => exact .still rfl rfl

/-- **A step does what its event says**, and without an event it changes neither the store nor a writer. -/
theorem effect_step (action : Action) : s.Effect (s.step action).2 (s.event? action) := by
  cases action with
  | store action => exact s.effect_storeStep action
  | writer name action =>
    simp only [event?, step]
    cases hw : s.writers.get? name with
    | some w => exact s.effect_writerStep hw action
    | none => cases action <;> exact .still rfl rfl
  | reader name action =>
    have hevent : s.event? (.reader name action) = none := rfl
    simp only [hevent, step]
    cases s.readers.get? name with
    | some r => exact s.effect_readerStep name r action
    | none => exact .still rfl rfl
  | copy reader name =>
    simp only [event?, step, copyEvent?]
    cases hr : s.readers.get? reader with
    | none => exact .still rfl rfl
    | some r =>
      cases hw : s.writers.get? name with
      | none => exact .still rfl rfl
      | some w => exact .wrote hw (r.write_sent w) rfl rfl

/-! ## Whether the store is closed -/

/-- The store is closed by one event and never opened again. -/
theorem Effect.closed_iff {s t : Session} {event : Option Event} (h : s.Effect t event) :
    t.store.closed = true ↔ s.store.closed = true ∨ event = some .ended := by
  cases h with
  | granted _ _ _ _ hstore => simp [hstore]
  | stored _ _ _ _ _ hstore => simp [hstore]
  | ended hstore => simp [hstore]
  | still hstore | made _ _ _ hstore | wrote _ _ hstore | published _ _ hstore | lost _ hstore | moved _ hstore
  | deleted _ hstore => simp [hstore]

theorem closed_run_iff (actions : List Action) :
    (s.run actions).store.closed = true ↔ s.store.closed = true ∨ .ended ∈ s.trace actions := by
  induction actions generalizing s with
  | nil => simp [run, trace]
  | cons action actions ih =>
    have hrun : s.run (action :: actions) = (s.step action).2.run actions := rfl
    rw [hrun, ih, (s.effect_step action).closed_iff, trace, List.mem_append, Option.mem_toList, or_assoc]

end Session
end BoundedStore
