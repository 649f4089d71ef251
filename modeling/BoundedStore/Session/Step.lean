import BoundedStore.Copy
import BoundedStore.Session.Action
import BoundedStore.Store.Capabilities

/-!
# Steps of a session

`Session.step` performs one action and `Session.run` a list of them. A writer or reader that is put under a name in use
takes the place of the earlier one, which is given up. What one step keeps is kept along a run
(`Session.run_preserves`, `Session.run_unchanged`).
-/

namespace BoundedStore

/-- The answer to an operation that either succeeds with nothing to tell or fails. -/
def Answer.ofUnit : Except StoreError Unit → Answer
  | .ok () => .done
  | .error e => .failed e

/-- The number of bytes copied, or why there are no more. -/
def Answer.ofCopied (copied : Copied) : Answer :=
  match copied.failure with
  | none => .count (Bytes.size copied.sent)
  | some e => .streamFailed e

namespace Session

def storeStep (s : Session) : StoreAction → Answer × Session
  | .reserve path size =>
    let (granted, store) := s.store.reserve path size
    (.flag granted, { s with store := store })
  | .create path overwrite name =>
    match s.store.create path overwrite with
    | (.ok writer, store) => (.writer writer, { s with store := store, writers := s.writers.insert name writer })
    | (.error e, store) => (.failed e, { s with store := store })
  | .openFile path name =>
    match s.store.openFile path with
    | .ok reader => (.reader reader, { s with readers := s.readers.insert name reader })
    | .error e => (.failed e, s)
  | .rename source destination =>
    let (moved, store) := s.store.rename source destination
    (.flag moved, { s with store := store })
  | .delete path =>
    let (removed, store) := s.store.delete path
    (.flag removed, { s with store := store })
  | .isCommitted path => (.flag (s.store.isCommitted path), s)
  | .isReserved path => (.flag (s.store.isReserved path), s)
  | .length path =>
    match s.store.length path with
    | .ok n => (.count n, s)
    | .error e => (.failed e, s)
  | .put path data =>
    match s.store.put path data with
    | (.ok stored, store) => (.flag stored, { s with store := store })
    | (.error e, store) => (.failed e, { s with store := store })
  | .readAll path =>
    match s.store.readAll path with
    | .ok content => (.bytes content, s)
    | .error e => (.failed e, s)
  | .verify path => (.ofUnit (s.store.verify path), s)
  | .list accepts => (.keys (s.store.list accepts), s)
  | .companionSize size => (.count (s.store.granularity.companionSize size), s)
  | .hints path start len =>
    match s.store.hints path start len with
    | some hints => (.cells hints, s)
    | none => (.nothing, s)
  | .share => (.handle s.handles, { s with handles := s.handles + 1 })
  | .inspect => (.store s.store, s)
  | .close => (.nothing, { s with store := s.store.close })

/-- Keeps the outcome of a write under `name`; a failed write leaves the writer as it was. -/
def keepWriter (s : Session) (name : String) (before : Writer) (outcome : Except StoreError Writer)
    (success : Answer) (failure : StoreError → Answer) : Answer × Session :=
  match outcome with
  | .ok after => (.ofWriter success after, { s with writers := s.writers.insert name after })
  | .error e => (.ofWriter (failure e) before, s)

/-- An action on the writer `w`, which is kept under `name`. -/
def writerStep (s : Session) (name : String) (w : Writer) : WriterAction → Answer × Session
  | .write data => s.keepWriter name w (w.write data) .done .failed
  | .writeSlice data offset len => s.keepWriter name w (w.writeSlice data offset len) .done .failed
  | .writeByte byte => s.keepWriter name w (w.writeByte byte) .done .failed
  | .send data => s.keepWriter name w (w.write data) (.count (Bytes.size data)) (.streamFailed ∘ .store)
  | .sendAll data => s.keepWriter name w (w.write data) .done (.streamFailed ∘ .store)
  | .inspect => (.ofWriter .done w, s)
  | .close =>
    let (outcome, store) := s.store.commit w
    (.ofUnit outcome, { s with store := store, writers := s.writers.erase name })
  | .drop => (.nothing, { s with writers := s.writers.erase name })

def keepReader (s : Session) (name : String) (answer : Answer) (after : Reader) : Answer × Session :=
  (.ofReader answer after, { s with readers := s.readers.insert name after })

/-- An action on the reader `r`, which is kept under `name`. -/
def readerStep (s : Session) (name : String) (r : Reader) : ReaderAction → Answer × Session
  | .readByte =>
    match r.readByte with
    | (some byte, after) => s.keepReader name (.byte byte) after
    | (none, after) => s.keepReader name .nothing after
  | .readInto target offset len =>
    match r.readInto target offset len with
    | .ok ((n, target), after) => s.keepReader name (.filled n target) after
    | .error e => s.keepReader name (.failed e) r
  | .seek position =>
    match r.seek position with
    | .ok after => s.keepReader name .done after
    | .error e => s.keepReader name (.failed e) r
  | .skip n =>
    let (distance, after) := r.skip n
    s.keepReader name (.count distance) after
  | .read target =>
    match r.read target with
    | .ok ((n, target), after) => s.keepReader name (.filled n target) after
    | .error e => s.keepReader name (.streamFailed e) r
  | .readExact n =>
    match r.readExact n with
    | (.ok content, after) => s.keepReader name (.bytes content) after
    | (.error e, after) => s.keepReader name (.streamFailed e) after
  | .readToEnd =>
    let (content, after) := r.readToEnd
    s.keepReader name (.filled (Bytes.size content) content) after
  | .seekFrom origin =>
    match r.seekFrom origin with
    | .ok (position, after) => s.keepReader name (.count position) after
    | .error e => s.keepReader name (.streamFailed e) r
  | .inspect => s.keepReader name .done r
  | .duplicate copy => (.reader r, { s with readers := s.readers.insert copy r })

/-- Sends what `r` has left to `w`. Both are kept as the copying leaves them, also when it ends early. -/
def copyStep (s : Session) (reader : String) (r : Reader) (writer : String) (w : Writer) : Answer × Session :=
  let copied := r.copyTo w
  (.ofCopied copied, { s with
    readers := s.readers.insert reader copied.reader
    writers := s.writers.insert writer copied.writer })

def step (s : Session) : Action → Answer × Session
  | .store action => s.storeStep action
  | .writer name action =>
    match s.writers.get? name with
    | some w => s.writerStep name w action
    | none => (.unknownName, s)
  | .reader name action =>
    match s.readers.get? name with
    | some r => s.readerStep name r action
    | none => (.unknownName, s)
  | .copy reader writer =>
    match s.readers.get? reader, s.writers.get? writer with
    | some r, some w => s.copyStep reader r writer w
    | _, _ => (.unknownName, s)

def run (s : Session) (actions : List Action) : Session := actions.foldl (fun s action => (s.step action).2) s

/-- What every step keeps, every run keeps. -/
theorem run_preserves {P : Session → Prop} (hstep : ∀ s action, P s → P (s.step action).2) {s : Session} (h : P s)
    (actions : List Action) : P (s.run actions) := by
  induction actions generalizing s with
  | nil => exact h
  | cons action actions ih => exact ih (hstep s action h)

/-- What no step changes, no run changes. -/
theorem run_unchanged {α : Type} {f : Session → α} (hstep : ∀ s action, f (s.step action).2 = f s) (s : Session)
    (actions : List Action) : f (s.run actions) = f s :=
  run_preserves (fun t action ht => (hstep t action).trans ht) rfl actions

end Session
end BoundedStore
