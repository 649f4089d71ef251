import BoundedStore.Proofs.Session.Frame
import BoundedStore.Proofs.Store.Refusal

/-!
# After the store is closed

To reserve, to make a writer, to open and to publish look whether the store is closed; to move, to delete and to ask for
a file do not, and find nothing because both tables are empty. The two go together, from the step that closes the store
through every later one.

* `Store.Ended` : closed, and nothing reserved or published; `Store.EndsEmpty` : a store that is closed has ended;
* `endsEmpty_step`, `endsEmpty_run` : it is so in every state of a run from a new store;
* `Store.Ended.step`, `Store.Ended.run` : from then on no action changes the store, and none has an event for a key;
* `Session.SaysClosed` : what the users of such a store are told;
* `closing_is_final` : all this holds once the store is closed, whatever is done before and after.
-/

namespace BoundedStore

namespace Store

/-- The store is closed and holds nothing. -/
structure Ended (s : Store) : Prop where
  closed : s.closed = true
  reserved : s.reserved = Table.empty
  committed : s.committed = Table.empty

/-- The store holds nothing once it is closed. -/
def EndsEmpty (s : Store) : Prop := s.closed = true → s.Ended

theorem endsEmpty_of_build {address : Address} {capacity : UInt64} {granularity : UInt32} {store : Store}
    (h : build address capacity granularity = .ok store) : store.EndsEmpty := by
  obtain ⟨g, -, rfl⟩ := build_eq_ok_iff.1 h
  intro hclosed
  cases hclosed

theorem EndsEmpty.ended_close {s : Store} (h : s.EndsEmpty) : s.close.Ended := by
  unfold close
  split
  · next hclosed => exact h hclosed
  · exact ⟨rfl, rfl, rfl⟩

/-- To close the store neither claims space nor gives any back. -/
@[simp] theorem used_close (s : Store) : s.close.used = s.used := by
  unfold close
  split <;> rfl

/-! ## What is left of the operations -/

namespace Ended

variable {s : Store} (h : s.Ended)

include h

theorem get?_eq_none (key : Key) : s.committed.get? key = none := by
  rw [h.committed, Table.get?_empty]

theorem isCommitted (path : String) : s.isCommitted path = false :=
  Table.contains_eq_false_iff.2 (h.get?_eq_none _)

theorem isReserved (path : String) : s.isReserved path = false := by
  rw [Store.isReserved, h.reserved]
  rfl

theorem reserve (path : String) (size : UInt64) : s.reserve path size = (false, s) :=
  s.reserve_of_refusal path (.closed h.closed)

theorem create (path : String) (overwrite : Bool) : s.create path overwrite = (.error .closed, s) := by
  apply s.create_of_noWriter
  refine .closed (fun hexists => ?_) h.closed
  rw [h.isCommitted] at hexists
  cases hexists

theorem rename (source destination : String) : s.rename source destination = (false, s) := by
  rcases s.rename_cases source destination with ⟨-, hrefused⟩ | ⟨buffer, hbuffer, -⟩
  · exact hrefused
  · rw [h.get?_eq_none] at hbuffer
    cases hbuffer

theorem delete (path : String) : s.delete path = (false, s) := by
  rcases s.delete_cases path with ⟨-, hrefused⟩ | ⟨buffer, hbuffer, -⟩
  · exact hrefused
  · rw [h.get?_eq_none] at hbuffer
    cases hbuffer

theorem put (path : String) (data : Bytes) : s.put path data = (.ok false, s) := by
  rcases s.put_cases path data with ⟨hexists, -⟩ | ⟨-, -, hput⟩ | ⟨file, sums, -, -, hopen, -⟩
  · rw [h.isCommitted] at hexists
    cases hexists
  · exact hput
  · rw [h.closed] at hopen
    cases hopen

theorem openFile (path : String) : s.openFile path = .error .closed := by
  rw [Store.openFile, h.closed, if_pos rfl]

theorem readAll (path : String) : s.readAll path = .error .closed := by
  rw [Store.readAll, h.openFile]

theorem verify (path : String) : s.verify path = .error .closed := by
  rw [Store.verify, h.readAll]

theorem length (path : String) : s.length path = .error (.notFound (canonicalPath path)) := by
  rw [Store.length, h.get?_eq_none, canonicalPath]

theorem list (accepts : String → Bool) : s.list accepts = [] := by
  rw [Store.list, h.committed]
  rfl

theorem hints (path : String) (start len : UInt64) : s.hints path start len = none := by
  rw [Store.hints, h.isCommitted, if_neg (by decide)]

theorem close : s.close = s := by
  rw [Store.close, h.closed, if_pos rfl]

end Ended
end Store

namespace Session

variable {s t : Session} {event : Option Event}

/-! ## Steps -/

theorem Effect.endsEmpty (h : s.Effect t event) (hs : s.store.EndsEmpty) : t.store.EndsEmpty := by
  intro hclosed
  cases h with
  | still hstore | wrote _ _ hstore | lost _ hstore =>
    rw [hstore] at hclosed ⊢
    exact hs hclosed
  | granted _ _ hopen _ hstore =>
    rw [hstore, Store.closed_granted, hopen] at hclosed
    cases hclosed
  | stored _ hopen _ _ _ hstore =>
    rw [hstore, Store.closed_stored, hopen] at hclosed
    cases hclosed
  | made _ hopen _ hstore | published _ hopen hstore =>
    rw [hstore] at hclosed
    cases hopen.symm.trans hclosed
  | moved hbuffer hstore | deleted hbuffer hstore =>
    -- a file that is moved or removed shows that the store was not closed
    rw [hstore] at hclosed
    rw [(hs hclosed).get?_eq_none] at hbuffer
    cases hbuffer
  | ended hstore =>
    rw [hstore]
    exact hs.ended_close

theorem endsEmpty_step (h : s.store.EndsEmpty) (action : Action) : (s.step action).2.store.EndsEmpty :=
  (s.effect_step action).endsEmpty h

theorem endsEmpty_run (h : s.store.EndsEmpty) (actions : List Action) : (s.run actions).store.EndsEmpty :=
  run_preserves (P := fun s => s.store.EndsEmpty) (fun _ action h => endsEmpty_step h action) h actions

/-- An event of a store that has ended is a write, the end of a writer or one more closing. -/
theorem Effect.of_ended (h : s.Effect t event) (hs : s.store.Ended) :
    t.store = s.store ∧ ∀ e ∈ event, e.keys = [] := by
  cases h with
  | still hstore => exact ⟨hstore, fun _ he => by cases he⟩
  | wrote _ _ hstore | lost _ hstore =>
    refine ⟨hstore, ?_⟩
    rintro _ ⟨⟩
    rfl
  | ended hstore =>
    refine ⟨hstore.trans hs.close, ?_⟩
    rintro _ ⟨⟩
    rfl
  | granted _ _ hopen | stored _ hopen | made _ hopen | published _ hopen => cases hopen.symm.trans hs.closed
  | moved hbuffer | deleted hbuffer =>
    rw [hs.get?_eq_none] at hbuffer
    cases hbuffer

end Session

namespace Store.Ended

variable {s : Session}

/-- **No action changes a store that has ended.** -/
theorem step (h : s.store.Ended) (action : Action) : (s.step action).2.store = s.store :=
  ((s.effect_step action).of_ended h).1

theorem run (h : s.store.Ended) (actions : List Action) : (s.run actions).store = s.store := by
  have hstep (t : Session) (action : Action) (ht : t.store = s.store) : (t.step action).2.store = s.store := by
    rw [← ht] at h
    exact (h.step action).trans ht
  exact Session.run_preserves (P := fun t => t.store = s.store) hstep rfl actions

/-- No event of a later run is about a key. -/
theorem trace (h : s.store.Ended) (actions : List Action) : ∀ e ∈ s.trace actions, e.keys = [] := by
  induction actions generalizing s with
  | nil => exact fun e he => absurd he List.not_mem_nil
  | cons action actions ih =>
    intro e he
    rcases List.mem_append.1 he with he | he
    · exact ((s.effect_step action).of_ended h).2 e (Option.mem_toList.1 he)
    · exact ih (by rw [h.step]; exact h) e he

end Store.Ended

namespace Session

/-! ## What users are told -/

/-- The answers of a store that has ended, for all arguments. -/
structure SaysClosed (s : Session) : Prop where
  reserve : ∀ path size, (s.step (.store (.reserve path size))).1 = .flag false
  rename : ∀ source destination, (s.step (.store (.rename source destination))).1 = .flag false
  delete : ∀ path, (s.step (.store (.delete path))).1 = .flag false
  put : ∀ path data, (s.step (.store (.put path data))).1 = .flag false
  create : ∀ path overwrite name, (s.step (.store (.create path overwrite name))).1 = .failed .closed
  openFile : ∀ path name, (s.step (.store (.openFile path name))).1 = .failed .closed
  readAll : ∀ path, (s.step (.store (.readAll path))).1 = .failed .closed
  verify : ∀ path, (s.step (.store (.verify path))).1 = .failed .closed
  /-- A writer that was made in time is closed too late. -/
  commit : ∀ name w, s.writers.get? name = some w → (s.step (.writer name .close)).1 = .failed .closed
  length : ∀ path, (s.step (.store (.length path))).1 = .failed (.notFound (canonicalPath path))
  isCommitted : ∀ path, (s.step (.store (.isCommitted path))).1 = .flag false
  isReserved : ∀ path, (s.step (.store (.isReserved path))).1 = .flag false
  hints : ∀ path start len, (s.step (.store (.hints path start len))).1 = .nothing
  list : ∀ accepts, (s.step (.store (.list accepts))).1 = .keys []
  /-- To close the store once more does nothing at all. -/
  close : s.step (.store .close) = (.nothing, s)

theorem saysClosed_of_ended {s : Session} (h : s.store.Ended) : s.SaysClosed where
  reserve path size := by simp only [step, storeStep, h.reserve]
  rename source destination := by simp only [step, storeStep, h.rename]
  delete path := by simp only [step, storeStep, h.delete]
  put path data := by simp only [step, storeStep, h.put]
  create path overwrite name := by simp only [step, storeStep, h.create]
  openFile path name := by simp only [step, storeStep, h.openFile]
  readAll path := by simp only [step, storeStep, h.readAll]
  verify path := by simp only [step, storeStep, h.verify, Answer.ofUnit]
  commit name w hw := by simp only [step, hw, writerStep, Store.commit_of_closed _ h.closed, Answer.ofUnit]
  length path := by simp only [step, storeStep, h.length]
  isCommitted path := by simp only [step, storeStep, h.isCommitted]
  isReserved path := by simp only [step, storeStep, h.isReserved]
  hints path start len := by simp only [step, storeStep, h.hints]
  list accepts := by simp only [step, storeStep, h.list]
  close := by simp only [step, storeStep, h.close]

/-- What `actions` find after the store of `s` has been closed. -/
structure ClosedForGood (s : Session) (actions : List Action) : Prop where
  closed : (s.run (.store .close :: actions)).store.closed = true
  reserved : (s.run (.store .close :: actions)).store.reserved = Table.empty
  committed : (s.run (.store .close :: actions)).store.committed = Table.empty
  /-- The space that was in use stays in use. -/
  used : (s.run (.store .close :: actions)).store.used = s.store.used
  refusals : (s.run (.store .close :: actions)).SaysClosed
  /-- Nothing is reserved, published, moved, stored or deleted any more, and no writer is made. -/
  silent : ∀ e ∈ (s.step (.store .close)).2.trace actions, e.keys = []

/-- **Closing is final**, in every state that a run from a new store reaches and for every later run. -/
theorem closing_is_final {address : Address} {capacity : UInt64} {granularity : UInt32} {store : Store}
    (h : Store.build address capacity granularity = .ok store) (before after : List Action) :
    ((start store).run before).ClosedForGood after := by
  have hended : (((start store).run before).step (.store .close)).2.store.Ended :=
    (endsEmpty_run (Store.endsEmpty_of_build h) before).ended_close
  have hstore := hended.run after
  have hstill : ((((start store).run before).step (.store .close)).2.run after).store.Ended := by
    rw [hstore]
    exact hended
  exact {
    closed := hstill.closed
    reserved := hstill.reserved
    committed := hstill.committed
    used := (congrArg Store.used hstore).trans (Store.used_close _)
    refusals := saysClosed_of_ended hstill
    silent := hended.trace after }

/-- A file, a reservation, a writer and a reader when the store is closed. -/
theorem closing_is_final_outstanding_writer :
    ∃ (store : Store) (before after : List Action), Store.ofCapacity 1000 512 = .ok store ∧
      before = [.store (.put "/a" [97, 98, 99]), .store (.reserve "/b" 5), .store (.openFile "/a" "r"),
        .store (.reserve "/c" 1), .store (.create "/c" false "w")] ∧
      after = [.writer "w" (.write [1]), .store .share, .reader "r" .readByte, .store (.reserve "/d" 1)] ∧
      ((start store).run before).ClosedForGood after ∧
      ((start store).run before).store.used.toNat = 15 + 17 + 13 ∧
      ((((start store).run before).run (.store .close :: after)).step (.writer "w" .close)).1 = .failed .closed := by
  have hbuild : Store.build Address.default 1000 512 = .ok _ := rfl
  have hfinal := closing_is_final hbuild [.store (.put "/a" [97, 98, 99]), .store (.reserve "/b" 5),
    .store (.openFile "/a" "r"), .store (.reserve "/c" 1), .store (.create "/c" false "w")]
    [.writer "w" (.write [1]), .store .share, .reader "r" .readByte, .store (.reserve "/d" 1)]
  refine ⟨_, _, _, hbuild, rfl, rfl, hfinal, ?_, ?_⟩
  · decide +kernel
  · exact hfinal.refusals.commit "w" ⟨Key.ofPath "/c", ⟨[1], by decide⟩, 1⟩ (by decide +kernel)

end Session
end BoundedStore
