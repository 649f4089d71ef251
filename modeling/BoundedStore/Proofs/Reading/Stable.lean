import BoundedStore.Proofs.Reading.Cursor
import BoundedStore.Proofs.Session.Event

/-!
# What a reader gives

A reader is a cursor over the bytes that its file had when it was opened, whatever becomes of the file.

* `Action.Uses`, `Action.Replaces` : an action works with the reader under a name, or puts another one there;
* `readers_step` : all other actions leave the reader as it is;
* `shows_run` : along every run it shows a place in the same content;
* `reads_run` : reads that are put end to end give the bytes from the cursor on;
* `Session.ReadsAs` : what is seen of a reader at a cursor;
* `stable_cursor` : every reader is seen so, in all states after it was opened.
-/

namespace BoundedStore

/-! ## Actions that matter to a reader -/

def Action.Uses (name : String) : Action → Prop
  | .reader other _ => other = name
  | .copy other _ => other = name
  | _ => False

/-- The action may put another reader under `name`. -/
def Action.Replaces (name : String) : Action → Prop
  | .store (.openFile _ other) => other = name
  | .reader _ (.duplicate other) => other = name
  | _ => False

/-- The action reads some bytes and moves behind them. -/
def ReaderAction.IsRead : ReaderAction → Prop
  | .readByte | .readInto .. | .read _ | .readToEnd => True
  | _ => False

/-- Whatever the action does with the reader under `name` is to read from it. -/
def Action.OnlyReads (name : String) : Action → Prop
  | .reader other action => if other = name then action.IsRead else ¬(Action.reader other action).Replaces name
  | .copy other _ => other ≠ name
  | action => ¬action.Replaces name

/-- The bytes that an answer hands over. -/
def ReaderAction.delivered : ReaderAction → Answer → Bytes
  | .readByte, .ofReader (.byte value) _ => [value]
  | .readInto _ offset _, .ofReader (.filled n target) _ => (target.drop offset.toNat).take n.toNat
  | .read _, .ofReader (.filled n target) _ => target.take n.toNat
  | .readToEnd, .ofReader (.filled n content) _ => content.take n.toNat
  | _, _ => []

namespace Session

/-- The bytes that the reader under `name` hands over in a step. -/
def delivery (s : Session) (name : String) : Action → Bytes
  | .reader other action => if other = name then action.delivered (s.step (.reader other action)).1 else []
  | _ => []

/-- The bytes that it hands over along a list of actions. -/
def delivered (s : Session) (name : String) : List Action → Bytes
  | [] => []
  | action :: actions => s.delivery name action ++ (s.step action).2.delivered name actions

variable {s : Session} {name : String} {action : Action}

/-! ## Actions that do not matter to it -/

theorem readers_storeStep (storeAction : StoreAction) (h : ¬(Action.store storeAction).Replaces name) :
    (s.storeStep storeAction).2.readers.get? name = s.readers.get? name := by
  cases storeAction with
  | openFile path other =>
    simp only [storeStep]
    split
    · exact Table.get?_insert_of_ne _ _ (Ne.symm h)
    · rfl
  | create | length | put | readAll | hints =>
    simp only [storeStep]
    split <;> rfl
  | _ => rfl

theorem readers_writerStep (other : String) (w : Writer) (writerAction : WriterAction) :
    (s.writerStep other w writerAction).2.readers = s.readers := by
  cases writerAction with
  | inspect | close | drop => rfl
  | _ =>
    simp only [writerStep, keepWriter]
    split <;> rfl

theorem readers_readerStep {other : String} (r : Reader) {readerAction : ReaderAction} (hother : other ≠ name)
    (h : ¬(Action.reader other readerAction).Replaces name) :
    (s.readerStep other r readerAction).2.readers.get? name = s.readers.get? name := by
  have hkeep : ∀ answer after, (s.keepReader other answer after).2.readers.get? name = s.readers.get? name :=
    fun _ _ => Table.get?_insert_of_ne _ _ (Ne.symm hother)
  cases readerAction with
  | duplicate copy => exact Table.get?_insert_of_ne _ _ (Ne.symm h)
  | skip | readToEnd | inspect => exact hkeep _ _
  | _ =>
    simp only [readerStep]
    split <;> exact hkeep _ _

/-- **A reader changes only by its own actions.** -/
theorem readers_step (hkeep : ¬action.Replaces name) (hother : ¬action.Uses name) :
    (s.step action).2.readers.get? name = s.readers.get? name := by
  cases action with
  | store storeAction => exact readers_storeStep storeAction hkeep
  | writer other writerAction =>
    simp only [step]
    split
    · rw [readers_writerStep]
    · rfl
  | reader other readerAction =>
    simp only [step]
    split
    · exact readers_readerStep _ hother hkeep
    · rfl
  | copy other writer =>
    simp only [step]
    split
    · exact Table.get?_insert_of_ne _ _ (Ne.symm hother)
    · rfl

/-! ## Steps of a reader -/

section Steps

variable {r : Reader} {c : Cursor}

theorem get?_keepReader (answer : Answer) (after : Reader) :
    (s.keepReader name answer after).2.readers.get? name = some after :=
  Table.get?_insert_self _ _ _

theorem get?_keepReader_self (h : r.Shows c) (answer : Answer) :
    (s.keepReader name answer r).2.readers.get? name = some (r.movedTo c) := by
  rw [get?_keepReader, h.movedTo_self]

/-- A read hands over the next bytes and moves behind them. -/
theorem exists_next (h : r.Shows c) {readerAction : ReaderAction} (hread : readerAction.IsRead) :
    ∃ n, readerAction.delivered (s.readerStep name r readerAction).1 = c.next n ∧
      (s.readerStep name r readerAction).2.readers.get? name = some (r.movedTo (c.forward n)) := by
  cases readerAction with
  | readByte =>
    simp only [readerStep, h.readByte]
    cases hrest : c.rest with
    | nil =>
      refine ⟨0, rfl, ?_⟩
      rw [Cursor.forward_zero]
      exact get?_keepReader_self h _
    | cons byte bytes =>
      refine ⟨1, ?_, get?_keepReader _ _⟩
      rw [Cursor.next, hrest]
      rfl
  | readInto target offset len =>
    simp only [readerStep]
    by_cases hbounds : offset.toNat + len.toNat ≤ target.length ∧ offset.toNat + len.toNat < 0x1_0000_0000_0000_0000
    · rw [h.readInto hbounds.1 hbounds.2]
      refine ⟨len.toNat, ?_, get?_keepReader _ _⟩
      have hoffset : (target.take offset.toNat).length = offset.toNat := by
        rw [List.length_take]
        omega
      show ((target.take offset.toNat ++ c.next len.toNat ++ _).drop offset.toNat).take (UInt64.ofNat _).toNat = _
      rw [h.toNat_reach, List.append_assoc, List.drop_left' hoffset, List.take_left' (c.length_next _)]
    · rw [r.readInto_of_not hbounds]
      refine ⟨0, rfl, ?_⟩
      rw [Cursor.forward_zero]
      exact get?_keepReader_self h _
  | read target =>
    simp only [readerStep, h.read]
    refine ⟨target.length, ?_, get?_keepReader _ _⟩
    show (c.next target.length ++ _).take (UInt64.ofNat _).toNat = _
    rw [h.toNat_reach, List.take_left' (c.length_next _)]
  | readToEnd =>
    simp only [readerStep, h.readToEnd]
    refine ⟨c.left, ?_, get?_keepReader _ _⟩
    have hlt := h.length_lt
    have hlength : (Bytes.size c.rest).toNat = c.rest.length := by
      apply Bytes.toNat_size
      rw [Cursor.length_rest, Cursor.left]
      omega
    show c.rest.take (Bytes.size c.rest).toNat = _
    rw [hlength, List.take_length, Cursor.next_left]
  | _ => exact absurd hread id

variable (hr : s.readers.get? name = some r)

include hr

theorem step_reader (readerAction : ReaderAction) :
    s.step (.reader name readerAction) = s.readerStep name r readerAction := by
  simp only [step, hr]

theorem keepReader_self (answer : Answer) : s.keepReader name answer r = (.ofReader answer r, s) := by
  rw [keepReader, Table.insert_of_get? hr]

variable (h : r.Shows c)

include h

theorem shows_readerStep {readerAction : ReaderAction} (hkeep : ¬(Action.reader name readerAction).Replaces name) :
    ∃ d, d.content = c.content ∧ (s.readerStep name r readerAction).2.readers.get? name = some (r.movedTo d) := by
  by_cases hread : readerAction.IsRead
  · obtain ⟨n, -, hafter⟩ := exists_next h hread
    exact ⟨c.forward n, rfl, hafter⟩
  cases readerAction with
  | readByte | readInto | read | readToEnd => exact absurd trivial hread
  | seek position =>
    simp only [readerStep]
    by_cases hle : position.toNat ≤ c.content.length
    · rw [h.seek_of_le hle]
      exact ⟨c.jump hle, rfl, get?_keepReader _ _⟩
    · rw [h.seek_of_lt (Nat.lt_of_not_le hle)]
      exact ⟨c, rfl, get?_keepReader_self h _⟩
  | skip n =>
    simp only [readerStep, h.skip]
    exact ⟨c.forward n.toNat, rfl, get?_keepReader _ _⟩
  | readExact n =>
    simp only [readerStep]
    by_cases hle : n.toNat ≤ c.left
    · rw [h.readExact_of_le hle]
      exact ⟨c.forward n.toNat, rfl, get?_keepReader _ _⟩
    · rw [h.readExact_of_lt (Nat.lt_of_not_le hle)]
      exact ⟨c.forward c.left, rfl, get?_keepReader _ _⟩
  | seekFrom origin =>
    simp only [readerStep]
    by_cases hcount : ∃ position : UInt64, c.target origin = position.toNat
    · obtain ⟨position, htarget⟩ := hcount
      by_cases hle : position.toNat ≤ c.content.length
      · rw [h.seekFrom_of_le htarget hle]
        exact ⟨c.jump hle, rfl, get?_keepReader _ _⟩
      · rw [h.seekFrom_of_lt htarget (Nat.lt_of_not_le hle)]
        exact ⟨c, rfl, get?_keepReader_self h _⟩
    · rw [h.seekFrom_of_ne (not_exists.1 hcount)]
      exact ⟨c, rfl, get?_keepReader_self h _⟩
  | inspect => exact ⟨c, rfl, get?_keepReader_self h _⟩
  | duplicate other =>
    refine ⟨c, rfl, ?_⟩
    rw [h.movedTo_self, ← hr]
    exact Table.get?_insert_of_ne _ _ (Ne.symm hkeep)

/-- **A step leaves the reader at a place in its content.** -/
theorem shows_step (hkeep : ¬action.Replaces name) :
    ∃ d, d.content = c.content ∧ (s.step action).2.readers.get? name = some (r.movedTo d) := by
  by_cases huse : action.Uses name
  · cases action with
    | reader other readerAction =>
      obtain rfl : other = name := huse
      rw [step_reader hr]
      exact shows_readerStep hr h hkeep
    | copy other writer =>
      obtain rfl : other = name := huse
      simp only [step, hr]
      split
      · next source w hsource hw =>
        cases hsource
        obtain ⟨n, hn⟩ := h.exists_reader_copyTo w
        refine ⟨c.forward n, rfl, ?_⟩
        rw [← hn]
        exact Table.get?_insert_self _ _ _
      · exact ⟨c, rfl, by rw [h.movedTo_self, hr]⟩
    | store | writer => exact absurd huse id
  · refine ⟨c, rfl, ?_⟩
    rw [readers_step hkeep huse, hr, h.movedTo_self]

theorem exists_next_step (hread : action.OnlyReads name) :
    ∃ n, s.delivery name action = c.next n ∧
      (s.step action).2.readers.get? name = some (r.movedTo (c.forward n)) := by
  -- an action of someone else is a read of no bytes
  have hstill : s.delivery name action = [] → ¬action.Replaces name → ¬action.Uses name →
      ∃ n, s.delivery name action = c.next n ∧
        (s.step action).2.readers.get? name = some (r.movedTo (c.forward n)) := by
    intro hnone hkeep huse
    refine ⟨0, hnone, ?_⟩
    rw [readers_step hkeep huse, hr, Cursor.forward_zero, h.movedTo_self]
  cases action with
  | store | writer => exact hstill rfl hread id
  | copy => exact hstill rfl id hread
  | reader other readerAction =>
    simp only [Action.OnlyReads] at hread
    by_cases hname : other = name
    · subst hname
      rw [if_pos rfl] at hread
      obtain ⟨n, hnext, hafter⟩ := exists_next h hread
      refine ⟨n, ?_, ?_⟩
      · rw [delivery, if_pos rfl, step_reader hr, hnext]
      · rw [step_reader hr, hafter]
    · rw [if_neg hname] at hread
      exact hstill (if_neg hname) hread hname

end Steps

/-! ## Runs -/

/-- **Along every run a reader shows its content.** -/
theorem shows_run {r : Reader} {c : Cursor} (hr : s.readers.get? name = some r) (h : r.Shows c)
    {actions : List Action} (hkeep : ∀ a ∈ actions, ¬a.Replaces name) :
    ∃ d, d.content = c.content ∧ (s.run actions).readers.get? name = some (r.movedTo d) := by
  induction actions generalizing s r c with
  | nil => exact ⟨c, rfl, by rw [h.movedTo_self]; exact hr⟩
  | cons action actions ih =>
    obtain ⟨d, hd, hafter⟩ := shows_step hr h (hkeep action List.mem_cons_self)
    obtain ⟨e, he, hrun⟩ := ih hafter (h.movedTo hd) fun a ha => hkeep a (List.mem_cons_of_mem _ ha)
    exact ⟨e, he.trans hd, hrun⟩

/-- **Reads put end to end are one read.** -/
theorem reads_run {r : Reader} {c : Cursor} (hr : s.readers.get? name = some r) (h : r.Shows c)
    {reads : List Action} (hreads : ∀ a ∈ reads, a.OnlyReads name) :
    ∃ n, s.delivered name reads = c.next n ∧ (s.run reads).readers.get? name = some (r.movedTo (c.forward n)) := by
  induction reads generalizing s r c with
  | nil => exact ⟨0, rfl, by rw [Cursor.forward_zero, h.movedTo_self]; exact hr⟩
  | cons action reads ih =>
    obtain ⟨m, hfirst, hafter⟩ := exists_next_step hr h (hreads action List.mem_cons_self)
    obtain ⟨n, hrest, hrun⟩ := ih hafter (h.movedTo rfl) fun a ha => hreads a (List.mem_cons_of_mem _ ha)
    refine ⟨m + n, ?_, ?_⟩
    · rw [delivered, hfirst, hrest, Cursor.next_append]
    · rw [← Cursor.forward_forward]
      exact hrun

/-! ## What is seen of a reader -/

/-- The reader `r`, kept under `name`, does what the cursor `c` says. -/
structure ReadsAs (s : Session) (name : String) (r : Reader) (c : Cursor) : Prop where
  reader : s.readers.get? name = some r
  content : r.buffer.bytes = c.content
  position : r.position.toNat = c.place
  within : r.position ≤ r.length
  available : r.available.toNat = c.content.length - r.position.toNat
  readByte : s.step (.reader name .readByte) =
    match c.rest with
    | [] => (.ofReader .nothing r, s)
    | byte :: _ => s.keepReader name (.byte byte) (r.movedTo (c.forward 1))
  /-- A range that ends behind the target is refused, and nothing changes. -/
  outOfBounds : ∀ target offset len, target.length < offset.toNat + len.toNat →
    s.step (.reader name (.readInto target offset len)) =
      (.ofReader (.failed (.invalidArgument (.outOfBounds offset len (Bytes.size target)))) r, s)
  /-- Any other range is filled as far as there are bytes; around it the target stays as it is. -/
  readInto : ∀ target offset len, target.length < 0x1_0000_0000_0000_0000 →
    offset.toNat + len.toNat ≤ target.length →
      s.step (.reader name (.readInto target offset len)) =
        s.keepReader name (.filled (UInt64.ofNat (c.reach len.toNat)) (target.take offset.toNat ++ c.next len.toNat ++
          target.drop (offset.toNat + c.reach len.toNat))) (r.movedTo (c.forward len.toNat))
  /-- A whole target is a range that is never refused. -/
  read : ∀ target, s.step (.reader name (.read target)) =
    s.keepReader name (.filled (UInt64.ofNat (c.reach target.length))
      (c.next target.length ++ target.drop (c.reach target.length))) (r.movedTo (c.forward target.length))
  skip : ∀ n, s.step (.reader name (.skip n)) =
    s.keepReader name (.count (UInt64.ofNat (c.reach n.toNat))) (r.movedTo (c.forward n.toNat))
  /-- To skip is to read as many bytes as there are and to forget them. -/
  skip_eq_read : ∀ n target, target.length = c.reach n.toNat →
    (s.step (.reader name (.skip n))).2 = (s.step (.reader name (.read target))).2
  seek : ∀ position (hle : position.toNat ≤ c.content.length),
    s.step (.reader name (.seek position)) = s.keepReader name .done (r.movedTo (c.jump hle))
  seek_refused : ∀ position, c.content.length < position.toNat →
    s.step (.reader name (.seek position)) = (.ofReader (.failed (.endOfFile position r.length)) r, s)
  seekFrom : ∀ origin position, c.target origin = position.toNat → ∀ hle : position.toNat ≤ c.content.length,
    s.step (.reader name (.seekFrom origin)) = s.keepReader name (.count position) (r.movedTo (c.jump hle))
  seekFrom_refused : ∀ origin position, c.target origin = position.toNat → c.content.length < position.toNat →
    s.step (.reader name (.seekFrom origin)) = (.ofReader (.streamFailed (.store (.endOfFile position r.length))) r, s)
  /-- A place before the start, or too far behind it for a count. -/
  seekFrom_noCount : ∀ origin, (∀ position : UInt64, c.target origin ≠ position.toNat) →
    s.step (.reader name (.seekFrom origin)) = (.ofReader (.streamFailed .seekBeforeStart) r, s)
  /-- What others do, with the store, with writers and with other readers, does not reach the reader. -/
  others : ∀ action, ¬action.Replaces name → ¬action.Uses name → (s.step action).2.readers.get? name = some r
  /-- Reads of any kinds, whatever others do in between, hand over the bytes from the cursor on, each once. -/
  reads : ∀ actions, (∀ a ∈ actions, a.OnlyReads name) →
    ∃ n, s.delivered name actions = c.next n ∧ (s.run actions).readers.get? name = some (r.movedTo (c.forward n))
  /-- If they get to the end, they hand over all of them. -/
  readsToEnd : ∀ actions, (∀ a ∈ actions, a.OnlyReads name) →
    ∀ after, (s.run actions).readers.get? name = some after → after.available = 0 →
      s.delivered name actions = c.content.drop c.place

section ReadsAs

variable {r : Reader} {c : Cursor} (hr : s.readers.get? name = some r) (h : r.Shows c)

include hr h

theorem step_skip (n : UInt64) : s.step (.reader name (.skip n)) =
    s.keepReader name (.count (UInt64.ofNat (c.reach n.toNat))) (r.movedTo (c.forward n.toNat)) := by
  rw [step_reader hr]
  simp only [readerStep, h.skip]

theorem step_read (target : Bytes) : s.step (.reader name (.read target)) =
    s.keepReader name (.filled (UInt64.ofNat (c.reach target.length))
      (c.next target.length ++ target.drop (c.reach target.length))) (r.movedTo (c.forward target.length)) := by
  rw [step_reader hr]
  simp only [readerStep, h.read]

theorem readsAs_of_shows : s.ReadsAs name r c where
  reader := hr
  content := h.content
  position := h.position
  within := h.within
  available := by rw [h.toNat_available, h.position, Cursor.left]
  readByte := by
    rw [step_reader hr]
    simp only [readerStep, h.readByte]
    cases c.rest with
    | nil => exact keepReader_self hr _
    | cons => rfl
  outOfBounds target offset len hlt := by
    rw [step_reader hr]
    simp only [readerStep, r.readInto_of_not (fun hbounds => Nat.not_le_of_lt hlt hbounds.1)]
    exact keepReader_self hr _
  readInto target offset len hcount hle := by
    rw [step_reader hr]
    simp only [readerStep, h.readInto hle (Nat.lt_of_le_of_lt hle hcount)]
  read := step_read hr h
  skip := step_skip hr h
  skip_eq_read n target htarget := by
    rw [step_skip hr h, step_read hr h, htarget, Cursor.forward_reach]
    rfl
  seek position hle := by
    rw [step_reader hr]
    simp only [readerStep, h.seek_of_le hle]
  seek_refused position hlt := by
    rw [step_reader hr]
    simp only [readerStep, h.seek_of_lt hlt]
    exact keepReader_self hr _
  seekFrom origin position htarget hle := by
    rw [step_reader hr]
    simp only [readerStep, h.seekFrom_of_le htarget hle]
  seekFrom_refused origin position htarget hlt := by
    rw [step_reader hr]
    simp only [readerStep, h.seekFrom_of_lt htarget hlt]
    exact keepReader_self hr _
  seekFrom_noCount origin htarget := by
    rw [step_reader hr]
    simp only [readerStep, h.seekFrom_of_ne htarget]
    exact keepReader_self hr _
  others action hkeep hother := (readers_step hkeep hother).trans hr
  reads _ := reads_run hr h
  readsToEnd actions hreads after hafter hend := by
    obtain ⟨n, hdelivered, hrun⟩ := reads_run hr h hreads
    obtain rfl : r.movedTo (c.forward n) = after := Option.some.inj (hrun.symm.trans hafter)
    have hnone : (c.forward n).left = 0 := by
      rw [← (h.movedTo (c.content_forward n)).toNat_available, hend]
      rfl
    rw [Cursor.left_forward, Cursor.reach] at hnone
    rw [hdelivered, ← Cursor.next_reach, Cursor.reach, Nat.min_eq_right (by omega), Cursor.next_left]
    rfl

end ReadsAs

/-- **A reader is a stable cursor over the bytes that it opened.** From the moment it was opened, and in all states that
any actions lead to, it is seen at some place in the content that the file had then. -/
theorem stable_cursor {s t : Session} {path name : String} {r : Reader}
    (hopen : s.step (.store (.openFile path name)) = (.reader r, t)) :
    ∃ content, s.store.readAll path = .ok content ∧ t.ReadsAs name r (Cursor.start content) ∧
      ∀ actions, (∀ a ∈ actions, ¬a.Replaces name) →
        ∃ c, c.content = content ∧ (t.run actions).ReadsAs name (r.movedTo c) c := by
  cases hreader : s.store.openFile path with
  | error e =>
    simp only [step, storeStep, hreader] at hopen
    cases hopen
  | ok reader =>
    simp only [step, storeStep, hreader] at hopen
    cases hopen
    obtain ⟨hstore, buffer, hbuffer, rfl⟩ := s.store.openFile_eq_ok_iff.1 hreader
    have hshows := Reader.shows_start (Key.ofPath path) buffer
    have hkept : ({ s with readers := s.readers.insert name (.start (Key.ofPath path) buffer) } : Session).readers.get?
        name = some (.start (Key.ofPath path) buffer) := Table.get?_insert_self _ _ _
    refine ⟨buffer.bytes, s.store.readAll_of_get? hstore hbuffer, readsAs_of_shows hkept hshows, ?_⟩
    intro actions hactions
    obtain ⟨c, hc, hrun⟩ := shows_run hkept hshows hactions
    exact ⟨c, hc, readsAs_of_shows hrun (hshows.movedTo hc)⟩

/-- A file is read in three parts while it is deleted, stored anew and dropped with the store. -/
theorem stable_cursor_deleted :
    ∃ (store : Store) (s : Session) (r : Reader) (actions : List Action), Store.ofCapacity 1000 512 = .ok store ∧
      s = ((start store).step (.store (.put "/a" [1, 2, 3, 4, 5]))).2 ∧
      (s.step (.store (.openFile "/a" "r"))).1 = .reader r ∧
      actions = [.reader "r" .readByte, .store (.delete "/a"), .reader "r" (.readInto [0, 0, 0, 0] 1 2),
        .store (.put "/a" [9]), .store .close, .reader "r" (.readInto [0] 1 1), .reader "r" (.read [0, 0, 0])] ∧
      (s.step (.store (.openFile "/a" "r"))).2.delivered "r" actions = [1, 2, 3, 4, 5] := by
  have hdelivered (s : Session) {r : Reader} (hopen : (s.step (.store (.openFile "/a" "r"))).1 = .reader r)
      (hfile : s.store.readAll "/a" = .ok [1, 2, 3, 4, 5]) (actions : List Action)
      (hreads : ∀ a ∈ actions, a.OnlyReads "r")
      (hend : (((s.step (.store (.openFile "/a" "r"))).2.run actions).readers.get? "r").map Reader.available = some 0) :
      (s.step (.store (.openFile "/a" "r"))).2.delivered "r" actions = [1, 2, 3, 4, 5] := by
    obtain ⟨content, hcontent, hcursor, -⟩ := stable_cursor (Prod.ext hopen rfl)
    obtain rfl := Except.ok.inj (hcontent.symm.trans hfile)
    obtain ⟨after, hafter, hnone⟩ := Option.map_eq_some_iff.1 hend
    exact hcursor.readsToEnd actions hreads after hafter hnone
  refine ⟨_, _, _, _, rfl, rfl, rfl, rfl, hdelivered _ rfl rfl _ ?_ ?_⟩
  · simp [Action.OnlyReads, Action.Replaces, ReaderAction.IsRead]
  · decide +kernel

end Session
end BoundedStore
