import BoundedStore.Proofs.Session.Event
import BoundedStore.Proofs.Writing.Draft

/-!
# What a writer publishes

Along a run the user can note for which keys space was granted and what each writer has taken. These notes determine
every writer.

* `Past` : the notes; `Past.record` enters an event;
* `Session.Follows` : reserved buffers are zeros of the size that was last granted, and each writer holds its draft;
  `follows_step` and `follows_run` keep it;
* `Session.Serves` : what is seen of a writer, its cursor, its answers to writes and the file it publishes;
* `published_content` : every writer of every run from a new store serves its draft.
-/

namespace BoundedStore

/-- What the user of a session has noted. -/
structure Past where
  /-- The sizes last granted, as long as no writer was made for them. -/
  pending : Table Key UInt64
  /-- What the writer last made under a name has taken. -/
  drafts : Table String Draft

namespace Past

def empty : Past := ⟨Table.empty, Table.empty⟩

/-- The notes after an event in a store of granularity `g`. -/
def record (g : Granularity) (p : Past) : Event → Past
  | .granted key size =>
    { p with pending := (p.pending.insert key.companion (g.companionSize size)).insert key size }
  | .made name key _ =>
    match p.pending.get? key with
    | some size => { pending := p.pending.erase key, drafts := p.drafts.insert name ⟨key, size, []⟩ }
    | none => p
  | .wrote name data =>
    match p.drafts.get? name with
    | some draft => { p with drafts := p.drafts.insert name (draft.append data) }
    | none => p
  | .stored key _ => { p with pending := (p.pending.erase key).erase key.companion }
  | .published .. | .lost _ | .moved .. | .deleted _ | .ended => p

end Past

namespace Session

/-- The notes along a run from a new store. -/
def past (s : Session) (actions : List Action) : Past :=
  (s.trace actions).foldl (Past.record s.store.granularity) Past.empty

/-- The notes agree with the session. -/
structure Follows (s : Session) (p : Past) : Prop where
  pending : s.store.closed = false → ∀ k, (s.store.reserved.get? k).map Buffer.bytes =
    (p.pending.get? k).map fun size => List.replicate size.toNat 0
  drafts : ∀ name w, s.writers.get? name = some w → ∃ d, p.drafts.get? name = some d ∧ w.Holds d

theorem follows_start {address : Address} {capacity : UInt64} {granularity : UInt32} {store : Store}
    (h : Store.build address capacity granularity = .ok store) : (start store).Follows Past.empty := by
  obtain ⟨g, -, rfl⟩ := Store.build_eq_ok_iff.1 h
  exact ⟨fun _ _ => rfl, fun _ _ hw => by cases hw⟩

/-! ## The notes follow every step -/

theorem Effect.granularity {s t : Session} {event : Option Event} (h : s.Effect t event) :
    t.store.granularity = s.store.granularity := by
  cases h with
  | granted _ _ _ _ hstore => rw [hstore, Store.granularity_granted]
  | stored _ _ _ _ _ hstore => rw [hstore, Store.granularity_stored]
  | ended hstore =>
    rw [hstore, Store.close]
    split <;> rfl
  | still hstore | made _ _ _ hstore | wrote _ _ hstore | published _ _ hstore | lost _ hstore | moved _ hstore
  | deleted _ hstore => rw [hstore]

theorem Follows.granted {s t : Session} {p : Past} (h : s.Follows p) {key : Key} {size : UInt64} {data sums : Buffer}
    (hdata : Buffer.allocate size = .ok data)
    (hsums : Buffer.allocate (s.store.granularity.companionSize size) = .ok sums) (hopen : s.store.closed = false)
    (hstore : t.store = s.store.granted key size data sums) (hwriters : t.writers = s.writers) :
    t.Follows (p.record s.store.granularity (.granted key size)) where
  pending _ k := by
    rw [hstore, Store.reserved_granted, Past.record]
    by_cases hkey : k = key
    · subst hkey
      rw [Table.get?_insert_self, Table.get?_insert_self, Option.map_some, Option.map_some,
        Buffer.allocate_eq_ok_iff.1 hdata]
    · rw [Table.get?_insert_of_ne _ _ hkey, Table.get?_insert_of_ne _ _ hkey]
      by_cases hcompanion : k = key.companion
      · subst hcompanion
        rw [Table.get?_insert_self, Table.get?_insert_self, Option.map_some, Option.map_some,
          Buffer.allocate_eq_ok_iff.1 hsums]
      · rw [Table.get?_insert_of_ne _ _ hcompanion, Table.get?_insert_of_ne _ _ hcompanion]
        exact h.pending hopen k
  drafts name w hw := h.drafts name w (hwriters ▸ hw)

theorem Follows.made {s t : Session} {p : Past} (h : s.Follows p) {name : String} {key : Key} {buffer : Buffer}
    (overwrite : Bool) (hbuffer : s.store.reserved.get? key = some buffer) (hopen : s.store.closed = false)
    (hstore : t.store = { s.store with reserved := s.store.reserved.erase key })
    (hwriters : t.writers = s.writers.insert name (Writer.start key buffer)) :
    t.Follows (p.record s.store.granularity (.made name key overwrite)) := by
  have hpending := h.pending hopen key
  rw [hbuffer, Option.map_some] at hpending
  obtain ⟨size, hsize, hbytes⟩ := Option.map_eq_some_iff.1 hpending.symm
  rw [Past.record, hsize]
  constructor
  · intro _ k
    rw [hstore]
    by_cases hkey : k = key
    · subst hkey
      rw [Table.get?_erase_self, Table.get?_erase_self]
      rfl
    · rw [Table.get?_erase_of_ne _ hkey, Table.get?_erase_of_ne _ hkey]
      exact h.pending hopen k
  · intro other w hw
    rw [hwriters] at hw
    by_cases hname : other = name
    · subst hname
      rw [Table.get?_insert_self] at hw ⊢
      cases hw
      exact ⟨_, rfl, Writer.holds_start key hbytes.symm⟩
    · rw [Table.get?_insert_of_ne _ _ hname] at hw ⊢
      exact h.drafts other w hw

theorem Follows.wrote {s t : Session} {p : Past} (h : s.Follows p) {name : String} {data : Bytes} {w v : Writer}
    (hw : s.writers.get? name = some w) (hv : w.write data = .ok v) (hstore : t.store = s.store)
    (hwriters : t.writers = s.writers.insert name v) : t.Follows (p.record s.store.granularity (.wrote name data)) := by
  obtain ⟨d, hd, hholds⟩ := h.drafts name w hw
  rw [Past.record, hd]
  constructor
  · rw [hstore]
    exact h.pending
  · intro other u hu
    rw [hwriters] at hu
    by_cases hname : other = name
    · subst hname
      rw [Table.get?_insert_self] at hu ⊢
      cases hu
      exact ⟨_, rfl, hholds.write hv⟩
    · rw [Table.get?_insert_of_ne _ _ hname] at hu ⊢
      exact h.drafts other u hu

theorem Follows.stored {s t : Session} {p : Past} (h : s.Follows p) {key : Key} {data : Bytes} {file sums : Buffer}
    (hopen : s.store.closed = false) (hstore : t.store = s.store.stored key data file sums)
    (hwriters : t.writers = s.writers) : t.Follows (p.record s.store.granularity (.stored key data)) where
  pending _ k := by
    rw [hstore, Store.reserved_stored, Past.record]
    by_cases hcompanion : k = key.companion
    · rw [hcompanion, Table.get?_erase_self, Table.get?_erase_self]
      rfl
    · rw [Table.get?_erase_of_ne _ hcompanion, Table.get?_erase_of_ne _ hcompanion]
      by_cases hkey : k = key
      · rw [hkey, Table.get?_erase_self, Table.get?_erase_self]
        rfl
      · rw [Table.get?_erase_of_ne _ hkey, Table.get?_erase_of_ne _ hkey]
        exact h.pending hopen k
  drafts name w hw := h.drafts name w (hwriters ▸ hw)

/-- A writer that is closed or dropped leaves the others as they were. -/
theorem Follows.erased {s t : Session} {p : Past} (h : s.Follows p) {name : String}
    (hclosed : t.store.closed = s.store.closed) (hreserved : t.store.reserved = s.store.reserved)
    (hwriters : t.writers = s.writers.erase name) : t.Follows p where
  pending := by
    rw [hclosed, hreserved]
    exact h.pending
  drafts other w hw := by
    rw [hwriters] at hw
    by_cases hname : other = name
    · rw [hname, Table.get?_erase_self] at hw
      cases hw
    · rw [Table.get?_erase_of_ne _ hname] at hw
      exact h.drafts other w hw

/-- Changes of the files alone are not noted. -/
theorem Follows.unnoted {s t : Session} {p : Past} (h : s.Follows p) (hclosed : t.store.closed = s.store.closed)
    (hreserved : t.store.reserved = s.store.reserved) (hwriters : t.writers = s.writers) : t.Follows p where
  pending := by
    rw [hclosed, hreserved]
    exact h.pending
  drafts name w hw := h.drafts name w (hwriters ▸ hw)

theorem Effect.follows {s t : Session} {event : Option Event} (he : s.Effect t event) {p : Past} (h : s.Follows p) :
    t.Follows (event.toList.foldl (Past.record s.store.granularity) p) := by
  cases he with
  | granted hdata hsums hopen _ hstore hwriters => exact h.granted hdata hsums hopen hstore hwriters
  | @made _ _ overwrite _ hbuffer hopen _ hstore hwriters => exact h.made overwrite hbuffer hopen hstore hwriters
  | wrote hw hv hstore hwriters => exact h.wrote hw hv hstore hwriters
  | stored _ hopen _ _ _ hstore hwriters => exact h.stored hopen hstore hwriters
  | published _ _ hstore hwriters | lost _ hstore hwriters =>
    exact h.erased (by rw [hstore]) (by rw [hstore]) hwriters
  | still hstore hwriters | moved _ hstore hwriters | deleted _ hstore hwriters =>
    exact h.unnoted (by rw [hstore]) (by rw [hstore]) hwriters
  | ended hstore hwriters =>
    -- a closed store makes no writers any more, so nothing is said of what is reserved in it
    refine ⟨fun hopen => ?_, fun name w hw => h.drafts name w (hwriters ▸ hw)⟩
    rw [hstore, Store.closed_close] at hopen
    cases hopen

theorem follows_step {s : Session} {p : Past} (h : s.Follows p) (action : Action) :
    (s.step action).2.Follows ((s.event? action).toList.foldl (Past.record s.store.granularity) p) :=
  (s.effect_step action).follows h

theorem follows_run {s : Session} {p : Past} (h : s.Follows p) (actions : List Action) :
    (s.run actions).Follows ((s.trace actions).foldl (Past.record s.store.granularity) p) := by
  induction actions generalizing s p with
  | nil => exact h
  | cons action actions ih =>
    have hrest := ih (follows_step h action)
    rw [(s.effect_step action).granularity] at hrest
    rw [trace, List.foldl_append]
    exact hrest

/-! ## What is seen of a writer -/

/-- The writer `w`, kept under `name`, does what its draft `d` says. A write is one of `write`, `writeSlice`,
`writeByte`, `send` and `sendAll`; its payload is what it asks to append. -/
structure Serves (s : Session) (name : String) (w : Writer) (d : Draft) : Prop where
  key : w.key = d.key
  capacity : w.capacity = d.size
  position : w.position.toNat = d.content.length
  within : w.position ≤ w.capacity
  remaining : w.remaining.toNat = w.capacity.toNat - w.position.toNat
  /-- A slice whose range is out of bounds is refused for that reason, whatever its length. -/
  outOfBounds : ∀ data offset len, ¬(WriterAction.writeSlice data offset len).InBounds →
    s.step (.writer name (.writeSlice data offset len)) =
      (.ofWriter (.failed (.invalidArgument (.outOfBounds offset len (Bytes.size data)))) w, s)
  /-- Any other write of some bytes fails if they do not fit behind the cursor, and then nothing changes. -/
  refused : ∀ action payload, action.payload? = some payload → action.InBounds → payload ≠ [] →
    w.capacity.toNat < w.position.toNat + payload.length →
      s.step (.writer name action) =
        (.ofWriter (action.refusal (.insufficientSpace (Bytes.size payload) w.remaining)) w, s)
  /-- Otherwise it succeeds and extends the draft. -/
  accepted : ∀ action payload, action.payload? = some payload → action.InBounds →
    payload = [] ∨ w.position.toNat + payload.length ≤ w.capacity.toNat →
      ∃ v, s.step (.writer name action) =
          (.ofWriter action.acceptance v, { s with writers := s.writers.insert name v }) ∧
        v.Holds (d.append payload)
  /-- A write of no bytes changes nothing. -/
  unchanged : ∀ action, action.payload? = some [] → (s.step (.writer name action)).2 = s
  /-- A writer that is closed in time leaves a file of the size it was made for: the draft, then zeros. -/
  published : ∀ t, s.step (.writer name .close) = (.done, t) →
    t.store.length w.key.text = .ok d.size ∧ t.store.readAll w.key.text = .ok d.file

section Serves

variable {s : Session} {name : String} {w : Writer} {d : Draft} (hw : s.writers.get? name = some w) (h : w.Holds d)

include hw

/-- A write in bounds comes down to `Writer.write`. -/
theorem step_write {action : WriterAction} {payload : Bytes} (hpayload : action.payload? = some payload)
    (hbounds : action.InBounds) :
    s.step (.writer name action) =
      s.keepWriter name w (w.write payload) action.acceptance action.refusal := by
  simp only [step, hw]
  cases action with
  | write | writeByte | send | sendAll =>
    cases hpayload
    rfl
  | writeSlice data offset len =>
    cases hpayload
    simp only [writerStep, Writer.writeSlice, checkBounds_size]
    rw [if_pos (show _ ∧ _ from hbounds)]
    rfl
  | inspect | close | drop => cases hpayload

theorem step_outOfBounds {data : Bytes} {offset len : UInt64}
    (hbounds : ¬(WriterAction.writeSlice data offset len).InBounds) :
    s.step (.writer name (.writeSlice data offset len)) =
      (.ofWriter (.failed (.invalidArgument (.outOfBounds offset len (Bytes.size data)))) w, s) := by
  simp only [step, hw, writerStep, Writer.writeSlice, checkBounds_size]
  rw [if_neg (show ¬(_ ∧ _) from hbounds)]
  rfl

theorem step_empty {action : WriterAction} (hpayload : action.payload? = some []) :
    (s.step (.writer name action)).2 = s := by
  by_cases hbounds : action.InBounds
  · rw [step_write hw hpayload hbounds, Writer.write_nil, keepWriter, Table.insert_of_get? hw]
  · cases action with
    | writeSlice data offset len => rw [step_outOfBounds hw hbounds]
    | _ => exact absurd trivial hbounds

include h

theorem step_close {t : Session} (hclose : s.step (.writer name .close) = (.done, t)) :
    t.store.length w.key.text = .ok d.size ∧ t.store.readAll w.key.text = .ok d.file := by
  simp only [step, hw, writerStep] at hclose
  cases hclosed : s.store.closed with
  | true =>
    rw [Store.commit_of_closed _ hclosed] at hclose
    cases hclose
  | false =>
    rw [Store.commit_of_open _ hclosed] at hclose
    cases hclose
    have hfile : (s.store.committed.insert w.key w.buffer).get? (Key.ofPath w.key.text) = some w.buffer := by
      rw [Key.ofPath_text, Table.get?_insert_self]
    have hlength := Store.length_of_get? { s.store with committed := s.store.committed.insert w.key w.buffer } hfile
    have hread :=
      Store.readAll_of_get? { s.store with committed := s.store.committed.insert w.key w.buffer } hclosed hfile
    rw [h.bytes] at hread
    exact ⟨hlength.trans (congrArg Except.ok h.capacity), hread⟩

theorem serves_of_holds : s.Serves name w d where
  key := h.key
  capacity := h.capacity
  position := h.position
  within := by
    rw [UInt64.le_iff_toNat_le, h.position, h.capacity]
    exact h.fits
  remaining := by rw [h.remaining, h.capacity, h.position]
  outOfBounds _ _ _ hbounds := step_outOfBounds hw hbounds
  refused action payload hpayload hbounds hsome hlong := by
    rw [h.capacity, h.position] at hlong
    rw [step_write hw hpayload hbounds, h.write_of_lt hsome hlong, keepWriter]
  accepted action payload hpayload hbounds hfits := by
    rw [h.capacity, h.position] at hfits
    have hroom : d.content.length + payload.length ≤ d.size.toNat := by
      rcases hfits with rfl | hle
      · exact h.fits
      · exact hle
    obtain ⟨v, hv, hholds⟩ := h.write_of_le hroom
    exact ⟨v, by rw [step_write hw hpayload hbounds, hv, keepWriter], hholds⟩
  unchanged action hpayload := step_empty hw hpayload
  published _ hclose := step_close hw h hclose

end Serves

/-- **A published file is what was written, then zeros.** In every state that a run from a new store reaches, each
writer has a draft in the notes of the run: the bytes of its successful writes, and the size last granted for its key
before it was made. The writer serves this draft. -/
theorem published_content {address : Address} {capacity : UInt64} {granularity : UInt32} {store : Store}
    (h : Store.build address capacity granularity = .ok store) (actions : List Action) {name : String} {w : Writer}
    (hw : ((start store).run actions).writers.get? name = some w) :
    ∃ d, ((start store).past actions).drafts.get? name = some d ∧ ((start store).run actions).Serves name w d := by
  obtain ⟨d, hd, hholds⟩ := (follows_run (follows_start h) actions).drafts name w hw
  exact ⟨d, hd, serves_of_holds hw hholds⟩

/-- Two writes of four are taken, and the file will end in two zeros. -/
theorem published_content_partly_written :
    ∃ (store : Store) (actions : List Action) (w : Writer), Store.ofCapacity 1000 512 = .ok store ∧
      actions = [.store (.reserve "/f" 5), .store (.create "f" false "w"), .writer "w" (.write [1, 2]),
        .writer "w" (.send [9, 9, 9, 9]), .writer "w" (.writeSlice [7, 8, 9] 2 2),
        .writer "w" (.writeSlice [7, 8, 9] 1 1)] ∧
      ((start store).run actions).writers.get? "w" = some w ∧
      ∃ d, ((start store).past actions).drafts.get? "w" = some d ∧ ((start store).run actions).Serves "w" w d ∧
        d.file = [1, 2, 8, 0, 0] := by
  have hbuild : Store.build Address.default 1000 512 = .ok _ := rfl
  refine ⟨_, _, ⟨Key.ofPath "/f", ⟨[1, 2, 8, 0, 0], by decide⟩, 3⟩, hbuild, rfl, ?_⟩
  refine have hw := ?written; ⟨hw, ?_⟩
  case written => decide +kernel
  obtain ⟨d, hd, hserves⟩ := published_content hbuild _ hw
  obtain rfl : d = ⟨Key.ofPath "/f", 5, [1, 2, 8]⟩ := Option.some.inj (hd.symm.trans (by decide +kernel))
  exact ⟨_, hd, hserves, by decide⟩

end Session
end BoundedStore
