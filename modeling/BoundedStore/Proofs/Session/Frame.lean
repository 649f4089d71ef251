import BoundedStore.Proofs.Session.Event

/-!
# What an operation leaves alone

Every operation names a few keys, and nothing happens under the others.

* `Session.ownKeys` : the keys that an action names;
* `Store.SameAt` : two stores with the same file and the same reservation under a key;
* `sameAt_step`, `sameAt_run` : nothing changes under a key that is not named, in a step and in a run;
* `Session.Spares` : a list of actions that never names a key and does not close the store;
* `undisturbed` : the frame of every step, and what it means for a file that `put` has stored.
-/

namespace BoundedStore

/-! ## Two stores under one key -/

/-- Both stores have the same file and the same reservation under `key`, and both are open or both are closed. -/
structure Store.SameAt (s t : Store) (key : Key) : Prop where
  committed : t.committed.get? key = s.committed.get? key
  reserved : t.reserved.get? key = s.reserved.get? key
  closed : t.closed = s.closed

namespace Store.SameAt

theorem refl (s : Store) (key : Key) : s.SameAt s key := ⟨rfl, rfl, rfl⟩

theorem trans {s t u : Store} {key : Key} (h₁ : s.SameAt t key) (h₂ : t.SameAt u key) : s.SameAt u key :=
  ⟨h₂.committed.trans h₁.committed, h₂.reserved.trans h₁.reserved, h₂.closed.trans h₁.closed⟩

end Store.SameAt

/-! ## The keys that are named -/

/-- The keys under which an event changes something. -/
def Event.keys : Event → List Key
  | .granted key _ | .stored key _ => [key, key.companion]
  | .made _ key _ | .published _ key | .deleted key => [key]
  | .moved source destination => [source, destination]
  | .wrote .. | .lost _ | .ended => []

/-- The events that publish, move or remove files. -/
def Event.ChangesFiles : Event → Prop
  | .published .. | .moved .. | .deleted _ | .stored .. | .ended => True
  | .granted .. | .made .. | .wrote .. | .lost _ => False

/-- The operations that may publish, move or remove files. -/
def Action.ChangesFiles : Action → Prop
  | .store (.put ..) | .store (.rename ..) | .store (.delete _) | .store .close | .writer _ .close => True
  | _ => False

def Action.isClose : Action → Bool
  | .store .close => true
  | _ => false

namespace Session

/-- The keys that an action names. To close a writer names the key that it was made for. -/
def ownKeys (s : Session) : Action → List Key
  | .store (.reserve path _) | .store (.put path _) => [Key.ofPath path, (Key.ofPath path).companion]
  | .store (.create path _ _) | .store (.delete path) => [Key.ofPath path]
  | .store (.rename source destination) => [Key.ofPath source, Key.ofPath destination]
  | .writer name .close => (s.writers.get? name).toList.map Writer.key
  | _ => []

/-- None of the actions names `key` or closes the store. -/
def Spares (s : Session) (key : Key) : List Action → Prop
  | [] => True
  | action :: actions => action.isClose = false ∧ key ∉ s.ownKeys action ∧ (s.step action).2.Spares key actions

instance decidableSpares (s : Session) (key : Key) : (actions : List Action) → Decidable (s.Spares key actions)
  | [] => isTrue trivial
  | action :: actions =>
    have := decidableSpares (s.step action).2 key actions
    inferInstanceAs (Decidable (_ ∧ _ ∧ _))

variable {s t : Session} {event : Option Event} {action : Action} {key : Key}

/-! ## Events -/

theorem Effect.sameAt (h : s.Effect t event) (hopen : event ≠ some .ended) (hkey : ∀ e ∈ event, key ∉ e.keys) :
    s.store.SameAt t.store key := by
  cases h with
  | still hstore | wrote _ _ hstore | lost _ hstore =>
    rw [hstore]
    exact .refl _ _
  | granted _ _ _ _ hstore =>
    have hne := hkey _ rfl
    simp only [Event.keys, List.mem_cons, List.not_mem_nil, or_false, not_or] at hne
    rw [hstore]
    refine ⟨by rw [Store.committed_granted], ?_, Store.closed_granted _ _ _ _ _⟩
    rw [Store.get?_reserved_granted, if_neg hne.1, if_neg hne.2]
  | made _ _ _ hstore =>
    rw [hstore]
    exact ⟨rfl, Table.get?_erase_of_ne _ (by simpa [Event.keys] using hkey _ rfl), rfl⟩
  | published _ _ hstore =>
    rw [hstore]
    exact ⟨Table.get?_insert_of_ne _ _ (by simpa [Event.keys] using hkey _ rfl), rfl, rfl⟩
  | moved _ hstore =>
    have hne := hkey _ rfl
    simp only [Event.keys, List.mem_cons, List.not_mem_nil, or_false, not_or] at hne
    rw [hstore]
    exact ⟨(Table.get?_insert_of_ne _ _ hne.2).trans (Table.get?_erase_of_ne _ hne.1), rfl, rfl⟩
  | deleted _ hstore =>
    rw [hstore]
    exact ⟨Table.get?_erase_of_ne _ (by simpa [Event.keys] using hkey _ rfl), rfl, rfl⟩
  | stored _ _ _ _ _ hstore =>
    have hne := hkey _ rfl
    simp only [Event.keys, List.mem_cons, List.not_mem_nil, or_false, not_or] at hne
    rw [hstore]
    refine ⟨Store.get?_stored_of_ne _ _ _ _ _ hne.1 hne.2, ?_, Store.closed_stored _ _ _ _ _⟩
    rw [Store.reserved_stored, Table.get?_erase_of_ne _ hne.2, Table.get?_erase_of_ne _ hne.1]
  | ended => exact absurd rfl hopen

theorem Effect.committed_eq (h : s.Effect t event) (hfiles : ∀ e ∈ event, ¬e.ChangesFiles) :
    t.store.committed = s.store.committed := by
  cases h with
  | still hstore | made _ _ _ hstore | wrote _ _ hstore | lost _ hstore => rw [hstore]
  | granted _ _ _ _ hstore => rw [hstore, Store.committed_granted]
  | published | moved | deleted | stored | ended => exact absurd trivial (hfiles _ rfl)

/-! ## Events come of actions that name their keys -/

theorem mem_ownKeys {e : Event} (h : s.Causes action e) (hkey : key ∈ e.keys) : key ∈ s.ownKeys action := by
  cases h with
  | granted | made | moved | deleted | stored => exact hkey
  | published hw => simpa [ownKeys, hw, Event.keys] using hkey
  | ended | closedLate | dropped | wrote | copied => exact absurd hkey List.not_mem_nil

theorem isClose_of_ended (h : s.Causes action .ended) : action.isClose = true := by
  cases h
  rfl

theorem changesFiles_of_event {e : Event} (h : s.Causes action e) (hfiles : e.ChangesFiles) : action.ChangesFiles := by
  cases h with
  | moved | deleted | stored | ended | published => trivial
  | granted | made | closedLate | dropped | wrote | copied => exact absurd hfiles id

/-! ## Steps and runs -/

/-- **A step changes nothing under a key that it does not name**, unless it closes the store. -/
theorem sameAt_step (hopen : action.isClose = false) (hkey : key ∉ s.ownKeys action) :
    s.store.SameAt (s.step action).2.store key := by
  apply (s.effect_step action).sameAt
  · intro hended
    rw [isClose_of_ended (causes_of_event hended)] at hopen
    cases hopen
  · intro e he hmem
    exact hkey (mem_ownKeys (causes_of_event he) hmem)

theorem committed_step (hfiles : ¬action.ChangesFiles) : (s.step action).2.store.committed = s.store.committed :=
  (s.effect_step action).committed_eq fun _ he h => hfiles (changesFiles_of_event (causes_of_event he) h)

/-- **A run that spares a key changes nothing under it.** -/
theorem sameAt_run {actions : List Action} (h : s.Spares key actions) :
    s.store.SameAt (s.run actions).store key := by
  induction actions generalizing s with
  | nil => exact .refl _ _
  | cons action actions ih =>
    obtain ⟨hopen, hkey, hrest⟩ := h
    exact (sameAt_step hopen hkey).trans (ih hrest)

/-! ## What `put` has stored -/

/-- A stored file is read back and agrees with its companion for as long as both keys are spared. -/
theorem stored_lasts (s : Session) {path : String} {data : Bytes}
    (hput : (s.step (.store (.put path data))).1 = .flag true) {actions : List Action}
    (hfile : (s.step (.store (.put path data))).2.Spares (Key.ofPath path) actions)
    (hcompanion : (s.step (.store (.put path data))).2.Spares (Key.ofPath path).companion actions) :
    ((s.step (.store (.put path data))).2.run actions).store.readAll path = .ok data ∧
      ((s.step (.store (.put path data))).2.run actions).store.verify path = .ok () := by
  have hfile := sameAt_run hfile
  have hcompanion := sameAt_run hcompanion
  revert hput hfile hcompanion
  rcases s.store.put_cases path data with ⟨-, h⟩ | ⟨-, -, h⟩ | ⟨file, sums, -, -, hopen, -, hbytes, hsums, -, h⟩
  · simp [step, storeStep, h]
  · simp [step, storeStep, h]
  · simp only [step, storeStep, h]
    intro _ hfile hcompanion
    have hstill := hfile.closed
    have hself := hfile.committed
    have hbeside := hcompanion.committed
    rw [Store.closed_stored, hopen] at hstill
    rw [Store.get?_stored_self] at hself
    rw [Store.get?_stored_companion] at hbeside
    exact ⟨by rw [Store.readAll_of_get? _ hstill hself, hbytes],
      by rw [Store.verify_of_get? _ hstill hself hbeside, hbytes, hsums, Companion.verify_encode]⟩

/-- What the operations on a session leave alone. -/
structure Undisturbed (s : Session) : Prop where
  /-- Under a key that an operation does not name it neither changes the file nor what is reserved. -/
  sameAt : ∀ action key, action.isClose = false → key ∉ s.ownKeys action → s.store.SameAt (s.step action).2.store key
  /-- To reserve, to make, fill or drop a writer, to read and to ask changes no file at all. -/
  committed : ∀ action, ¬action.ChangesFiles → (s.step action).2.store.committed = s.store.committed
  /-- What is stored lasts until its key or the key of its companion is named, or the store is closed. -/
  stored : ∀ path data, (s.step (.store (.put path data))).1 = .flag true → ∀ actions,
    (s.step (.store (.put path data))).2.Spares (Key.ofPath path) actions →
    (s.step (.store (.put path data))).2.Spares (Key.ofPath path).companion actions →
      ((s.step (.store (.put path data))).2.run actions).store.readAll path = .ok data ∧
        ((s.step (.store (.put path data))).2.run actions).store.verify path = .ok ()

/-- **No operation disturbs files that it does not name**, in any state of a session. -/
theorem undisturbed (s : Session) : s.Undisturbed where
  sameAt _ _ := sameAt_step
  committed _ := committed_step
  stored _ _ hput _ := s.stored_lasts hput

/-- A stored file among neighbours whose companions come, move and go. -/
theorem undisturbed_neighbours :
    ∃ (store : Store) (actions : List Action), Store.ofCapacity 1000 512 = .ok store ∧
      actions = [.store (.put "/.b.crc" [7]), .store (.reserve "/b" 3), .store (.create "ram://x/b" false "w"),
        .writer "w" (.write [9]), .store (.rename "/.b.crc" "/c"), .writer "w" .close, .store (.delete "/c"),
        .store (.openFile "/a" "r"), .reader "r" .readToEnd] ∧
      (((start store).step (.store (.put "/a" [1, 2]))).2.run actions).store.readAll "/a" = .ok [1, 2] ∧
      (((start store).step (.store (.put "/a" [1, 2]))).2.run actions).store.verify "/a" = .ok () := by
  refine ⟨_, _, rfl, rfl, ?_⟩
  refine (undisturbed _).stored "/a" [1, 2] ?_ _ ?_ ?_
  · rfl
  · decide +kernel
  · decide +kernel

end Session
end BoundedStore
