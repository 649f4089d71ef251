import BoundedStore.Proofs.WholeFile.Preserve
import BoundedStore.Session.Step

/-!
# Spellings of a path

Many paths lead to one key. No operation on files tells them apart, but for the text in an error of `put` or `verify`,
which is the path as the user has written it.

* `StoreError.relabel` : an error with another path in this place;
* `Store.SameFor`, `Store.sameFor` : two paths to one key are the same to every operation, in every store, and by
  `sameFor_iff` only such paths are;
* `spellings_interchangeable` : the operations and the companions of two such paths;
* `Action.canonical`, `step_respelled`, `run_respelled` : steps and runs that differ in the spelling of paths only lead to
  the same session.
-/

namespace BoundedStore

/-! ## The path in an error -/

def Fault.relabel (label : String) : Fault → Fault
  | .truncatedHeader _ => .truncatedHeader label
  | .badMagic _ => .badMagic label
  | .zeroHeaderGranularity _ => .zeroHeaderGranularity label
  | fault => fault

/-- The error with `label` in place of the path that was given to `put` or `verify`. -/
def StoreError.relabel (label : String) : StoreError → StoreError
  | .alreadyExists _ => .alreadyExists label
  | .checksumMismatch _ chunk => .checksumMismatch label chunk
  | .invalidArgument fault => .invalidArgument (fault.relabel label)
  | e => e

@[simp] theorem Fault.relabel_relabel (first label : String) (fault : Fault) :
    (fault.relabel first).relabel label = fault.relabel label := by
  cases fault <;> rfl

@[simp] theorem StoreError.relabel_relabel (first label : String) (e : StoreError) :
    (e.relabel first).relabel label = e.relabel label := by
  cases e with
  | invalidArgument fault => exact congrArg invalidArgument (fault.relabel_relabel first label)
  | _ => rfl

theorem Companion.verify_relabel (first label : String) (data companion : Bytes) :
    verify label data companion = (verify first data companion).mapError (StoreError.relabel label) := by
  unfold verify
  split
  · split
    · split
      · rfl
      · split <;> rfl
    · rfl
  · rfl

/-! ## Paths to one key -/

namespace Store

/-- No operation tells `q` from `p`: the results are equal, and so are the stores after them. Only an error of `put` or
`verify` has `q` where it would have `p`. -/
structure SameFor (s : Store) (p q : String) : Prop where
  reserve : ∀ size, s.reserve q size = s.reserve p size
  /-- The writers have the same key, buffer and position. -/
  create : ∀ overwrite, s.create q overwrite = s.create p overwrite
  openFile : s.openFile q = s.openFile p
  source : ∀ destination, s.rename q destination = s.rename p destination
  destination : ∀ source, s.rename source q = s.rename source p
  delete : s.delete q = s.delete p
  isCommitted : s.isCommitted q = s.isCommitted p
  isReserved : s.isReserved q = s.isReserved p
  length : s.length q = s.length p
  readAll : s.readAll q = s.readAll p
  put : ∀ data, s.put q data = ((s.put p data).1.mapError (StoreError.relabel q), (s.put p data).2)
  verify : s.verify q = (s.verify p).mapError (StoreError.relabel q)
  hints : ∀ start len, s.hints q start len = s.hints p start len

variable (s : Store) {p q : String}

/-- The errors of reading name a key, not a path. -/
theorem relabel_of_readAll {path : String} {e : StoreError} (h : s.readAll path = .error e) (label : String) :
    e.relabel label = e := by
  cases hfile : s.openFile path with
  | ok r =>
    -- a file that can be opened is read
    obtain ⟨hopen, buffer, hbuffer, rfl⟩ := s.openFile_eq_ok_iff.1 hfile
    rw [s.readAll_of_get? hopen hbuffer] at h
    cases h
  | error cause =>
    rw [readAll, hfile] at h
    cases h
    unfold openFile at hfile
    split at hfile
    · cases hfile
      rfl
    · split at hfile
      · cases hfile
      · cases hfile
        rfl

theorem sameFor (h : Key.ofPath p = Key.ofPath q) : s.SameFor p q := by
  have hcompanion : companionPath q = companionPath p := by rw [companionPath, ← h, companionPath]
  have hreserve : ∀ size, s.reserve q size = s.reserve p size := fun size => by simp only [reserve, h]
  have hcreate : ∀ overwrite, s.create q overwrite = s.create p overwrite := fun _ => by simp only [create, h]
  have hopenFile : s.openFile q = s.openFile p := by simp only [openFile, h]
  have hcommitted : s.isCommitted q = s.isCommitted p := by simp only [isCommitted, h]
  have hreadAll : s.readAll q = s.readAll p := by rw [readAll, hopenFile, readAll]
  constructor
  · exact hreserve
  · exact hcreate
  · exact hopenFile
  · exact fun _ => by simp only [rename, h]
  · exact fun _ => by simp only [rename, h]
  · simp only [delete, h]
  · exact hcommitted
  · simp only [isReserved, h]
  · simp only [length, h]
  · exact hreadAll
  · intro data
    have hfill : ∀ overwrite (t : Store), t.fill q overwrite data = t.fill p overwrite data := by
      intro overwrite t
      simp only [fill, create, h]
    have hput : s.isCommitted p = false → s.put q data = s.put p data := by
      intro hnew
      simp only [put, hcommitted, hnew, hreserve, hfill, hcompanion, Bool.false_eq_true, if_false]
    cases hexists : s.isCommitted p with
    | true =>
      rw [s.put_of_isCommitted data hexists, s.put_of_isCommitted data (hcommitted.trans hexists)]
      rfl
    | false =>
      -- without the file, `put` gives no error
      have hresult := s.fst_put p data
      rw [hexists, if_neg (by decide)] at hresult
      rw [hput hexists]
      rcases hboth : s.put p data with ⟨result, after⟩
      rw [hboth] at hresult
      cases hresult
      rfl
  · rw [verify, hreadAll, hcompanion, verify]
    cases hdata : s.readAll p with
    | error e => exact congrArg Except.error (s.relabel_of_readAll hdata q).symm
    | ok data =>
      cases hsums : s.readAll (companionPath p) with
      | error e => exact congrArg Except.error (s.relabel_of_readAll hsums q).symm
      | ok companion => exact Companion.verify_relabel p q data companion
  · intro start len
    rw [hints, hcommitted, hints]

/-- **Two paths are the same to every operation in every store if and only if they have one key.** -/
theorem sameFor_iff {p q : String} : (∀ s : Store, s.SameFor p q) ↔ canonicalPath p = canonicalPath q := by
  rw [canonicalPath_eq_iff]
  constructor
  · intro h
    by_cases hkey : Key.ofPath q = Key.ofPath p
    · exact hkey.symm
    · -- a store whose only file is the one under the key of `p`
      have hsame := (h ⟨Address.default, ⟨1, by decide⟩, Ledger.empty 0, Table.empty,
        Table.empty.insert (Key.ofPath p) ⟨[], by decide⟩, false⟩).isCommitted
      rw [isCommitted, isCommitted, Table.contains, Table.contains, Table.get?_insert_of_ne _ _ hkey,
        Table.get?_insert_self, Table.get?_empty] at hsame
      cases hsame
  · exact fun h s => s.sameFor h

end Store

/-- Either of two paths may be used for the other. -/
structure Interchangeable (p q : String) : Prop where
  store : ∀ s : Store, s.SameFor p q
  companion : companionPath q = companionPath p
  /-- The companion can be had from the key as well as from any path to it. -/
  ofCanonical : companionPath (canonicalPath p) = companionPath p
  /-- The path of the companion is in turn the text of its key. -/
  canonical : canonicalPath (companionPath p) = companionPath p

/-- **All spellings of a path are interchangeable.** -/
theorem spellings_interchangeable {p q : String} (h : canonicalPath p = canonicalPath q) : Interchangeable p q := by
  have hkey := canonicalPath_eq_iff.1 h
  constructor
  · exact fun s => s.sameFor hkey
  · rw [companionPath, ← hkey, companionPath]
  · rw [companionPath, ofPath_canonicalPath, companionPath]
  · rw [canonicalPath, ofPath_companionPath, companionPath]

theorem spellings_interchangeable_scheme :
    canonicalPath "ramfs://local/dir//f" = canonicalPath "dir/./x/../f" ∧
      Interchangeable "ramfs://local/dir//f" "dir/./x/../f" := by
  have h : canonicalPath "ramfs://local/dir//f" = canonicalPath "dir/./x/../f" := by decide +kernel
  exact ⟨h, spellings_interchangeable h⟩

/-! ## Actions in another spelling -/

/-- The action with the text of its key for every path. -/
def StoreAction.canonical : StoreAction → StoreAction
  | .reserve path size => .reserve (canonicalPath path) size
  | .create path overwrite writer => .create (canonicalPath path) overwrite writer
  | .openFile path reader => .openFile (canonicalPath path) reader
  | .rename source destination => .rename (canonicalPath source) (canonicalPath destination)
  | .delete path => .delete (canonicalPath path)
  | .isCommitted path => .isCommitted (canonicalPath path)
  | .isReserved path => .isReserved (canonicalPath path)
  | .length path => .length (canonicalPath path)
  | .put path data => .put (canonicalPath path) data
  | .readAll path => .readAll (canonicalPath path)
  | .verify path => .verify (canonicalPath path)
  | .hints path start len => .hints (canonicalPath path) start len
  | action => action

/-- The path that an error is labelled with. -/
def StoreAction.label? : StoreAction → Option String
  | .put path _ | .verify path => some path
  | _ => none

def Action.canonical : Action → Action
  | .store action => .store action.canonical
  | action => action

def Action.label? : Action → Option String
  | .store action => action.label?
  | _ => none

theorem Action.label?_canonical (action : Action) : action.canonical.label? = action.label?.map canonicalPath := by
  cases action with
  | store action => cases action <;> rfl
  | _ => rfl

/-- The answer with another path in the place that the label has. -/
def Answer.relabel : Option String → Answer → Answer
  | some label, .failed e => .failed (e.relabel label)
  | _, answer => answer

@[simp] theorem Answer.relabel_relabel (first label : String) (answer : Answer) :
    (answer.relabel (some first)).relabel (some label) = answer.relabel (some label) := by
  cases answer with
  | failed e => exact congrArg failed (e.relabel_relabel first label)
  | _ => rfl

namespace Session

/-- The answers to a list of actions, one after the other. -/
def answers : Session → List Action → List Answer
  | _, [] => []
  | s, action :: actions => (s.step action).1 :: (s.step action).2.answers actions

theorem storeStep_canonical (s : Session) (action : StoreAction) :
    s.storeStep action =
      ((s.storeStep action.canonical).1.relabel action.label?, (s.storeStep action.canonical).2) := by
  have hsame : ∀ path, s.store.SameFor (canonicalPath path) path := fun path =>
    s.store.sameFor (ofPath_canonicalPath path)
  cases action with
  | reserve path size => simp only [storeStep, StoreAction.canonical, (hsame path).reserve]; rfl
  | create path overwrite writer => simp only [storeStep, StoreAction.canonical, (hsame path).create]; rfl
  | openFile path reader => simp only [storeStep, StoreAction.canonical, (hsame path).openFile]; rfl
  | rename source destination =>
    simp only [storeStep, StoreAction.canonical, (hsame source).source, (hsame destination).destination]
    rfl
  | delete path => simp only [storeStep, StoreAction.canonical, (hsame path).delete]; rfl
  | isCommitted path => simp only [storeStep, StoreAction.canonical, (hsame path).isCommitted]; rfl
  | isReserved path => simp only [storeStep, StoreAction.canonical, (hsame path).isReserved]; rfl
  | length path => simp only [storeStep, StoreAction.canonical, (hsame path).length]; rfl
  | put path data =>
    simp only [storeStep, StoreAction.canonical, (hsame path).put]
    rcases s.store.put (canonicalPath path) data with ⟨result, after⟩
    cases result <;> rfl
  | readAll path => simp only [storeStep, StoreAction.canonical, (hsame path).readAll]; rfl
  | verify path =>
    simp only [storeStep, StoreAction.canonical, (hsame path).verify]
    cases s.store.verify (canonicalPath path) <;> rfl
  | hints path start len => simp only [storeStep, StoreAction.canonical, (hsame path).hints]; rfl
  | list | companionSize | share | inspect | close => rfl

/-- A step is that of the canonical action, but for the label of its answer. -/
theorem step_canonical (s : Session) (action : Action) :
    s.step action = ((s.step action.canonical).1.relabel action.label?, (s.step action.canonical).2) := by
  cases action with
  | store action => exact s.storeStep_canonical action
  | _ => rfl

/-- **A step in another spelling** leads to the same session and gives the same answer, but for its label. -/
theorem step_respelled (s : Session) {first other : Action} (h : other.canonical = first.canonical) :
    s.step other = ((s.step first).1.relabel other.label?, (s.step first).2) := by
  have hlabel : other.label?.map canonicalPath = first.label?.map canonicalPath := by
    rw [← Action.label?_canonical, h, Action.label?_canonical]
  rw [s.step_canonical other, s.step_canonical first, h]
  cases hother : other.label? with
  | none =>
    rw [hother, Option.map_none] at hlabel
    rw [Option.map_eq_none_iff.1 hlabel.symm]
    rfl
  | some label =>
    rw [hother, Option.map_some] at hlabel
    obtain ⟨_, hfirst, -⟩ := Option.map_eq_some_iff.1 hlabel.symm
    rw [hfirst, Answer.relabel_relabel]

/-- **A run in another spelling** leads to the same session, and each answer is the same but for its label. -/
theorem run_respelled (s : Session) {actions others : List Action}
    (h : others.map Action.canonical = actions.map Action.canonical) :
    s.run others = s.run actions ∧
      s.answers others = List.zipWith (fun other answer => answer.relabel other.label?) others (s.answers actions) := by
  induction actions generalizing s others with
  | nil =>
    cases List.map_eq_nil_iff.1 h
    exact ⟨rfl, rfl⟩
  | cons first actions ih =>
    obtain ⟨other, others, rfl, hhead, htail⟩ := List.map_eq_cons_iff.1 h
    have hstep := s.step_respelled hhead
    obtain ⟨hrun, hanswers⟩ := ih (s.step first).2 htail
    rw [run, run, List.foldl_cons, List.foldl_cons, answers, answers, List.zipWith_cons_cons, hstep]
    exact ⟨hrun, congrArg _ hanswers⟩

end Session
end BoundedStore
