import BoundedStore.Proofs.Reading.Stable

/-!
# Seeking

A seek adds a signed distance to a count, and two refusals are possible: the sum is no count, or it lies behind the end.
A sum that is no count may be too small or too large; but a reader that stands within its file is too near to the start
for the latter, so the first refusal always means a place before the start.

* `Reader.Shows.target_lt` : no distance leads beyond the counts;
* `Session.ReadersShow` : all readers stand within their files; every run keeps it (`readersShow_run`);
* `Session.SeeksTo` : the outcome of a seek by its target;
* `Session.seeks_exactly` : every reader of every run seeks by its target as an exact integer.
-/

namespace BoundedStore

/-! ## Targets and counts -/

namespace Reader.Shows

variable {r : Reader} {c : Cursor} (h : r.Shows c)

include h

/-- From within a file no distance leads beyond the counts. -/
theorem target_lt (origin : Origin) : c.target origin < 0x1_0000_0000_0000_0000 := by
  have hlength := h.length_lt
  have hplace := c.place_le
  cases origin with
  | start position =>
    have hposition := Word.toNat_lt position
    show (position.toNat : Int) < _
    omega
  | fromEnd distance =>
    have hdistance := Int64.toInt_lt distance
    show (c.content.length : Int) + distance.toInt < _
    omega
  | fromHere distance =>
    have hdistance := Int64.toInt_lt distance
    show (c.place : Int) + distance.toInt < _
    omega

/-- Only a place before the start is no count. -/
theorem exists_count_iff (origin : Origin) :
    (∃ position : UInt64, c.target origin = position.toNat) ↔ 0 ≤ c.target origin := by
  have hlt := h.target_lt origin
  constructor
  · rintro ⟨position, hposition⟩
    omega
  · intro hnonneg
    refine ⟨UInt64.ofNat (c.target origin).toNat, ?_⟩
    rw [UInt64.toNat_ofNat_of_lt' (show (c.target origin).toNat < 0x1_0000_0000_0000_0000 by omega)]
    omega

end Reader.Shows

namespace Session

/-! ## Readers stand within their files -/

/-- Each reader is at some place in its file, or behind its last byte. -/
def ReadersShow (s : Session) : Prop := ∀ name r, s.readers.get? name = some r → ∃ c, r.Shows c

theorem readersShow_start (store : Store) : (start store).ReadersShow := by
  intro name r hr
  cases hr

variable {s : Session} {name : String} {action : Action}

/-- Without a reader under a name none appears there, unless it is put there. -/
theorem readers_step_of_none (hnone : s.readers.get? name = none) (hkeep : ¬action.Replaces name) :
    (s.step action).2.readers.get? name = none := by
  by_cases huse : action.Uses name
  · cases action with
    | reader other readerAction =>
      obtain rfl : other = name := huse
      simp only [step, hnone]
    | copy other writer =>
      obtain rfl : other = name := huse
      simp only [step, hnone]
    | store | writer => exact absurd huse id
  · rw [readers_step hkeep huse, hnone]

/-- A reader that is put under a name is a new one or the copy of another. -/
theorem shows_of_replaces (h : s.ReadersShow) (hreplace : action.Replaces name) {r : Reader}
    (hr : (s.step action).2.readers.get? name = some r) : ∃ c, r.Shows c := by
  match action with
  | .store (.openFile path other) =>
    obtain rfl : other = name := hreplace
    simp only [step, storeStep] at hr
    split at hr
    · next reader hopen =>
      obtain ⟨-, buffer, -, rfl⟩ := s.store.openFile_eq_ok_iff.1 hopen
      rw [Table.get?_insert_self] at hr
      rw [← Option.some.inj hr]
      exact ⟨_, Reader.shows_start _ buffer⟩
    · exact h other r hr
  | .reader source (.duplicate other) =>
    obtain rfl : other = name := hreplace
    simp only [step] at hr
    split at hr
    · next reader hsource =>
      simp only [readerStep, Table.get?_insert_self] at hr
      rw [← Option.some.inj hr]
      exact h source reader hsource
    · exact h other r hr

theorem readersShow_step (h : s.ReadersShow) (action : Action) : (s.step action).2.ReadersShow := by
  intro name r hr
  by_cases hreplace : action.Replaces name
  · exact shows_of_replaces h hreplace hr
  cases hbefore : s.readers.get? name with
  | none =>
    rw [readers_step_of_none hbefore hreplace] at hr
    cases hr
  | some before =>
    obtain ⟨c, hc⟩ := h name before hbefore
    obtain ⟨d, hd, hafter⟩ := shows_step hbefore hc hreplace
    obtain rfl : before.movedTo d = r := Option.some.inj (hafter.symm.trans hr)
    exact ⟨d, hc.movedTo hd⟩

/-- **Along every run all readers stand within their files.** -/
theorem readersShow_run (h : s.ReadersShow) (actions : List Action) : (s.run actions).ReadersShow :=
  run_preserves (P := ReadersShow) (fun _ action h => readersShow_step h action) h actions

/-! ## What a seek does -/

/-- The reader `r`, kept under `name` over a file of `length` bytes, seeks to `target`, which may be any integer. -/
structure SeeksTo (s : Session) (name : String) (r : Reader) (origin : Origin) (length target : Int) : Prop where
  reached : 0 ≤ target → target ≤ length → ∃ position : UInt64, target = position.toNat ∧
    s.step (.reader name (.seekFrom origin)) = s.keepReader name (.count position) { r with position := position }
  /-- Nothing changes, neither the position nor anything else. -/
  before : target < 0 → ∃ e : StreamError, e.condition = .invalidInput ∧
    s.step (.reader name (.seekFrom origin)) = (.ofReader (.streamFailed e) r, s)
  behind : length < target → ∃ position : UInt64, target = position.toNat ∧ ∃ e : StreamError,
    e = .store (.endOfFile position r.length) ∧ e.condition = .unexpectedEnd ∧
      s.step (.reader name (.seekFrom origin)) = (.ofReader (.streamFailed e) r, s)
  /-- The start is named as the reason for nothing else. -/
  beforeStart_iff : (s.step (.reader name (.seekFrom origin))).1 = .ofReader (.streamFailed .seekBeforeStart) r ↔
    target < 0

section SeeksTo

variable {r : Reader} {c : Cursor} (hr : s.readers.get? name = some r) (h : r.Shows c) (origin : Origin)

include hr h

theorem step_seekFrom_of_neg (hneg : c.target origin < 0) :
    s.step (.reader name (.seekFrom origin)) = (.ofReader (.streamFailed .seekBeforeStart) r, s) := by
  apply (readsAs_of_shows hr h).seekFrom_noCount
  intro position
  omega

theorem step_seekFrom_of_le {position : UInt64} (htarget : c.target origin = position.toNat)
    (hle : position.toNat ≤ c.content.length) :
    s.step (.reader name (.seekFrom origin)) = s.keepReader name (.count position) { r with position := position } := by
  have hmoved : ({ r with position := position } : Reader) = r.movedTo (c.jump hle) := h.eq_movedTo rfl rfl
  rw [(readsAs_of_shows hr h).seekFrom origin position htarget hle, hmoved]

theorem seeksTo_of_shows : s.SeeksTo name r origin c.content.length (c.target origin) where
  reached hnonneg hle := by
    obtain ⟨position, htarget⟩ := (h.exists_count_iff origin).2 hnonneg
    exact ⟨position, htarget, step_seekFrom_of_le hr h origin htarget (by omega)⟩
  before hneg := ⟨.seekBeforeStart, rfl, step_seekFrom_of_neg hr h origin hneg⟩
  behind hlt := by
    obtain ⟨position, htarget⟩ := (h.exists_count_iff origin).2 (by omega)
    refine ⟨position, htarget, _, rfl, rfl, ?_⟩
    exact (readsAs_of_shows hr h).seekFrom_refused origin position htarget (by omega)
  beforeStart_iff := by
    constructor
    · intro hanswer
      apply Int.not_le.1
      intro hnonneg
      obtain ⟨position, htarget⟩ := (h.exists_count_iff origin).2 hnonneg
      rcases Nat.lt_or_ge c.content.length position.toNat with hlt | hle
      · rw [(readsAs_of_shows hr h).seekFrom_refused origin position htarget hlt] at hanswer
        cases hanswer
      · rw [step_seekFrom_of_le hr h origin htarget hle] at hanswer
        cases hanswer
    · intro hneg
      rw [step_seekFrom_of_neg hr h origin hneg]

end SeeksTo

/-- **A seek goes to the exact integer.** Every reader that is kept in a state that a run of any store reaches shows a
place in its file. The target of a seek is the distance, counted from its origin, as an integer. A target in the file or
at its end is reached; one before the start is an invalid input and one behind the end an unexpected end, whatever the
distance, and then nothing changes. -/
theorem seeks_exactly (store : Store) (actions : List Action) {name : String} {r : Reader}
    (hr : ((start store).run actions).readers.get? name = some r) :
    ∃ c, r.Shows c ∧ ∀ origin,
      ((start store).run actions).SeeksTo name r origin c.content.length (c.target origin) := by
  obtain ⟨c, hc⟩ := readersShow_run (readersShow_start store) actions name r hr
  exact ⟨c, hc, seeksTo_of_shows hr hc⟩

/-- The extreme distances from the second byte of a file: the least leads before the start, and the largest behind the
end. -/
theorem seeks_exactly_extremes :
    ∃ (store : Store) (actions : List Action) (r : Reader), Store.ofCapacity 1000 512 = .ok store ∧
      actions = [.store (.put "/a" [1, 2, 3, 4, 5]), .store (.openFile "/a" "r"), .reader "r" .readByte] ∧
      ((start store).run actions).readers.get? "r" = some r ∧
      (∃ e : StreamError, e.condition = .invalidInput ∧
        ((start store).run actions).step (.reader "r" (.seekFrom (.fromHere Int64.minValue))) =
          (.ofReader (.streamFailed e) r, (start store).run actions)) ∧
      ∃ e : StreamError, e.condition = .unexpectedEnd ∧
        ((start store).run actions).step (.reader "r" (.seekFrom (.fromHere Int64.maxValue))) =
          (.ofReader (.streamFailed e) r, (start store).run actions) := by
  refine ⟨_, _, ⟨Key.ofPath "/a", ⟨[1, 2, 3, 4, 5], by decide⟩, 1⟩, rfl, rfl, ?_⟩
  refine have hr := ?kept; ⟨hr, ?_⟩
  case kept => decide +kernel
  obtain ⟨c, hc, hseeks⟩ := seeks_exactly _ _ hr
  have hlength : c.content.length = 5 := by rw [← hc.content]; rfl
  have hplace : c.place = 1 := by rw [← hc.position]; rfl
  have hleast : c.target (.fromHere Int64.minValue) = 1 - 9223372036854775808 := by
    show (c.place : Int) + _ = _
    rw [hplace]
    rfl
  have hlargest : c.target (.fromHere Int64.maxValue) = 9223372036854775808 := by
    show (c.place : Int) + _ = _
    rw [hplace]
    rfl
  constructor
  · exact (hseeks _).before (by rw [hleast]; decide)
  · have hbehind : (c.content.length : Int) < c.target (.fromHere Int64.maxValue) := by
      rw [hlargest, hlength]
      decide
    obtain ⟨-, -, e, -, hcondition, hstep⟩ := (hseeks _).behind hbehind
    exact ⟨e, hcondition, hstep⟩

end Session
end BoundedStore
