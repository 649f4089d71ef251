import BoundedStore.Proofs.Session.Event
import Mathlib.Data.List.Induction

/-!
# Where a writer comes from, and what it replaces

Whether a file exists is checked when a writer is made; when it is closed, its file goes over whatever has been
published under its key in the meantime.

* `exists_origin` : every writer of a run was made by one of its steps and has been kept since;
* `exists_landing` : a key that comes to have a file was published, moved to or stored;
* `close_replaces_only_newer` : without `put` and `overwrite`, a writer that is closed replaces no file that was there
  when it was made;
* `close_replaces_newer` : it does replace one that was published since.
-/

namespace BoundedStore

/-- After the event the writer that was kept under `name` before is gone. -/
def Event.Ends (name : String) : Event → Prop
  | .made n _ _ | .published n _ | .lost n => n = name
  | _ => False

/-- The event puts a file under `key`. -/
def Event.Lands (key : Key) : Event → Prop
  | .published _ k => k = key
  | .moved _ destination => destination = key
  | .stored k _ => k = key ∨ k.companion = key
  | _ => False

/-- The action is no `put`, and makes no writer with `overwrite`. -/
def Action.Careful : Action → Prop
  | .store (.put ..) => False
  | .store (.create _ overwrite _) => overwrite = false
  | _ => True

/-- Such actions lead to such events. -/
def Event.Careful : Event → Prop
  | .stored .. => False
  | .made _ _ overwrite => overwrite = false
  | _ => True

namespace Session

variable {s t : Session} {event : Option Event} {action : Action}

/-! ## What one step does -/

/-- A writer that is there after a step was there before and is kept by the step, or the step has made it. -/
theorem Effect.writer_cases (h : s.Effect t event) {name : String} {w : Writer}
    (hw : t.writers.get? name = some w) :
    (∃ v, s.writers.get? name = some v ∧ v.key = w.key ∧ ∀ e ∈ event.toList, ¬e.Ends name) ∨
      ∃ overwrite, event = some (.made name w.key overwrite) := by
  cases h with
  | @made other key overwrite buffer _ _ _ _ hwriters =>
    rw [hwriters] at hw
    by_cases hname : name = other
    · subst hname
      rw [Table.get?_insert_self] at hw
      cases hw
      exact Or.inr ⟨overwrite, rfl⟩
    · rw [Table.get?_insert_of_ne _ _ hname] at hw
      refine Or.inl ⟨w, hw, rfl, ?_⟩
      intro e he hends
      cases List.mem_singleton.1 he
      exact hname (Eq.symm hends)
  | @wrote other data u v hu hv _ hwriters =>
    rw [hwriters] at hw
    have hkept : ∀ e ∈ (some (Event.wrote other data)).toList, ¬e.Ends name := by
      intro e he hends
      cases List.mem_singleton.1 he
      exact hends
    by_cases hname : name = other
    · subst hname
      rw [Table.get?_insert_self] at hw
      cases hw
      exact Or.inl ⟨u, hu, (Writer.key_write hv).symm, hkept⟩
    · rw [Table.get?_insert_of_ne _ _ hname] at hw
      exact Or.inl ⟨w, hw, rfl, hkept⟩
  | @published other u _ _ _ hwriters | @lost other u _ _ hwriters =>
    rw [hwriters] at hw
    by_cases hname : name = other
    · rw [hname, Table.get?_erase_self] at hw
      cases hw
    · rw [Table.get?_erase_of_ne _ hname] at hw
      refine Or.inl ⟨w, hw, rfl, ?_⟩
      intro e he hends
      cases List.mem_singleton.1 he
      exact hname (Eq.symm hends)
  | still _ hwriters =>
    rw [hwriters] at hw
    exact Or.inl ⟨w, hw, rfl, fun e he => absurd he (List.not_mem_nil)⟩
  | granted _ _ _ _ _ hwriters | moved _ _ hwriters | deleted _ _ hwriters | stored _ _ _ _ _ _ hwriters
  | ended _ hwriters =>
    rw [hwriters] at hw
    refine Or.inl ⟨w, hw, rfl, ?_⟩
    intro e he hends
    cases List.mem_singleton.1 he
    exact hends

/-- A file appears under a key only by an event that puts it there. -/
theorem Effect.lands (h : s.Effect t event) {key : Key} (hbefore : s.store.committed.get? key = none)
    (hafter : t.store.committed.get? key ≠ none) : ∃ e ∈ event.toList, e.Lands key := by
  cases h with
  | @published name w _ _ hstore _ =>
    refine ⟨_, List.mem_singleton_self _, ?_⟩
    by_contra hkey
    rw [hstore, Table.get?_insert_of_ne _ _ (Ne.symm hkey)] at hafter
    exact hafter hbefore
  | @moved source destination buffer _ hstore _ =>
    refine ⟨_, List.mem_singleton_self _, ?_⟩
    by_contra hkey
    rw [hstore, Table.get?_insert_of_ne _ _ (Ne.symm hkey)] at hafter
    by_cases hsource : key = source
    · exact hafter (hsource ▸ Table.get?_erase_self _ _)
    · exact hafter ((Table.get?_erase_of_ne _ hsource).trans hbefore)
  | @deleted other buffer _ hstore _ =>
    rw [hstore] at hafter
    by_cases hkey : key = other
    · exact absurd (hkey ▸ Table.get?_erase_self _ _) hafter
    · exact absurd ((Table.get?_erase_of_ne _ hkey).trans hbefore) hafter
  | @stored other data file sums _ _ _ _ _ hstore _ =>
    refine ⟨_, List.mem_singleton_self _, ?_⟩
    by_contra hkey
    obtain ⟨hself, hcompanion⟩ := not_or.1 hkey
    rw [hstore, Store.get?_stored_of_ne _ _ _ _ _ (Ne.symm hself) (Ne.symm hcompanion)] at hafter
    exact hafter hbefore
  | granted _ _ _ _ hstore _ =>
    rw [hstore, Store.committed_granted] at hafter
    exact absurd hbefore hafter
  | ended hstore _ =>
    rw [hstore] at hafter
    exact absurd (Store.get?_close_eq_none _ hbefore) hafter
  | still hstore _ | made _ _ _ hstore _ | wrote _ _ hstore _ | lost _ hstore _ =>
    rw [hstore] at hafter
    exact absurd hbefore hafter

/-! ## What a run does -/

/-- **Every writer was made by a step of the run** and has been kept ever since. -/
theorem exists_origin (s : Session) (hnone : s.writers = Table.empty) (actions : List Action) {name : String}
    {w : Writer} (hw : (s.run actions).writers.get? name = some w) :
    ∃ before action after overwrite, actions = before ++ action :: after ∧
      (s.run before).event? action = some (.made name w.key overwrite) ∧
      ∀ e ∈ ((s.run before).step action).2.trace after, ¬e.Ends name := by
  -- from the last step backwards: it has made the writer, or the writer is one of the run before it
  induction actions using List.reverseRecOn generalizing w with
  | nil =>
    rw [show s.run [] = s from rfl, hnone] at hw
    cases hw
  | append_singleton actions last ih =>
    rw [run_append] at hw
    rcases ((s.run actions).effect_step last).writer_cases hw with ⟨v, hv, hkey, hkept⟩ | ⟨overwrite, hmade⟩
    · obtain ⟨before, action, after, overwrite, rfl, hmade, hkeptBefore⟩ := ih hv
      refine ⟨before, action, after ++ [last], overwrite, by simp, hkey ▸ hmade, ?_⟩
      rw [trace_append]
      intro e he
      rcases List.mem_append.1 he with he | he
      · exact hkeptBefore e he
      · rw [run_append] at hkept
        rw [trace, trace, List.append_nil] at he
        exact hkept e he
    · exact ⟨actions, last, [], overwrite, rfl, hmade, by simp [trace]⟩

/-- **A key that comes to have a file got it by an event of the run.** -/
theorem exists_landing (s : Session) (actions : List Action) {key : Key}
    (hbefore : s.store.committed.get? key = none) (hafter : (s.run actions).store.committed.get? key ≠ none) :
    ∃ e ∈ s.trace actions, e.Lands key := by
  induction actions generalizing s with
  | nil => exact absurd hbefore hafter
  | cons action actions ih =>
    cases hstep : (s.step action).2.store.committed.get? key with
    | none =>
      obtain ⟨e, he, hlands⟩ := ih _ hstep hafter
      exact ⟨e, List.mem_append_right _ he, hlands⟩
    | some buffer =>
      obtain ⟨e, he, hlands⟩ := (s.effect_step action).lands hbefore (by rw [hstep]; exact Option.some_ne_none _)
      exact ⟨e, List.mem_append_left _ he, hlands⟩

/-! ## Runs without `put` and `overwrite` -/

theorem careful_event (h : action.Careful) {e : Event} (he : s.event? action = some e) : e.Careful := by
  cases causes_of_event he with
  | made => exact h
  | stored => exact absurd h id
  | granted | moved | deleted | ended | published | closedLate | dropped | wrote | copied => trivial

theorem careful_trace (s : Session) {actions : List Action} (h : ∀ a ∈ actions, a.Careful) :
    ∀ e ∈ s.trace actions, e.Careful := by
  induction actions generalizing s with
  | nil => exact fun e he => absurd he List.not_mem_nil
  | cons action actions ih =>
    intro e he
    rcases List.mem_append.1 he with he | he
    · exact careful_event (h action List.mem_cons_self) (Option.mem_toList.1 he)
    · exact ih _ (fun a ha => h a (List.mem_cons_of_mem _ ha)) e he

/-- What is put under a key without `put` was published or moved there. -/
theorem published_or_moved {e : Event} {key : Key} (hcareful : e.Careful) (hlands : e.Lands key) :
    (∃ other, e = .published other key) ∨ ∃ source, e = .moved source key := by
  cases e with
  | published other k =>
    cases (hlands : k = key)
    exact Or.inl ⟨other, rfl⟩
  | moved source destination =>
    cases (hlands : destination = key)
    exact Or.inr ⟨source, rfl⟩
  | stored => exact absurd hcareful id
  | granted | made | wrote | lost | deleted | ended => exact absurd hlands id

/-- When a writer is made without `overwrite`, there is no file under its key. -/
theorem get?_of_made {name : String} {key : Key} (h : s.event? action = some (.made name key false)) :
    s.store.committed.get? key = none ∧ (s.step action).2.store.committed.get? key = none := by
  have heffect := s.effect_step action
  rw [h] at heffect
  cases heffect with
  | made _ _ hfree hstore _ =>
    have hnone : s.store.committed.get? key = none := by
      rw [← Table.contains_eq_false_iff]
      cases hexists : s.store.committed.contains key with
      | false => rfl
      | true => cases hfree hexists
    exact ⟨hnone, by rw [hstore]; exact hnone⟩

/-- The writer under `name`, at the end of the actions, was made for `key` by one of them and has been kept since. When
it was made there was no file under `key`; if there is one now, then another writer has published it in the meantime, or
it was moved there. -/
def ReplacesOnlyNewer (s : Session) (actions : List Action) (name : String) (key : Key) : Prop :=
  ∃ before action after, actions = before ++ action :: after ∧
    (s.run before).event? action = some (.made name key false) ∧
    (∀ e ∈ ((s.run before).step action).2.trace after, ¬e.Ends name) ∧
    (s.run before).store.committed.contains key = false ∧
    ((s.run actions).store.committed.contains key = true →
      ∃ e ∈ ((s.run before).step action).2.trace after,
        (∃ other, other ≠ name ∧ e = .published other key) ∨ ∃ source, e = .moved source key)

/-- **A writer replaces no file that was there when it was made**, in every run without `put` and `overwrite` and for
every writer that is closed in time. -/
theorem close_replaces_only_newer (store : Store) {actions : List Action} (hcareful : ∀ a ∈ actions, a.Careful)
    {name : String} {key : Key}
    (hclose : ((start store).run actions).event? (.writer name .close) = some (.published name key)) :
    (start store).ReplacesOnlyNewer actions name key := by
  have heffect := ((start store).run actions).effect_step (.writer name .close)
  rw [hclose] at heffect
  cases heffect with
  | @published _ w hw _ _ _ =>
    obtain ⟨before, action, after, overwrite, rfl, hmade, hkept⟩ := exists_origin (start store) rfl actions hw
    obtain rfl : overwrite = false := careful_event (hcareful action (by simp)) hmade
    obtain ⟨hnone, hstill⟩ := get?_of_made hmade
    refine ⟨before, action, after, rfl, hmade, hkept, Table.contains_eq_false_iff.2 hnone, ?_⟩
    intro hexists
    rw [run_append] at hexists
    obtain ⟨e, he, hlands⟩ := exists_landing _ after hstill (Table.get?_ne_none_of_contains hexists)
    refine ⟨e, he, ?_⟩
    rcases published_or_moved (careful_trace _ (fun a ha => hcareful a (by simp [ha])) e he) hlands with
      ⟨other, rfl⟩ | hmoved
    · exact Or.inl ⟨other, fun hother => hkept _ he hother, rfl⟩
    · exact Or.inr hmoved

/-- Two writers for one key, after the first one is closed. -/
theorem close_replaces_only_newer_second_writer :
    ∃ (store : Store) (actions : List Action), Store.ofCapacity 1000 512 = .ok store ∧
      actions = [.store (.reserve "/a" 1), .store (.create "/a" false "first"), .store (.reserve "/a" 1),
        .store (.create "/a" false "second"), .writer "first" .close] ∧
      (∀ a ∈ actions, a.Careful) ∧
      ((start store).run actions).event? (.writer "second" .close) = some (.published "second" (Key.ofPath "/a")) ∧
      (start store).ReplacesOnlyNewer actions "second" (Key.ofPath "/a") := by
  refine ⟨_, _, rfl, rfl, ?_⟩
  refine have hcareful := ?careful; have hclose := ?close
    ⟨hcareful, hclose, close_replaces_only_newer _ hcareful hclose⟩
  case careful => simp [Action.Careful]
  case close => decide +kernel

/-- The second of two writers for one key replaces what the first one has published. -/
theorem close_replaces_newer :
    ∃ (store : Store) (actions : List Action) (file : Buffer), Store.ofCapacity 1000 512 = .ok store ∧
      actions = [.store (.reserve "/a" 1), .store (.create "/a" false "first"), .store (.reserve "/a" 1),
        .store (.create "/a" false "second"), .writer "first" (.write [120]), .writer "first" .close] ∧
      (∀ a ∈ actions, a.Careful) ∧
      ((start store).run actions).event? (.writer "second" .close) = some (.published "second" (Key.ofPath "/a")) ∧
      ((start store).run actions).store.committed.get? (Key.ofPath "/a") = some file ∧
      (((start store).run actions).step (.writer "second" .close)).2.store.committed.get? (Key.ofPath "/a") ≠
        some file := by
  refine ⟨_, _, ⟨[120], by decide⟩, rfl, rfl, by simp [Action.Careful], ?_, ?_, ?_⟩
  · decide +kernel
  · decide +kernel
  · decide +kernel

end Session
end BoundedStore
