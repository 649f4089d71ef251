import BoundedStore.Proofs.Writing.Published
import Mathlib.Data.List.Induction

/-!
# When a writer can be made

Whether `create` succeeds is read off the events of the run so far.

* `Event.Covers` : the event grants space for a key, as that of a file or as that of a companion;
* `Event.Takes` : the event uses up what was granted for a key;
* `Since` : events of one kind since an event of another; `since_concat` unfolds it from its last event;
* `Covered`, `Waiting` : space was granted since it was last used up, and the size that was granted last;
* `pending_iff_waiting` : the notes of a run are what waits after its events;
* `creates_as_granted` : when a writer is made, what it is like, and that each grant makes at most one.
-/

namespace BoundedStore

/-- The event grants `size` bytes for `key`. -/
def Event.Covers (g : Granularity) (key : Key) (size : UInt64) : Event → Prop
  | .granted k n => (k = key ∧ n = size) ∨ (k.companion = key ∧ g.companionSize n = size)
  | _ => False

/-- What was granted for `key` is used up. To store a file is to reserve space for it and its companion and to make
both writers. -/
def Event.Takes (key : Key) : Event → Prop
  | .made _ k _ => k = key
  | .stored k _ => k = key ∨ k.companion = key
  | _ => False

namespace Event

theorem Covers.unique {g : Granularity} {key : Key} {m n : UInt64} {e : Event} (hm : e.Covers g key m)
    (hn : e.Covers g key n) : m = n := by
  cases e with
  | granted k size =>
    rcases hm with ⟨hk, rfl⟩ | ⟨hk, rfl⟩ <;> rcases hn with ⟨hl, rfl⟩ | ⟨hl, rfl⟩
    · rfl
    · exact absurd (hl.trans hk.symm) k.companion_ne
    · exact absurd (hk.trans hl.symm) k.companion_ne
    · rfl
  | _ => exact absurd hm id

theorem Covers.not_takes {g : Granularity} {key : Key} {size : UInt64} {e : Event} (h : e.Covers g key size) :
    ¬e.Takes key := by
  cases e with
  | granted => exact id
  | _ => exact absurd h id

end Event

/-! ## Since -/

/-- There was an event of `p`, and since then only events of `q`. -/
def Since (q p : Event → Prop) (trace : List Event) : Prop :=
  ∃ before e after, trace = before ++ e :: after ∧ p e ∧ ∀ x ∈ after, q x

section Since

variable {q p : Event → Prop}

theorem not_since_nil : ¬Since q p [] := by
  rintro ⟨before, e, after, h, -, -⟩
  exact List.append_ne_nil_of_right_ne_nil before (List.cons_ne_nil e after) h.symm

theorem since_concat {trace : List Event} {e : Event} : Since q p (trace ++ [e]) ↔ p e ∨ (q e ∧ Since q p trace) := by
  constructor
  · rintro ⟨before, x, after, h, hx, hafter⟩
    cases after using List.reverseRecOn with
    | nil =>
      obtain ⟨-, hlast⟩ := List.append_inj' h rfl
      cases hlast
      exact Or.inl hx
    | append_singleton after last =>
      rw [← List.cons_append, ← List.append_assoc] at h
      obtain ⟨rfl, hlast⟩ := List.append_inj' h rfl
      cases hlast
      exact Or.inr ⟨hafter _ (by simp), before, x, after, rfl, hx, fun y hy => hafter y (by simp [hy])⟩
  · rintro (he | ⟨he, before, x, after, rfl, hx, hafter⟩)
    · exact ⟨trace, e, [], rfl, he, fun _ hx => absurd hx List.not_mem_nil⟩
    · refine ⟨before, x, after ++ [e], by simp, hx, fun y hy => ?_⟩
      rcases List.mem_append.1 hy with hy | hy
      · exact hafter y hy
      · rw [List.mem_singleton.1 hy]
        exact he

/-- The last event of `p` stands after every event that is not of `q`. -/
theorem Since.exists_after {before after : List Event} {e : Event} (h : Since q p (before ++ e :: after)) (hp : ¬p e)
    (hq : ¬q e) : ∃ x ∈ after, p x := by
  induction after using List.reverseRecOn with
  | nil =>
    rcases since_concat.1 h with he | ⟨he, -⟩
    · exact absurd he hp
    · exact absurd he hq
  | append_singleton after last ih =>
    rw [← List.cons_append, ← List.append_assoc] at h
    rcases since_concat.1 h with hlast | ⟨-, hbefore⟩
    · exact ⟨last, by simp, hlast⟩
    · obtain ⟨x, hx, hpx⟩ := ih hbefore
      exact ⟨x, List.mem_append_left _ hx, hpx⟩

end Since

/-- Space was granted for `key` after it was last used up. -/
def Covered (g : Granularity) (key : Key) : List Event → Prop :=
  Since (¬·.Takes key) fun e => ∃ size, e.Covers g key size

/-- `size` bytes were granted for `key`; since then nothing was granted for it and nothing used up. -/
def Waiting (g : Granularity) (key : Key) (size : UInt64) : List Event → Prop :=
  Since (fun e => ¬e.Takes key ∧ ∀ n, ¬e.Covers g key n) (Event.Covers g key size)

theorem covered_iff_exists_waiting {g : Granularity} {key : Key} {trace : List Event} :
    Covered g key trace ↔ ∃ size, Waiting g key size trace := by
  induction trace using List.reverseRecOn with
  | nil => exact ⟨fun h => absurd h not_since_nil, fun ⟨_, h⟩ => absurd h not_since_nil⟩
  | append_singleton trace e ih =>
    unfold Covered Waiting at ih ⊢
    simp only [since_concat, ih]
    constructor
    · rintro (⟨size, h⟩ | ⟨htakes, size, h⟩)
      · exact ⟨size, Or.inl h⟩
      · -- of two grants the later one counts
        by_cases hcovers : ∃ n, e.Covers g key n
        · obtain ⟨n, hn⟩ := hcovers
          exact ⟨n, Or.inl hn⟩
        · exact ⟨size, Or.inr ⟨⟨htakes, not_exists.1 hcovers⟩, h⟩⟩
    · rintro ⟨size, h | ⟨⟨htakes, -⟩, h⟩⟩
      · exact Or.inl ⟨size, h⟩
      · exact Or.inr ⟨htakes, size, h⟩

/-! ## The notes of a run -/

namespace Past

variable {g : Granularity} {key : Key} {e : Event} (p : Past)

theorem pending_of_covers {size : UInt64} (h : e.Covers g key size) : (p.record g e).pending.get? key = some size := by
  cases e with
  | granted k n =>
    rw [record]
    rcases h with ⟨rfl, rfl⟩ | ⟨rfl, rfl⟩
    · rw [Table.get?_insert_self]
    · rw [Table.get?_insert_of_ne _ _ k.companion_ne, Table.get?_insert_self]
  | _ => exact absurd h id

theorem pending_of_takes (h : e.Takes key) : (p.record g e).pending.get? key = none := by
  cases e with
  | made name k overwrite =>
    obtain rfl : k = key := h
    rw [record]
    split
    · exact Table.get?_erase_self _ _
    · next hnone => exact hnone
  | stored k data =>
    rw [record]
    by_cases hcompanion : key = k.companion
    · rw [hcompanion, Table.get?_erase_self]
    · obtain rfl : k = key := h.resolve_right (Ne.symm hcompanion)
      rw [Table.get?_erase_of_ne _ hcompanion, Table.get?_erase_self]
  | _ => exact absurd h id

theorem pending_of_other (hcovers : ∀ n, ¬e.Covers g key n) (htakes : ¬e.Takes key) :
    (p.record g e).pending.get? key = p.pending.get? key := by
  cases e with
  | granted k n =>
    have hself : key ≠ k := fun h => hcovers n (Or.inl ⟨h.symm, rfl⟩)
    have hcompanion : key ≠ k.companion := fun h => hcovers _ (Or.inr ⟨h.symm, rfl⟩)
    rw [record, Table.get?_insert_of_ne _ _ hself, Table.get?_insert_of_ne _ _ hcompanion]
  | made name k overwrite =>
    rw [record]
    split
    · exact Table.get?_erase_of_ne _ (Ne.symm htakes)
    · rfl
  | stored k data =>
    obtain ⟨hself, hcompanion⟩ := not_or.1 htakes
    rw [record, Table.get?_erase_of_ne _ (Ne.symm hcompanion), Table.get?_erase_of_ne _ (Ne.symm hself)]
  | wrote name data =>
    rw [record]
    split <;> rfl
  | published | lost | moved | deleted | ended => rfl

/-- **The notes are what waits.** -/
theorem pending_iff_waiting (g : Granularity) (trace : List Event) (key : Key) (size : UInt64) :
    (trace.foldl (record g) empty).pending.get? key = some size ↔ Waiting g key size trace := by
  induction trace using List.reverseRecOn with
  | nil => exact ⟨fun h => (by cases h), fun h => absurd h not_since_nil⟩
  | append_singleton trace e ih =>
    rw [Waiting, since_concat, List.foldl_append]
    show (Past.record g _ e).pending.get? key = some size ↔ _
    by_cases hcovers : ∃ n, e.Covers g key n
    · obtain ⟨n, hn⟩ := hcovers
      rw [pending_of_covers _ hn, Option.some.injEq]
      constructor
      · rintro rfl
        exact Or.inl hn
      · rintro (hsize | ⟨⟨-, hnone⟩, -⟩)
        · exact hn.unique hsize
        · exact absurd hn (hnone n)
    · have hcovers := not_exists.1 hcovers
      by_cases htakes : e.Takes key
      · rw [pending_of_takes _ htakes]
        constructor
        · intro h
          cases h
        · rintro (hsize | ⟨⟨hfree, -⟩, -⟩)
          · exact absurd hsize (hcovers size)
          · exact absurd htakes hfree
      · rw [pending_of_other _ hcovers htakes, ih]
        constructor
        · exact fun h => Or.inr ⟨⟨htakes, hcovers⟩, h⟩
        · rintro (hsize | ⟨-, h⟩)
          · exact absurd hsize (hcovers size)
          · exact h

end Past

/-! ## Making a writer -/

namespace Session

variable {s : Session} {path : String} {overwrite : Bool} {name : String} {w : Writer}

theorem step_create_iff :
    (s.step (.store (.create path overwrite name))).1 = .writer w ↔ (s.store.create path overwrite).1 = .ok w := by
  rcases s.store.create_cases path overwrite with ⟨e, h⟩ | ⟨buffer, -, -, h⟩
  · simp [step, storeStep, h]
  · simp [step, storeStep, h]

/-- A new writer stands before as many zeros as the notes say. -/
theorem Follows.create {p : Past} (h : s.Follows p) (hw : (s.store.create path overwrite).1 = .ok w) :
    ∃ size, p.pending.get? (Key.ofPath path) = some size ∧ w.key = Key.ofPath path ∧ w.position = 0 ∧
      w.capacity = size ∧ w.buffer.bytes = List.replicate size.toNat 0 := by
  obtain ⟨hopen, -, buffer, hbuffer, rfl⟩ := s.store.create_eq_ok_iff.1 hw
  have hpending := h.pending hopen (Key.ofPath path)
  rw [hbuffer, Option.map_some] at hpending
  obtain ⟨size, hsize, hbytes⟩ := Option.map_eq_some_iff.1 hpending.symm
  refine ⟨size, hsize, rfl, rfl, ?_, hbytes.symm⟩
  show buffer.capacity = size
  rw [← UInt64.toNat_inj, Buffer.toNat_capacity, ← hbytes, List.length_replicate]

theorem Follows.exists_create_iff {p : Past} (h : s.Follows p) :
    (∃ w, (s.store.create path overwrite).1 = .ok w) ↔
      s.store.closed = false ∧ (s.store.isCommitted path = true → overwrite = true) ∧
        ∃ size, p.pending.get? (Key.ofPath path) = some size := by
  constructor
  · rintro ⟨w, hw⟩
    obtain ⟨hopen, hfree, -⟩ := s.store.create_eq_ok_iff.1 hw
    obtain ⟨size, hsize, -⟩ := h.create hw
    exact ⟨hopen, hfree, size, hsize⟩
  · rintro ⟨hopen, hfree, size, hsize⟩
    have hpending := h.pending hopen (Key.ofPath path)
    rw [hsize, Option.map_some] at hpending
    obtain ⟨buffer, hbuffer, -⟩ := Option.map_eq_some_iff.1 hpending
    exact ⟨_, s.store.create_eq_ok_iff.2 ⟨hopen, hfree, buffer, hbuffer, rfl⟩⟩

/-! ## Runs from a new store -/

section Run

variable {address : Address} {capacity : UInt64} {granularity : UInt32} {store : Store}
  (h : Store.build address capacity granularity = .ok store) (actions : List Action)

include h

theorem closed_run_eq_false_iff :
    ((start store).run actions).store.closed = false ↔ Event.ended ∉ (start store).trace actions := by
  have hopen : (start store).store.closed = false := by
    obtain ⟨g, -, rfl⟩ := Store.build_eq_ok_iff.1 h
    rfl
  rw [← Bool.not_eq_true, closed_run_iff, hopen]
  simp only [Bool.false_eq_true, false_or]

theorem exists_create_iff_covered :
    (∃ w, (((start store).run actions).step (.store (.create path overwrite name))).1 = .writer w) ↔
      Event.ended ∉ (start store).trace actions ∧
        (((start store).run actions).store.isCommitted path = true → overwrite = true) ∧
        Covered store.granularity (Key.ofPath path) ((start store).trace actions) := by
  simp only [step_create_iff]
  rw [(follows_run (follows_start h) actions).exists_create_iff, closed_run_eq_false_iff h, covered_iff_exists_waiting]
  simp only [Past.pending_iff_waiting]
  rfl

theorem waiting_of_create
    (hw : (((start store).run actions).step (.store (.create path overwrite name))).1 = .writer w) :
    ∃ size, Waiting store.granularity (Key.ofPath path) size ((start store).trace actions) ∧
      w.key = Key.ofPath path ∧ w.position = 0 ∧ w.capacity = size ∧
        w.buffer.bytes = List.replicate size.toNat 0 := by
  obtain ⟨size, hsize, hwriter⟩ := (follows_run (follows_start h) actions).create (step_create_iff.1 hw)
  exact ⟨size, (Past.pending_iff_waiting _ _ _ _).1 hsize, hwriter⟩

theorem covers_of_create {before after : List Action} {action : Action} {e : Event}
    (he : ((start store).run before).event? action = some e) (htakes : e.Takes (Key.ofPath path))
    (hw : (((start store).run (before ++ action :: after)).step (.store (.create path overwrite name))).1 = .writer w) :
    ∃ x ∈ (((start store).run before).step action).2.trace after,
      ∃ size, x.Covers store.granularity (Key.ofPath path) size := by
  obtain ⟨-, -, hcovered⟩ := (exists_create_iff_covered h _).1 ⟨w, hw⟩
  rw [trace_append, trace, he, Option.toList_some, List.singleton_append] at hcovered
  apply hcovered.exists_after
  · rintro ⟨size, hcovers⟩
    exact hcovers.not_takes htakes
  · intro hfree
    exact hfree htakes

end Run

/-- What `create` does after `actions`, as a function of their events. -/
structure CreatesAsGranted (s : Session) (actions : List Action) : Prop where
  /-- A writer is made if the store has not been closed, no file is in the way, and space was granted for the key since
  it was last used up. -/
  succeeds : ∀ path overwrite name,
    (∃ w, ((s.run actions).step (.store (.create path overwrite name))).1 = .writer w) ↔
      Event.ended ∉ s.trace actions ∧ ((s.run actions).store.isCommitted path = true → overwrite = true) ∧
        Covered s.store.granularity (Key.ofPath path) (s.trace actions)
  /-- It starts before as many zeros as were granted last. -/
  writer : ∀ path overwrite name w, ((s.run actions).step (.store (.create path overwrite name))).1 = .writer w →
    ∃ size, Waiting s.store.granularity (Key.ofPath path) size (s.trace actions) ∧ w.key = Key.ofPath path ∧
      w.position = 0 ∧ w.capacity = size ∧ w.buffer.bytes = List.replicate size.toNat 0
  /-- Space that was used up makes no second writer: more of it was granted in between. -/
  once : ∀ before action after e path overwrite name w, actions = before ++ action :: after →
    (s.run before).event? action = some e → e.Takes (Key.ofPath path) →
    ((s.run actions).step (.store (.create path overwrite name))).1 = .writer w →
      ∃ x ∈ ((s.run before).step action).2.trace after, ∃ size, x.Covers s.store.granularity (Key.ofPath path) size

/-- **When a writer can be made, and what it is like,** after every run from a new store. -/
theorem creates_as_granted {address : Address} {capacity : UInt64} {granularity : UInt32} {store : Store}
    (h : Store.build address capacity granularity = .ok store) (actions : List Action) :
    (start store).CreatesAsGranted actions where
  succeeds _ _ _ := exists_create_iff_covered h actions
  writer _ _ _ _ := waiting_of_create h actions
  once := by
    rintro before action after e path overwrite name w rfl he htakes hw
    exact covers_of_create h he htakes hw

/-- The companion of a file is granted with it, then as a file of its own, then with it again. -/
theorem creates_as_granted_companion :
    ∃ (store : Store) (actions : List Action), Store.ofCapacity 1000 512 = .ok store ∧
      actions = [.store (.reserve "/a" 3), .store (.create "/a" false "w"), .store (.reserve "/.a.crc" 4),
        .store (.create "/.a.crc" false "v"), .store (.put "/b" [1]), .store (.reserve "a" 513)] ∧
      (start store).CreatesAsGranted actions ∧
      (∃ w, (((start store).run actions).step (.store (.create "/.a.crc" true "u"))).1 = .writer w ∧
        w.capacity = 16) ∧
      ¬∃ w, (((start store).run actions).step (.store (.create "/b" true "u"))).1 = .writer w := by
  have hbuild : Store.build Address.default 1000 512 = .ok _ := rfl
  refine ⟨_, _, hbuild, rfl, creates_as_granted hbuild _, ?_, ?_⟩
  · refine ⟨_, rfl, ?_⟩
    decide +kernel
  · rintro ⟨w, hw⟩
    -- what was granted for `/b` was used up by `put`, and nothing has been granted for it since
    obtain ⟨x, hx, size, hcovers⟩ := (creates_as_granted hbuild _).once
      [.store (.reserve "/a" 3), .store (.create "/a" false "w"), .store (.reserve "/.a.crc" 4),
        .store (.create "/.a.crc" false "v")] (.store (.put "/b" [1])) [.store (.reserve "a" 513)]
      (.stored (Key.ofPath "/b") [1]) "/b" true "u" w rfl (by decide +kernel) (Or.inl rfl) hw
    obtain rfl : x = .granted (Key.ofPath "/a") 513 := List.mem_singleton.1 hx
    rcases hcovers with ⟨hkey, -⟩ | ⟨hkey, -⟩
    · exact absurd hkey (by decide +kernel)
    · exact absurd hkey (by decide +kernel)

end Session
end BoundedStore
