import BoundedStore.Proofs.Session.Frame
import BoundedStore.Proofs.Space.Balance

/-!
# Reservations alone

A reservation that is granted puts two buffers into the table, over whatever is reserved under the two keys. The buffers
that it puts out of the table are lost, and their space stays in use.

* `Action.reservations` : one reservation after the other;
* `Key.Displaces`, `Event.Displaces` : a reservation meets the bytes of an earlier one;
* `leaked_reservations_eq_zero_iff` : nothing is lost if no reservation that is granted meets the bytes of another;
* `reservations_accounted` : so far, and no further, what is in use is what is reserved;
* `reserved_twice` : the smallest case where it is not.
-/

namespace BoundedStore

/-- Space is reserved for each path in turn. -/
def Action.reservations (sizes : List (String × UInt64)) : List Action :=
  sizes.map fun entry => .store (.reserve entry.1 entry.2)

/-- The pair of keys of `later` meets bytes of a reservation of `size` bytes for `earlier`: those of its file if there
are any, or those of its companion, which is never empty. -/
def Key.Displaces (later earlier : Key) (size : UInt64) : Prop :=
  later = earlier ∨ later = earlier.companion ∨ (later.companion = earlier ∧ 0 < size.toNat)

/-- The reservation `later` meets the bytes of the reservation `earlier`. -/
def Event.Displaces : (later earlier : Event) → Prop
  | .granted key _, .granted earlier size => key.Displaces earlier size
  | _, _ => False

instance Key.decidableDisplaces (later earlier : Key) (size : UInt64) : Decidable (later.Displaces earlier size) :=
  inferInstanceAs (Decidable (_ ∨ _ ∨ _))

instance Event.decidableDisplaces : (later earlier : Event) → Decidable (later.Displaces earlier)
  | .granted key _, .granted earlier size => Key.decidableDisplaces key earlier size
  | .granted .., .made .. | .granted .., .wrote .. | .granted .., .published .. | .granted .., .lost _
  | .granted .., .moved .. | .granted .., .deleted _ | .granted .., .stored .. | .granted .., .ended
  | .made .., _ | .wrote .., _ | .published .., _ | .lost _, _ | .moved .., _ | .deleted _, _ | .stored .., _
  | .ended, _ => isFalse id

theorem Granularity.companionSize_pos (g : Granularity) (size : UInt64) : 0 < (g.companionSize size).toNat := by
  rw [toNat_companionSize]
  omega

namespace Store

variable (s : Store)

/-! ## One reservation -/

theorem part_granted {size : UInt64} {data sums : Buffer} (hdata : Buffer.allocate size = .ok data)
    (hsums : Buffer.allocate (s.granularity.companionSize size) = .ok sums) (key other : Key) :
    (s.granted key size data sums).reserved.part Buffer.extent other =
      if other = key then size.toNat
      else if other = key.companion then (s.granularity.companionSize size).toNat
      else s.reserved.part Buffer.extent other := by
  rw [Table.part, get?_reserved_granted]
  split
  · exact Buffer.extent_of_allocate hdata
  · split
    · exact Buffer.extent_of_allocate hsums
    · rfl

/-- Under the two keys of `other` nothing is reserved after a reservation if nothing was before, and the reservation has
no bytes there either. -/
theorem pairExtent_granted_eq_zero_iff {key : Key} {size : UInt64} {data sums : Buffer}
    (hdata : Buffer.allocate size = .ok data)
    (hsums : Buffer.allocate (s.granularity.companionSize size) = .ok sums) (hfree : s.pairExtent key = 0)
    (other : Key) :
    (s.granted key size data sums).pairExtent other = 0 ↔ s.pairExtent other = 0 ∧ ¬other.Displaces key size := by
  have hpos := s.granularity.companionSize_pos size
  unfold pairExtent Key.Displaces at *
  rw [s.part_granted hdata hsums, s.part_granted hdata hsums]
  by_cases hself : other = key
  · subst hself
    rw [if_pos rfl, if_neg other.companion_ne, if_pos rfl]
    simp only [true_or, not_true_eq_false, and_false, iff_false]
    omega
  · have happart : other.companion ≠ key.companion := fun h => hself (Key.companion_injective h)
    rw [if_neg hself, if_neg happart]
    by_cases hcompanion : other = key.companion
    · rw [if_pos hcompanion]
      simp only [hcompanion, true_or, or_true, not_true_eq_false, and_false, iff_false]
      omega
    · rw [if_neg hcompanion]
      by_cases hover : other.companion = key
      · -- its companion is the file of the reservation, which may be empty
        rw [if_pos hover]
        simp only [hself, hcompanion, hover, true_and, false_or]
        omega
      · rw [if_neg hover]
        simp only [hself, hcompanion, hover, false_and, or_self, not_false_eq_true, and_true]

/-- Nothing is reserved under the two keys that the event reserves. -/
def Spare (s : Store) : Event → Prop
  | .granted key _ => s.pairExtent key = 0
  | _ => True

theorem spare_granted_iff {key : Key} {size : UInt64} {data sums : Buffer}
    (hdata : Buffer.allocate size = .ok data)
    (hsums : Buffer.allocate (s.granularity.companionSize size) = .ok sums) (hfree : s.pairExtent key = 0)
    (e : Event) :
    (s.granted key size data sums).Spare e ↔ s.Spare e ∧ ¬e.Displaces (.granted key size) := by
  cases e with
  | granted other _ => exact s.pairExtent_granted_eq_zero_iff hdata hsums hfree other
  | _ => exact ⟨fun _ => ⟨trivial, id⟩, fun _ => trivial⟩

end Store

namespace Session

/-! ## A list of reservations -/

/-- Reservations neither publish a file nor make a writer. -/
theorem run_reservations (s : Session) (sizes : List (String × UInt64)) :
    (s.run (Action.reservations sizes)).store.committed = s.store.committed ∧
      (s.run (Action.reservations sizes)).writers = s.writers := by
  induction sizes generalizing s with
  | nil => exact ⟨rfl, rfl⟩
  | cons entry sizes ih =>
    obtain ⟨hcommitted, hwriters⟩ := ih (s.step (.store (.reserve entry.1 entry.2))).2
    have hfiles : (s.step (.store (.reserve entry.1 entry.2))).2.store.committed = s.store.committed :=
      committed_step id
    have hnone : (s.step (.store (.reserve entry.1 entry.2))).2.writers = s.writers := by simp only [step, storeStep]
    rw [Action.reservations, List.map_cons, run, List.foldl_cons]
    exact ⟨hcommitted.trans hfiles, hwriters.trans hnone⟩

/-- **Nothing is lost as long as no reservation meets the bytes of another**, or bytes that were reserved before. -/
theorem leaked_reservations_eq_zero_iff (s : Session) (sizes : List (String × UInt64)) :
    s.leaked (Action.reservations sizes) = 0 ↔
      (∀ e ∈ s.trace (Action.reservations sizes), s.store.Spare e) ∧
        (s.trace (Action.reservations sizes)).Pairwise fun earlier later => ¬later.Displaces earlier := by
  induction sizes generalizing s with
  | nil => simp [Action.reservations, leaked, trace]
  | cons entry sizes ih =>
    obtain ⟨path, size⟩ := entry
    have hrest := ih (s.step (.store (.reserve path size))).2
    rw [Action.reservations, List.map_cons, leaked, trace, ← Action.reservations]
    rcases s.store.reserve_cases path size with h | ⟨data, sums, hdata, hsums, -, -, h⟩
    · -- a reservation that is refused changes nothing
      have hsame : (s.step (.store (.reserve path size))).2 = s := by simp only [step, storeStep, h]
      have hleak : s.leak (.store (.reserve path size)) = 0 := by simp only [leak, storeLeak, h]
      have hevent : s.event? (.store (.reserve path size)) = none := by simp only [event?, step, storeStep, h]
      rw [hsame] at hrest ⊢
      rw [hleak, hevent, Nat.zero_add, Option.toList_none, List.nil_append]
      exact hrest
    · have hstore : (s.step (.store (.reserve path size))).2.store =
          s.store.granted (Key.ofPath path) size data sums := by simp only [step, storeStep, h]
      have hleak : s.leak (.store (.reserve path size)) = s.store.pairExtent (Key.ofPath path) := by
        simp only [leak, storeLeak, h]
      have hevent : s.event? (.store (.reserve path size)) = some (.granted (Key.ofPath path) size) := by
        simp only [event?, step, storeStep, h]
      rw [hstore] at hrest
      rw [hleak, hevent, Nat.add_eq_zero_iff, hrest, Option.toList_some, List.singleton_append, List.forall_mem_cons,
        List.pairwise_cons]
      constructor
      · rintro ⟨hfree, hspare, hpairs⟩
        have hboth := fun e he => (s.store.spare_granted_iff hdata hsums hfree e).1 (hspare e he)
        exact ⟨⟨hfree, fun e he => (hboth e he).1⟩, fun e he => (hboth e he).2, hpairs⟩
      · rintro ⟨⟨hfree, hspare⟩, happart, hpairs⟩
        refine ⟨hfree, fun e he => ?_, hpairs⟩
        exact (s.store.spare_granted_iff hdata hsums hfree e).2 ⟨hspare e he, happart e he⟩

section New

variable {address : Address} {capacity : UInt64} {granularity : UInt32} {store : Store}
  (h : Store.build address capacity granularity = .ok store)

include h

theorem spare_start (e : Event) : (start store).store.Spare e := by
  obtain ⟨g, -, rfl⟩ := Store.build_eq_ok_iff.1 h
  cases e with
  | granted => rfl
  | _ => trivial

/-- What is in use is what is reserved, and what was lost on the way. -/
theorem used_reservations (sizes : List (String × UInt64)) :
    ((start store).run (Action.reservations sizes)).store.used.toNat =
      ((start store).run (Action.reservations sizes)).store.reservedExtent +
        (start store).leaked (Action.reservations sizes) := by
  have hbalance := balanced_run (balanced_start h) (Action.reservations sizes)
  obtain ⟨hcommitted, hwriters⟩ := (start store).run_reservations sizes
  have hempty : (start store).store.committed = Table.empty := by
    obtain ⟨g, -, rfl⟩ := Store.build_eq_ok_iff.1 h
    rfl
  have hfiles : ((start store).run (Action.reservations sizes)).store.committedExtent = 0 := by
    rw [Store.committedExtent, hcommitted, hempty, Table.total_empty]
  have hnone : ((start store).run (Action.reservations sizes)).writersExtent = 0 := by
    rw [writersExtent, hwriters]
    rfl
  unfold Balanced held at hbalance
  omega

theorem used_eq_reservedExtent_iff (sizes : List (String × UInt64)) :
    ((start store).run (Action.reservations sizes)).store.used.toNat =
        ((start store).run (Action.reservations sizes)).store.reservedExtent ↔
      ((start store).trace (Action.reservations sizes)).Pairwise fun earlier later => ¬later.Displaces earlier := by
  have hused := used_reservations h sizes
  have hlost := (start store).leaked_reservations_eq_zero_iff sizes
  rw [and_iff_right fun e _ => spare_start h e] at hlost
  rw [← hlost]
  omega

end New

/-- **When the bytes in use are the bytes that are reserved.** After every list of reservations in a new store, the
bytes of the table and those that were lost are in use. They are the bytes of the table, after each reservation, exactly
if no reservation that is granted meets the bytes of an earlier one. -/
theorem reservations_accounted {address : Address} {capacity : UInt64} {granularity : UInt32} {store : Store}
    (h : Store.build address capacity granularity = .ok store) (sizes : List (String × UInt64)) :
    ((start store).run (Action.reservations sizes)).store.used.toNat =
        ((start store).run (Action.reservations sizes)).store.reservedExtent +
          (start store).leaked (Action.reservations sizes) ∧
      ((∀ first, first <+: sizes → ((start store).run (Action.reservations first)).store.used.toNat =
          ((start store).run (Action.reservations first)).store.reservedExtent) ↔
        ((start store).trace (Action.reservations sizes)).Pairwise fun earlier later => ¬later.Displaces earlier) := by
  refine ⟨used_reservations h sizes, ?_, ?_⟩
  · intro hall
    exact (used_eq_reservedExtent_iff h sizes).1 (hall sizes (List.prefix_refl _))
  · rintro hpairs first ⟨rest, rfl⟩
    rw [Action.reservations, List.map_append, trace_append] at hpairs
    exact (used_eq_reservedExtent_iff h first).2 (List.pairwise_append.1 hpairs).1

/-- A file without bytes may be reserved over, by a reservation that has it for its companion; the same path in another
spelling may not. -/
theorem reservations_accounted_empty_file :
    ∃ (store : Store) (sizes : List (String × UInt64)), Store.ofCapacity 1000 512 = .ok store ∧
      sizes = [("/.a.crc", 0), ("/a", 100), ("/./b", 2000), ("/b", 3)] ∧
      (∀ first, first <+: sizes → ((start store).run (Action.reservations first)).store.used.toNat =
        ((start store).run (Action.reservations first)).store.reservedExtent) ∧
      ((start store).run (Action.reservations (sizes ++ [("x/../b", 4)]))).store.used.toNat =
        ((start store).run (Action.reservations (sizes ++ [("x/../b", 4)]))).store.reservedExtent + (3 + 12) := by
  have hbuild : Store.build Address.default 1000 512 = .ok _ := rfl
  obtain ⟨-, hall⟩ := reservations_accounted hbuild [("/.a.crc", 0), ("/a", 100), ("/./b", 2000), ("/b", 3)]
  obtain ⟨hused, -⟩ := reservations_accounted hbuild
    ([("/.a.crc", 0), ("/a", 100), ("/./b", 2000), ("/b", 3)] ++ [("x/../b", 4)])
  refine ⟨_, _, hbuild, rfl, hall.2 ?_, hused.trans (congrArg _ ?_)⟩
  · decide +kernel
  · decide +kernel

/-- Space that is reserved twice for one path is in use twice and held once. -/
theorem reserved_twice :
    ∃ store : Store, Store.ofCapacity 1000 512 = .ok store ∧
      ((start store).run (Action.reservations [("/a", 1), ("/a", 1)])).store.used.toNat = 26 ∧
      ((start store).run (Action.reservations [("/a", 1), ("/a", 1)])).store.reservedExtent = 13 := by
  refine ⟨_, rfl, ?_, ?_⟩
  · decide +kernel
  · decide +kernel

end Session
end BoundedStore
