import BoundedStore.Proofs.Space.Flow

/-!
# The bytes in use are accounted for

* `Session.leaked` : the bytes that a list of actions loses, step by step;
* `Session.Balanced` : the bytes in use are those held and those lost; `balanced_step` and `balanced_run` keep it;
* `used_eq_held_add_leaked` : it holds after every run from a new store.
-/

namespace BoundedStore

namespace Session

/-- The bytes that are lost along a list of actions. -/
def leaked (s : Session) : List Action → Nat
  | [] => 0
  | action :: actions => s.leak action + (s.step action).2.leaked actions

/-- The bytes in use are those that some buffer holds and `lost` bytes more. -/
def Balanced (s : Session) (lost : Nat) : Prop := s.store.used.toNat = s.held + lost

theorem balanced_start {address : Address} {capacity : UInt64} {granularity : UInt32} {store : Store}
    (h : Store.build address capacity granularity = .ok store) : (start store).Balanced 0 := by
  obtain ⟨g, -, rfl⟩ := Store.build_eq_ok_iff.1 h
  rfl

/-- A step gives back no more than what is held. -/
theorem released_le_held (s : Session) (action : Action) : s.released action ≤ s.held := by
  unfold released
  split
  · next path =>
    have hpart : s.store.fileExtent (Key.ofPath path) ≤ s.store.committedExtent := Table.part_le_total _ _ _
    unfold held
    omega
  · exact Nat.zero_le _

theorem Balanced.released_le_used {s : Session} {lost : Nat} (h : s.Balanced lost) (action : Action) :
    s.released action ≤ s.store.used.toNat := by
  have hheld := s.released_le_held action
  unfold Balanced at h
  omega

/-- **One step keeps the balance**; what it loses is added to what was lost before. -/
theorem balanced_step {s : Session} {lost : Nat} (h : s.Balanced lost) (action : Action) :
    (s.step action).2.Balanced (lost + s.leak action) := by
  have hreleased := h.released_le_used action
  obtain ⟨hheld, hused, -, -⟩ := s.flow_step action
  unfold Balanced at h ⊢
  omega

theorem balanced_run {s : Session} {lost : Nat} (h : s.Balanced lost) (actions : List Action) :
    (s.run actions).Balanced (lost + s.leaked actions) := by
  induction actions generalizing s lost with
  | nil => exact h
  | cons action actions ih =>
    have hrest := ih (balanced_step h action)
    rw [Nat.add_assoc] at hrest
    exact hrest

/-- A deletion gives back exactly the bytes of the file that it removes. -/
theorem Balanced.used_delete {s : Session} {lost : Nat} (h : s.Balanced lost) (path : String) :
    (s.store.delete path).2.used.toNat + s.store.fileExtent (Key.ofPath path) = s.store.used.toNat := by
  have hreleased : s.store.fileExtent (Key.ofPath path) ≤ s.store.used.toNat :=
    h.released_le_used (.store (.delete path))
  have hused : (s.store.delete path).2.used.toNat = s.store.used.toNat - s.store.fileExtent (Key.ofPath path) :=
    (s.flow_delete path).used
  omega

/-- **Every byte in use is reserved, in a writer, in a file, or was lost** by a step that `leak` names. A deletion
gives back the bytes of its file and no others. -/
theorem used_eq_held_add_leaked {address : Address} {capacity : UInt64} {granularity : UInt32} {store : Store}
    (h : Store.build address capacity granularity = .ok store) (actions : List Action) :
    ((start store).run actions).store.used.toNat =
        ((start store).run actions).store.reservedExtent + ((start store).run actions).store.committedExtent +
          ((start store).run actions).writersExtent + (start store).leaked actions ∧
      ∀ path, (((start store).run actions).store.delete path).2.used.toNat +
          ((start store).run actions).store.fileExtent (Key.ofPath path) =
        ((start store).run actions).store.used.toNat := by
  have hrun := balanced_run (balanced_start h) actions
  rw [Nat.zero_add] at hrun
  exact ⟨hrun, hrun.used_delete⟩

/-- Space reserved twice, a file put over by a move, a writer given up. -/
theorem used_eq_held_add_leaked_replacements :
    ∃ (store : Store) (actions : List Action), Store.ofCapacity 1000 512 = .ok store ∧
      actions = [.store (.reserve "/a" 100), .store (.reserve "/a" 50), .store (.create "a" false "w"),
        .writer "w" .close, .store (.put "/b" [1, 2, 3]), .store (.rename "/b" "/./a"),
        .store (.create "/.a.crc" false "w"), .writer "w" .drop] ∧
      ((start store).run actions).store.used.toNat =
        ((start store).run actions).store.reservedExtent + ((start store).run actions).store.committedExtent +
          ((start store).run actions).writersExtent + (start store).leaked actions ∧
      (∀ path, (((start store).run actions).store.delete path).2.used.toNat +
          ((start store).run actions).store.fileExtent (Key.ofPath path) =
        ((start store).run actions).store.used.toNat) ∧
      (start store).leaked actions = (100 + 12) + 50 + 12 := by
  have hbuild : Store.build Address.default 1000 512 = .ok _ := rfl
  obtain ⟨hused, hdelete⟩ := used_eq_held_add_leaked hbuild _
  exact ⟨_, _, hbuild, rfl, hused, hdelete, by decide +kernel⟩

end Session
end BoundedStore
