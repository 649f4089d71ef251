import BoundedStore.Proofs.Space.Balance

/-!
# The capacity is never exceeded

* `Session.Within` : nothing is in use, or less than the capacity; every run keeps it (`within_run`);
* `ledger_reserve`, `ledger_put`, `ledger_delete` : the word that an operation claims or releases;
* `Store.SpaceSafe` : the bytes in use are within the capacity, no claim overflows, no release exceeds what is in use;
* `capacity_safe` : space is safe in every state that a run from a new store reaches.
-/

namespace BoundedStore

/-! ## What the ledger is asked for -/

namespace Store

variable (s : Store)

theorem ledger_reserve {path : String} {size : UInt64} (h : (s.reserve path size).1 = true) :
    (s.reserve path size).2.ledger = s.ledger.claim (size + s.granularity.companionSize size) ∧
      s.used.toNat + s.granularity.footprint size < s.capacity.toNat := by
  rcases s.reserve_cases path size with hrefused | ⟨data, sums, -, -, -, hfits, hgrant⟩
  · rw [hrefused] at h
    cases h
  · rw [hgrant]
    exact ⟨s.ledger_granted _ _ _ _, hfits⟩

theorem ledger_put {path : String} {data : Bytes} (h : (s.put path data).1 = .ok true) :
    (s.put path data).2.ledger =
        s.ledger.claim (Bytes.size data + s.granularity.companionSize (Bytes.size data)) ∧
      s.used.toNat + s.granularity.footprint (Bytes.size data) < s.capacity.toNat := by
  rcases s.put_cases path data with ⟨-, hput⟩ | ⟨-, -, hput⟩ | ⟨file, sums, -, -, -, hfits, -, -, -, hput⟩
  · rw [hput] at h
    cases h
  · rw [hput] at h
    cases h
  · rw [hput]
    exact ⟨s.ledger_stored _ _ _ _, hfits⟩

theorem ledger_delete {path : String} {buffer : Buffer} (h : s.committed.get? (Key.ofPath path) = some buffer) :
    (s.delete path).2.ledger = s.ledger.release buffer.capacity := by
  rw [delete, h]

end Store

/-- The bytes in use stay within the capacity; whatever is claimed next is added without overflow; and whatever is
released next is in use, so that nothing is cut off at zero. -/
structure Store.SpaceSafe (s : Store) : Prop where
  within : s.used = 0 ∨ s.used < s.capacity
  reserve : ∀ path size, (s.reserve path size).1 = true →
    (s.reserve path size).2.ledger = s.ledger.claim (size + s.granularity.companionSize size) ∧
      s.used.toNat + (size.toNat + (s.granularity.companionSize size).toNat) < UInt64.size
  put : ∀ path data, (s.put path data).1 = .ok true →
    (s.put path data).2.ledger =
        s.ledger.claim (Bytes.size data + s.granularity.companionSize (Bytes.size data)) ∧
      s.used.toNat + ((Bytes.size data).toNat + (s.granularity.companionSize (Bytes.size data)).toNat) < UInt64.size
  delete : ∀ path buffer, s.committed.get? (Key.ofPath path) = some buffer →
    (s.delete path).2.ledger = s.ledger.release buffer.capacity ∧ buffer.capacity ≤ s.used

namespace Session

/-! ## Staying within the capacity -/

/-- Nothing is in use, or less than the capacity. -/
def Within (s : Session) : Prop := s.store.used.toNat = 0 ∨ s.store.used.toNat < s.store.capacity.toNat

theorem within_start {address : Address} {capacity : UInt64} {granularity : UInt32} {store : Store}
    (h : Store.build address capacity granularity = .ok store) : (start store).Within := by
  obtain ⟨g, -, rfl⟩ := Store.build_eq_ok_iff.1 h
  exact Or.inl rfl

theorem within_step {s : Session} (h : s.Within) (action : Action) : (s.step action).2.Within := by
  obtain ⟨-, hused, hroom, hcapacity⟩ := s.flow_step action
  unfold Within at h ⊢
  rw [hused, hcapacity]
  omega

theorem within_run {s : Session} (h : s.Within) (actions : List Action) : (s.run actions).Within :=
  run_preserves (P := Within) (fun _ action h => within_step h action) h actions

theorem capacity_start {address : Address} {capacity : UInt64} {granularity : UInt32} {store : Store}
    (h : Store.build address capacity granularity = .ok store) : (start store).store.capacity = capacity :=
  Store.capacity_of_build h

theorem capacity_run (s : Session) (actions : List Action) : (s.run actions).store.capacity = s.store.capacity :=
  run_unchanged (f := fun s => s.store.capacity) (fun s action => (s.flow_step action).capacity) s actions

theorem Balanced.capacity_le_used {s : Session} {lost : Nat} (h : s.Balanced lost) {path : String} {buffer : Buffer}
    (hbuffer : s.store.committed.get? (Key.ofPath path) = some buffer) : buffer.capacity ≤ s.store.used := by
  have hreleased := h.released_le_used (.store (.delete path))
  have hextent : s.store.fileExtent (Key.ofPath path) = buffer.capacity.toNat := Table.part_of_get? hbuffer
  rw [UInt64.le_iff_toNat_le, ← hextent]
  exact hreleased

theorem Balanced.spaceSafe {s : Session} {lost : Nat} (h : s.Balanced lost) (hwithin : s.Within) :
    s.store.SpaceSafe where
  within := by
    rw [← UInt64.toNat_inj, UInt64.lt_iff_toNat_lt]
    exact hwithin
  reserve path size hgranted := by
    obtain ⟨hledger, hfits⟩ := s.store.ledger_reserve hgranted
    exact ⟨hledger, Nat.lt_trans hfits (Word.toNat_lt _)⟩
  put path data hstored := by
    obtain ⟨hledger, hfits⟩ := s.store.ledger_put hstored
    exact ⟨hledger, Nat.lt_trans hfits (Word.toNat_lt _)⟩
  delete path buffer hbuffer := ⟨s.store.ledger_delete hbuffer, h.capacity_le_used hbuffer⟩

/-- **The capacity is never exceeded.** For every capacity and every positive granularity there is a new store, and
space is safe in every state that a run from it reaches. -/
theorem capacity_safe (address : Address) (capacity : UInt64) {granularity : UInt32} (h : 0 < granularity) :
    ∃ store, Store.build address capacity granularity = .ok store ∧ ∀ actions,
      ((start store).run actions).store.capacity = capacity ∧ ((start store).run actions).store.SpaceSafe := by
  have hpos : 0 < granularity.toNat := by
    rw [UInt32.lt_iff_toNat_lt] at h
    exact h
  have hg : Granularity.ofWord? granularity = some ⟨granularity, hpos⟩ := by rw [Granularity.ofWord?, dif_pos hpos]
  have hbuild : Store.build address capacity granularity = .ok _ := Store.build_eq_ok_iff.2 ⟨_, hg, rfl⟩
  refine ⟨_, hbuild, fun actions => ⟨?_, ?_⟩⟩
  · rw [capacity_run]
    exact capacity_start hbuild
  · exact (balanced_run (balanced_start hbuild) actions).spaceSafe (within_run (within_start hbuild) actions)

/-- The largest store, with a checksum for every byte. -/
theorem capacity_safe_largest :
    (0 : UInt32) < 1 ∧ ∃ store, Store.ofCapacity Word.largest 1 = .ok store ∧ ∀ actions,
      ((start store).run actions).store.capacity = Word.largest ∧ ((start store).run actions).store.SpaceSafe :=
  ⟨by decide, capacity_safe Address.default Word.largest (by decide)⟩

end Session
end BoundedStore
