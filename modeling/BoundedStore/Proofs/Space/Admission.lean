import BoundedStore.Proofs.Store.Outcome

/-!
# When space is granted

A reservation meets three treatments of overflow: the size of the companion is held at the largest word, the size of both
files must be a word, and so must the claim together with what is in use. The three of them decide by one inequality of
unbounded numbers, because no buffer is as long as a size that is held.

* `Granularity.companionBytes` : the bytes of a companion, which need not be a word;
* `admissible_iff` : what is checked in words, said in unbounded numbers;
* `Store.Grants` : all that a granted reservation changes;
* `reserve_exact` : when a reservation is granted, and what it changes then.
-/

namespace BoundedStore

/-- The bytes of the companion of a file of `size` bytes: eight, and four for every chunk that is begun. -/
def Granularity.companionBytes (g : Granularity) (size : Nat) : Nat :=
  4 * ((size + g.bytes.toNat - 1) / g.bytes.toNat) + 8

theorem Granularity.toNat_companionSize_eq_min (g : Granularity) (size : UInt64) :
    (g.companionSize size).toNat = min (g.companionBytes size.toNat) 0xFFFF_FFFF_FFFF_FFFF :=
  g.toNat_companionSize size

/-- A companion for which there is memory has a size that is not held. -/
theorem Granularity.toNat_companionSize_of_lt {g : Granularity} {size : UInt64}
    (h : (g.companionSize size).toNat < 0x4000_0000_0000_0000) :
    (g.companionSize size).toNat = g.companionBytes size.toNat := by
  have hmin := g.toNat_companionSize_eq_min size
  omega

namespace Store

variable (s : Store)

/-- What is checked in words is the inequality of unbounded numbers, together with the bound for each buffer. -/
theorem admissible_iff (size : UInt64) :
    (s.used.toNat + s.granularity.footprint size < s.capacity.toNat ∧ size.toNat < 0x4000_0000_0000_0000 ∧
        (s.granularity.companionSize size).toNat < 0x4000_0000_0000_0000) ↔
      s.used.toNat + (size.toNat + s.granularity.companionBytes size.toNat) < s.capacity.toNat ∧
        size.toNat < 0x4000_0000_0000_0000 ∧
        s.granularity.companionBytes size.toNat < 0x4000_0000_0000_0000 := by
  have hmin := s.granularity.toNat_companionSize_eq_min size
  unfold Granularity.footprint
  constructor
  · rintro ⟨hfits, hfile, hsums⟩
    omega
  · rintro ⟨hfits, hfile, hsums⟩
    omega

/-- A reservation is granted by an open store with room, if there is memory for both buffers. -/
theorem reserve_eq_true_iff (path : String) (size : UInt64) :
    (s.reserve path size).1 = true ↔
      s.closed = false ∧ s.used.toNat + s.granularity.footprint size < s.capacity.toNat ∧
        size.toNat < 0x4000_0000_0000_0000 ∧
        (s.granularity.companionSize size).toNat < 0x4000_0000_0000_0000 := by
  constructor
  · intro h
    rcases s.reserve_cases path size with hrefused | ⟨data, sums, hdata, hsums, hopen, hfits, -⟩
    · rw [hrefused] at h
      cases h
    · exact ⟨hopen, hfits, Buffer.exists_allocate_iff.1 ⟨data, hdata⟩, Buffer.exists_allocate_iff.1 ⟨sums, hsums⟩⟩
  · rintro ⟨hopen, hfits, hfile, hcompanion⟩
    obtain ⟨data, hdata⟩ := Buffer.exists_allocate_iff.2 hfile
    obtain ⟨sums, hsums⟩ := Buffer.exists_allocate_iff.2 hcompanion
    rw [s.reserve_of_room path hdata hsums hopen hfits]

/-! ## What a grant changes -/

/-- All that changes from `s` to `t` when `size` bytes are granted for `key`. -/
structure Grants (s t : Store) (key : Key) (size : UInt64) : Prop where
  used : t.used.toNat = s.used.toNat + (size.toNat + s.granularity.companionBytes size.toNat)
  file : ∃ data, t.reserved.get? key = some data ∧ data.bytes = List.replicate size.toNat 0
  companion : ∃ sums, t.reserved.get? key.companion = some sums ∧
    sums.bytes = List.replicate (s.granularity.companionBytes size.toNat) 0
  /-- Neither of the two buffers takes the place of the other. -/
  distinct : key.companion ≠ key
  others : ∀ k, k ≠ key → k ≠ key.companion → t.reserved.get? k = s.reserved.get? k
  /-- Nothing but the bytes in use and the table of reservations differs. -/
  rest : t = { s with ledger := { s.ledger with used := t.used }, reserved := t.reserved }

theorem granted_eq (key : Key) (size : UInt64) (data sums : Buffer) :
    s.granted key size data sums =
      { s with
        ledger := { s.ledger with used := (s.granted key size data sums).used }
        reserved := (s.granted key size data sums).reserved } := by
  unfold granted
  rfl

theorem grants_granted {key : Key} {size : UInt64} {data sums : Buffer} (hdata : Buffer.allocate size = .ok data)
    (hsums : Buffer.allocate (s.granularity.companionSize size) = .ok sums)
    (hfits : s.used.toNat + s.granularity.footprint size < s.capacity.toNat) :
    s.Grants (s.granted key size data sums) key size := by
  have hexact := Granularity.toNat_companionSize_of_lt (Buffer.exists_allocate_iff.1 ⟨sums, hsums⟩)
  have hne := key.companion_ne
  constructor
  · rw [s.used_granted hfits, Granularity.footprint, hexact]
  · refine ⟨data, ?_, Buffer.allocate_eq_ok_iff.1 hdata⟩
    rw [get?_reserved_granted, if_pos rfl]
  · refine ⟨sums, ?_, ?_⟩
    · rw [get?_reserved_granted, if_neg hne, if_pos rfl]
    · rw [← hexact]
      exact Buffer.allocate_eq_ok_iff.1 hsums
  · exact hne
  · intro k hkey hcompanion
    rw [get?_reserved_granted, if_neg hkey, if_neg hcompanion]
  · exact s.granted_eq key size data sums

/-- **A reservation is decided by exact arithmetic and has an exact effect.** It is granted if and only if the store is
open, the bytes in use, of the file and of its companion together stay below the capacity in unbounded numbers, and there
is memory for each of the two buffers, that is for fewer than 2^62 bytes. -/
theorem reserve_exact (path : String) (size : UInt64) :
    ((s.reserve path size).1 = true ↔
      s.closed = false ∧
        s.used.toNat + (size.toNat + s.granularity.companionBytes size.toNat) < s.capacity.toNat ∧
        size.toNat < 0x4000_0000_0000_0000 ∧
        s.granularity.companionBytes size.toNat < 0x4000_0000_0000_0000) ∧
      ((s.reserve path size).1 = true → s.Grants (s.reserve path size).2 (Key.ofPath path) size) := by
  constructor
  · rw [reserve_eq_true_iff, admissible_iff]
  · intro h
    rcases s.reserve_cases path size with hrefused | ⟨data, sums, hdata, hsums, -, hfits, hgranted⟩
    · rw [hrefused] at h
      cases h
    · rw [hgranted]
      exact s.grants_granted hdata hsums hfits

/-- The most that a new store of 1000 bytes grants: one byte more, and the two files would fill it. -/
example : ∃ s, ofCapacity 1000 512 = .ok s ∧ (s.reserve "/a" 983).1 = true ∧ (s.reserve "/a" 984).1 = false :=
  ⟨_, rfl, by decide +kernel, by decide +kernel⟩

end Store
end BoundedStore
