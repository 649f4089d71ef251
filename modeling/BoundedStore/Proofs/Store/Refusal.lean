import BoundedStore.Proofs.WholeFile.Put

/-!
# Refused operations

An operation either succeeds or leaves the store as it was.

* `Store.Refusal` : the five reasons for which no space is reserved; `reserve_eq_iff` : there are no others;
* `Store.NoWriter` : the reasons for which no writer is made, with the error for each; `create_eq_iff` : there are no
  others;
* `put_eq_self` : `put` either stores both files or changes nothing;
* `failure_safe` : every failure leaves the whole store as it was.
-/

namespace BoundedStore.Store

/-! ## Why an operation is refused -/

/-- Why no space is reserved for a file of `size` bytes and for its companion. -/
inductive Refusal (s : Store) (size : UInt64) : Prop
  /-- The two sizes together are no word. -/
  | overflow (h : 0x1_0000_0000_0000_0000 ≤ s.granularity.footprint size)
  | closed (h : s.closed = true)
  | full (h : s.capacity.toNat ≤ s.used.toNat + s.granularity.footprint size)
  /-- There is no memory for the file. -/
  | file (h : 0x4000_0000_0000_0000 ≤ size.toNat)
  /-- There is no memory for the companion. -/
  | companion (h : 0x4000_0000_0000_0000 ≤ (s.granularity.companionSize size).toNat)

/-- Why no writer is made; the checks are made in this order. -/
inductive NoWriter (s : Store) (path : String) (overwrite : Bool) : StoreError → Prop
  | alreadyExists (hexists : s.isCommitted path = true) (hkeep : overwrite = false) :
      NoWriter s path overwrite (.alreadyExists (canonicalPath path))
  | closed (hfree : s.isCommitted path = true → overwrite = true) (h : s.closed = true) :
      NoWriter s path overwrite .closed
  | notReserved (hfree : s.isCommitted path = true → overwrite = true) (hopen : s.closed = false)
      (h : s.isReserved path = false) : NoWriter s path overwrite (.notReserved (canonicalPath path))

variable (s : Store)

/-! ## Reservations -/

theorem reserve_eq_self {path : String} {size : UInt64} (h : (s.reserve path size).1 = false) :
    (s.reserve path size).2 = s := by
  rcases s.reserve_cases path size with hrefused | ⟨data, sums, -, -, -, -, hgranted⟩
  · rw [hrefused]
  · rw [hgranted] at h
    cases h

theorem reserve_of_refusal (path : String) {size : UInt64} (h : s.Refusal size) : s.reserve path size = (false, s) := by
  rcases s.reserve_cases path size with hrefused | ⟨data, sums, hdata, hsums, hopen, hfits, -⟩
  · exact hrefused
  · have hcapacity := Word.toNat_lt s.capacity
    have hfile := Buffer.exists_allocate_iff.1 ⟨data, hdata⟩
    have hcompanion := Buffer.exists_allocate_iff.1 ⟨sums, hsums⟩
    -- a grant has checked everything that a reason denies
    exfalso
    cases h with
    | overflow h => omega
    | closed h =>
      rw [hopen] at h
      cases h
    | full h => omega
    | file h => omega
    | companion h => omega

/-- **No space is reserved for one of the five reasons, and for no other.** -/
theorem reserve_eq_iff (path : String) (size : UInt64) : s.reserve path size = (false, s) ↔ s.Refusal size := by
  constructor
  · intro h
    cases hclosed : s.closed with
    | true => exact .closed hclosed
    | false =>
      by_cases hfits : s.used.toNat + s.granularity.footprint size < s.capacity.toNat
      · by_cases hfile : size.toNat < 0x4000_0000_0000_0000
        · by_cases hcompanion : (s.granularity.companionSize size).toNat < 0x4000_0000_0000_0000
          · -- no reason is left, so the reservation is granted
            obtain ⟨data, hdata⟩ := Buffer.exists_allocate_iff.2 hfile
            obtain ⟨sums, hsums⟩ := Buffer.exists_allocate_iff.2 hcompanion
            rw [s.reserve_of_room path hdata hsums hclosed hfits] at h
            cases h
          · exact .companion (by omega)
        · exact .file (by omega)
      · exact .full (by omega)
  · exact s.reserve_of_refusal path

/-! ## Writers -/

theorem create_eq_self {path : String} {overwrite : Bool} {e : StoreError}
    (h : (s.create path overwrite).1 = .error e) : (s.create path overwrite).2 = s := by
  rcases s.create_cases path overwrite with ⟨_, hrefused⟩ | ⟨buffer, -, -, hmade⟩
  · rw [hrefused]
  · rw [hmade] at h
    cases h

theorem create_of_noWriter {path : String} {overwrite : Bool} {e : StoreError} (h : s.NoWriter path overwrite e) :
    s.create path overwrite = (.error e, s) := by
  cases h with
  | alreadyExists hexists hkeep =>
    have hexists : s.committed.contains (Key.ofPath path) = true := hexists
    simp [create, hexists, hkeep, canonicalPath]
  | closed hfree h => simp [create, s.contains_and_not_eq_false hfree, h]
  | notReserved hfree hopen h =>
    have hnone := Table.contains_eq_false_iff.1 (show s.reserved.contains (Key.ofPath path) = false from h)
    simp [create, s.contains_and_not_eq_false hfree, hopen, hnone, canonicalPath]

theorem exists_noWriter {path : String} {overwrite : Bool} {e : StoreError}
    (h : (s.create path overwrite).1 = .error e) : ∃ reason, s.NoWriter path overwrite reason := by
  by_cases hfree : s.isCommitted path = true → overwrite = true
  · cases hclosed : s.closed with
    | true => exact ⟨_, .closed hfree hclosed⟩
    | false =>
      cases hbuffer : s.reserved.get? (Key.ofPath path) with
      | none => exact ⟨_, .notReserved hfree hclosed (Table.contains_eq_false_iff.2 hbuffer)⟩
      | some buffer =>
        rw [s.create_of_reserved hfree hclosed hbuffer] at h
        cases h
  · rw [Classical.not_imp, Bool.not_eq_true] at hfree
    exact ⟨_, .alreadyExists hfree.1 hfree.2⟩

/-- **The errors of `create`, and when each of them arises.** -/
theorem create_eq_iff (path : String) (overwrite : Bool) (e : StoreError) :
    s.create path overwrite = (.error e, s) ↔ s.NoWriter path overwrite e := by
  constructor
  · intro h
    obtain ⟨reason, hreason⟩ := s.exists_noWriter (by rw [h])
    rw [s.create_of_noWriter hreason] at h
    cases h
    exact hreason
  · exact s.create_of_noWriter

/-! ## Whole files and published files -/

theorem put_eq_self {path : String} {data : Bytes} (h : (s.put path data).1 ≠ .ok true) : (s.put path data).2 = s := by
  rcases s.put_cases path data with ⟨-, hput⟩ | ⟨-, -, hput⟩ | ⟨file, sums, -, -, -, -, -, -, -, hput⟩
  · rw [hput]
  · rw [hput]
  · rw [hput] at h
    exact absurd rfl h

theorem rename_eq_self {source destination : String} (h : (s.rename source destination).1 = false) :
    (s.rename source destination).2 = s := by
  rcases s.rename_cases source destination with ⟨-, hrefused⟩ | ⟨buffer, -, hmoved⟩
  · rw [hrefused]
  · rw [hmoved] at h
    cases h

theorem delete_eq_self {path : String} (h : (s.delete path).1 = false) : (s.delete path).2 = s := by
  rcases s.delete_cases path with ⟨-, hrefused⟩ | ⟨buffer, -, hdeleted⟩
  · rw [hrefused]
  · rw [hdeleted] at h
    cases h

theorem commit_eq_self {w : Writer} {e : StoreError} (h : (s.commit w).1 = .error e) : (s.commit w).2 = s := by
  cases hclosed : s.closed with
  | true => rw [s.commit_of_closed hclosed]
  | false =>
    rw [s.commit_of_open hclosed] at h
    cases h

/-- No failure changes the store: its two tables, the bytes in use and whether it is closed are as before. -/
structure FailureSafe : Prop where
  reserve : ∀ path size, (s.reserve path size).1 = false → (s.reserve path size).2 = s
  /-- Whichever of the five reasons it is, neither of the two keys is newly reserved and nothing is claimed. -/
  refusal : ∀ path size, s.reserve path size = (false, s) ↔ s.Refusal size
  create : ∀ path overwrite e, (s.create path overwrite).1 = .error e → (s.create path overwrite).2 = s
  /-- For each of the three errors, what is reserved stays reserved. -/
  noWriter : ∀ path overwrite e, s.create path overwrite = (.error e, s) ↔ s.NoWriter path overwrite e
  /-- A file that exists, or no room: none of the steps that `put` is made of is undone or left half done. -/
  put : ∀ path data, (s.put path data).1 ≠ .ok true → (s.put path data).2 = s
  rename : ∀ source destination, (s.rename source destination).1 = false → (s.rename source destination).2 = s
  delete : ∀ path, (s.delete path).1 = false → (s.delete path).2 = s
  /-- A writer that is closed too late. -/
  commit : ∀ w e, (s.commit w).1 = .error e → (s.commit w).2 = s

/-- **A failed operation leaves the store exactly as it was**, in every state and for all arguments. -/
theorem failure_safe : s.FailureSafe where
  reserve _ _ := s.reserve_eq_self
  refusal := s.reserve_eq_iff
  create _ _ _ := s.create_eq_self
  noWriter := s.create_eq_iff
  put _ _ := s.put_eq_self
  rename _ _ := s.rename_eq_self
  delete _ := s.delete_eq_self
  commit _ _ := s.commit_eq_self

end BoundedStore.Store
