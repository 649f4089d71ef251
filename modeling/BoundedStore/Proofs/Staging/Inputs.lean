import BoundedStore.Proofs.WholeFile.Put
import BoundedStore.Staging.Basic
import Mathlib.Algebra.Ring.Nat
import Mathlib.Data.List.Forall2

/-!
# Staging files that can be read

When every path has a file name and can be read, each round of the loop is one `put`, and nothing but the outcomes of
these decides what the loop does.

* `Input`, `Reads` : what is read, under which names;
* `putEach`, `taken`, `skips` : the store after all inputs, those that are stored and those that are not;
* `put_input_cases` : an input is skipped, or stored;
* `stageEach_of_reads` : the loop never fails on such inputs;
* `putEach_induction` : what each input keeps is kept by the loop;
* `used_putEach` : the space in use grows by the cost of the files that are stored.
-/

namespace BoundedStore

/-- A file to be staged. -/
structure Input where
  name : String
  data : Bytes

namespace Input

/-- The key that the input is put under. -/
def target (input : Input) : String := "/" ++ input.name

/-- The bytes of a file and of its companion. -/
def cost (bytesPerChecksum : Nat) (input : Input) : Nat :=
  input.data.length + 4 * ((input.data.length + bytesPerChecksum - 1) / bytesPerChecksum) + 8

end Input

/-- The paths have the names of the inputs, and reading them gives their data. -/
def Reads (files : Files) : List String → List Input → Prop :=
  List.Forall₂ fun path input => fileName? path = some input.name ∧ files path = .ok input.data

/-- What the ledger is asked for is the cost, as long as no count is held at its largest value. -/
theorem Granularity.footprint_size {g : Granularity} (input : Input)
    (h : g.footprint (Bytes.size input.data) < 0xFFFF_FFFF_FFFF_FFFF) :
    g.footprint (Bytes.size input.data) = input.cost g.bytes.toNat := by
  have hsize := Bytes.toNat_size_eq_min input.data
  unfold Granularity.footprint Input.cost at *
  have hlength : (Bytes.size input.data).toNat = input.data.length := by omega
  rw [Granularity.toNat_companionSize, hlength] at h ⊢
  omega

/-- Why a file is skipped for which `put` gave this result. -/
def skipReason? : Except StoreError Bool → Option SkipReason
  | .ok true => none
  | .ok false => some .noRoom
  | .error _ => some .duplicateName

namespace Store

/-- The store after one input has been put into it. -/
def after (s : Store) (input : Input) : Store := (s.put input.target input.data).2

/-- Whether an input is stored. -/
def takes (s : Store) (input : Input) : Bool :=
  match (s.put input.target input.data).1 with
  | .ok stored => stored
  | .error _ => false

/-- What is noted when an input is not stored. -/
def skip? (s : Store) (input : Input) : Option (String × SkipReason) :=
  (skipReason? (s.put input.target input.data).1).map fun reason => (input.target, reason)

/-- The store after the inputs have been put into it in turn. -/
def putEach : Store → List Input → Store
  | s, [] => s
  | s, input :: inputs => putEach (s.after input) inputs

/-- The inputs that are stored. -/
def taken : Store → List Input → List Input
  | _, [] => []
  | s, input :: inputs =>
    if s.takes input then input :: taken (s.after input) inputs else taken (s.after input) inputs

/-- The keys of the inputs that are not stored, with the reasons. -/
def skips : Store → List Input → List (String × SkipReason)
  | _, [] => []
  | s, input :: inputs => (s.skip? input).toList ++ skips (s.after input) inputs

/-! ## One input -/

/-- An input is skipped and nothing changes, or it is stored. -/
theorem put_input_cases (s : Store) (input : Input) :
    (s.takes input = false ∧ (∃ reason, s.skip? input = some (input.target, reason)) ∧ s.after input = s) ∨
      ∃ file sums : Buffer, s.takes input = true ∧ s.skip? input = none ∧
        s.committed.get? (Key.ofPath input.target) = none ∧
        s.used.toNat + s.granularity.footprint (Bytes.size input.data) < s.capacity.toNat ∧
        file.bytes = input.data ∧ sums.bytes = Companion.encode s.granularity input.data ∧
        sums.capacity = s.granularity.companionSize (Bytes.size input.data) ∧
        s.after input = s.stored (Key.ofPath input.target) input.data file sums := by
  unfold takes skip? after
  rcases s.put_cases input.target input.data with ⟨-, hput⟩ | ⟨-, -, hput⟩ |
    ⟨file, sums, hnew, -, -, hfits, hfile, hsums, hcapacity, hput⟩
  · exact Or.inl ⟨by rw [hput], ⟨.duplicateName, by rw [hput]; rfl⟩, by rw [hput]⟩
  · exact Or.inl ⟨by rw [hput], ⟨.noRoom, by rw [hput]; rfl⟩, by rw [hput]⟩
  · exact Or.inr ⟨file, sums, by rw [hput], by rw [hput]; rfl, Table.contains_eq_false_iff.1 hnew, hfits, hfile, hsums,
      hcapacity, by rw [hput]⟩

theorem stageFile_of_reads {files : Files} {path : String} {input : Input} (hname : fileName? path = some input.name)
    (hdata : files path = .ok input.data) (s : Store) :
    stageFile files s path = .ok (s.after input, s.skip? input) := by
  unfold after skip? Input.target
  rcases s.put_cases ("/" ++ input.name) input.data with ⟨-, hput⟩ | ⟨-, -, hput⟩ |
    ⟨file, sums, -, -, -, -, -, -, -, hput⟩
  · simp only [stageFile, hname, hdata, hput, skipReason?, Option.map_some]
  · simp only [stageFile, hname, hdata, hput, skipReason?, Option.map_some]
  · simp only [stageFile, hname, hdata, hput, skipReason?, Option.map_none]

@[simp] theorem granularity_after (s : Store) (input : Input) : (s.after input).granularity = s.granularity := by
  rcases s.put_input_cases input with ⟨-, -, hafter⟩ | ⟨file, sums, -, -, -, -, -, -, -, hafter⟩
  · rw [hafter]
  · rw [hafter, granularity_stored]

/-! ## The loop -/

/-- The loop puts every input, and notes those that are not stored. -/
theorem stageEach_of_reads {files : Files} {paths : List String} {inputs : List Input}
    (hreads : Reads files paths inputs) (s : Store) :
    stageEach files paths s = .ok (s.putEach inputs, s.skips inputs) := by
  induction hreads generalizing s with
  | nil => rfl
  | cons hinput _ ih => simp only [stageEach, stageFile_of_reads hinput.1 hinput.2, ih, putEach, skips]

theorem putEach_induction {P : Store → Prop} (hafter : ∀ s input, P s → P (after s input)) {s : Store}
    (inputs : List Input) (h : P s) : P (s.putEach inputs) := by
  induction inputs generalizing s with
  | nil => exact h
  | cons input inputs ih => exact ih (hafter s input h)

/-- The files that are stored take up their cost, and the others nothing. -/
theorem used_putEach (s : Store) (inputs : List Input) :
    (s.putEach inputs).used.toNat =
      s.used.toNat + ((s.taken inputs).map (Input.cost s.granularity.bytes.toNat)).sum := by
  induction inputs generalizing s with
  | nil => rfl
  | cons input inputs ih =>
    rw [putEach, ih, granularity_after, taken]
    rcases s.put_input_cases input with ⟨hskipped, -, hafter⟩ |
      ⟨file, sums, htaken, -, -, hfits, -, -, -, hafter⟩
    · simp [hskipped, hafter]
    · have hcapacity := Word.toNat_lt s.capacity
      have hcost := s.granularity.footprint_size input (by omega)
      simp only [htaken, if_true, List.map_cons, List.sum_cons]
      rw [hafter, used_stored _ _ _ _ _ hfits, hcost, Nat.add_assoc]

end Store
end BoundedStore
