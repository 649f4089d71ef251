import BoundedStore.Files.Error
import BoundedStore.Staging.Report
import BoundedStore.Store.WholeFile

/-!
# Staging

Files are put into a new store under their names, every file in the store is held against its companion, and the
store is ended.

* `fileName?` : the last name of a path, which is an ordinary name (`isName_of_fileName?`);
* `stageFile`, `stageEach` : put files into the store and note those that are skipped;
* `sortTexts` : texts in the order of their bytes (`sortTexts_ordered`), in whatever order they come
  (`sortTexts_perm`, `sortTexts_eq_of_perm`);
* `verifyAll` : the lengths of the verified files;
* `stageFiles` : the whole.
-/

namespace BoundedStore

inductive StageError where
  /-- The store cannot be built, or a file in it cannot be measured. -/
  | store (e : StoreError)
  | noFileName (path : String)
  | unreadable (path : String) (cause : FileError)
  | rejected (path : String) (cause : StoreError)
  | unverified (key : String) (cause : StoreError)
  deriving DecidableEq

/-- The message of an error followed by that of its cause. -/
def StageError.message : StageError → String
  | .store e => e.message
  | .noFileName path => s!"{path} has no file name"
  | .unreadable path cause => s!"failed to read {path}: {cause.message}"
  | .rejected path cause => s!"failed to stage {path}: {cause.message}"
  | .unverified key cause => s!"verification failed for {key}: {cause.message}"

/-- The last component of a path, if it is a name. Components that are empty or `.` do not count. -/
def fileName? (path : String) : Option String :=
  match ((path.toList.splitOn '/').filter fun cs => cs ≠ [] ∧ cs ≠ ['.']).getLast? with
  | none => none
  | some cs => if cs = ['.', '.'] then none else some (String.ofList cs)

/-- A file name is an ordinary name. -/
theorem isName_of_fileName? {path name : String} (h : fileName? path = some name) : IsName name.toList := by
  unfold fileName? at h
  split at h
  · cases h
  · next component hlast =>
    split at h
    · cases h
    · next hdots =>
      have hmem := List.mem_of_getLast? hlast
      rw [List.mem_filter, decide_eq_true_eq] at hmem
      rw [← Option.some.inj h, String.toList_ofList]
      exact ⟨hmem.2.1, slash_notMem_of_mem_splitOn hmem.1, hmem.2.2, hdots⟩

/-- What becomes of one file: the store after it, and the reason if it was skipped. -/
def stageFile (files : Files) (s : Store) (path : String) :
    Except StageError (Store × Option (String × SkipReason)) :=
  match fileName? path with
  | none => .error (.noFileName path)
  | some name =>
    let key := "/" ++ name
    match files path with
    | .error cause => .error (.unreadable path cause)
    | .ok data =>
      match s.put key data with
      | (.ok true, s) => .ok (s, none)
      | (.ok false, s) => .ok (s, some (key, .noRoom))
      | (.error (.alreadyExists _), s) => .ok (s, some (key, .duplicateName))
      | (.error e, s) => if e.isOutOfSpace then .ok (s, some (key, .stated e.message)) else .error (.rejected path e)

/-- Stages the files in their order. -/
def stageEach (files : Files) : List String → Store → Except StageError (Store × List (String × SkipReason))
  | [], s => .ok (s, [])
  | path :: paths, s =>
    match stageFile files s path with
    | .error e => .error e
    | .ok (s, skip) =>
      match stageEach files paths s with
      | .error e => .error e
      | .ok (s, skips) => .ok (s, skip.toList ++ skips)

/-! ## Sorting -/

/-- The first text does not come after the second in the order of UTF-8 bytes. -/
def textLe (a b : String) : Bool := a.toByteArray.data.toList ≤ b.toByteArray.data.toList

theorem textLe_trans (a b c : String) (hab : textLe a b = true) (hbc : textLe b c = true) : textLe a c = true := by
  rw [textLe, decide_eq_true_eq] at hab hbc ⊢
  exact List.le_trans hab hbc

theorem textLe_total (a b : String) : (textLe a b || textLe b a) = true := by
  rw [Bool.or_eq_true, textLe, textLe, decide_eq_true_eq, decide_eq_true_eq]
  exact List.le_total _ _

theorem textLe_antisymm {a b : String} (hab : textLe a b = true) (hba : textLe b a = true) : a = b := by
  rw [textLe, decide_eq_true_eq] at hab hba
  exact text_eq_of_utf8_eq (List.le_antisymm hab hba)

/-- The texts in the order of their UTF-8 bytes. -/
def sortTexts (texts : List String) : List String := texts.mergeSort textLe

theorem sortTexts_perm (texts : List String) : (sortTexts texts).Perm texts := List.mergeSort_perm _ _

theorem sortTexts_pairwise (texts : List String) : (sortTexts texts).Pairwise fun a b => textLe a b = true :=
  List.pairwise_mergeSort textLe_trans textLe_total texts

/-- The order in which the texts came is forgotten. -/
theorem sortTexts_eq_of_perm {as bs : List String} (h : as.Perm bs) : sortTexts as = sortTexts bs := by
  have hsame := (sortTexts_perm as).trans (h.trans (sortTexts_perm bs).symm)
  exact hsame.eq_of_pairwise (fun _ _ _ _ => textLe_antisymm) (sortTexts_pairwise as) (sortTexts_pairwise bs)

/-- Where no text comes twice, each comes strictly before the next. -/
theorem sortTexts_ordered {texts : List String} (h : texts.Nodup) :
    ((sortTexts texts).map fun text => text.toByteArray.data.toList).Pairwise (· < ·) := by
  have hnodup : (sortTexts texts).Nodup := (sortTexts_perm texts).nodup_iff.2 h
  rw [List.pairwise_map]
  refine (sortTexts_pairwise texts).imp₂ (fun a b hle hne => ?_) hnodup
  rw [textLe, decide_eq_true_eq] at hle
  exact Std.lt_of_le_of_ne hle fun hbytes => hne (text_eq_of_utf8_eq hbytes)

/-! ## Verifying and reporting -/

/-- The keys with the lengths of their files, each verified. -/
def verifyAll (s : Store) : List String → Except StageError (List (String × UInt64))
  | [] => .ok []
  | key :: keys =>
    match s.verify key with
    | .error e => .error (.unverified key e)
    | .ok () =>
      match s.length key with
      | .error e => .error (.store e)
      | .ok n =>
        match verifyAll s keys with
        | .error e => .error e
        | .ok rest => .ok ((key, n) :: rest)

/-- Stages the files at `paths` in a new store and reports on it. -/
def stageFiles (files : Files) (config : Config) (paths : List String) : Except StageError Report :=
  match Store.ofConfig config with
  | .error e => .error (.store e)
  | .ok s =>
    let capacity := s.capacity
    match stageEach files paths s with
    | .error e => .error e
    | .ok (s, skipped) =>
      match verifyAll s (sortTexts (s.list fun key => !isCompanionPath key)) with
      | .error e => .error e
      | .ok staged => .ok ⟨staged, skipped, s.used, capacity⟩

end BoundedStore
