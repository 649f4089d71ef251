import BoundedStore.Proofs.Staging.Outcome

/-!
# What becomes of every input

An input is stored or noted as skipped, never both. Those that are stored are listed, with their lengths, unless their
name has the shape of a companion: the listing keeps these back, as it does the companions that the store has made.

* `taken_skips` : the inputs that are stored and those that are skipped are all inputs;
* `lengths_after`, `lengths_putEach` : the listing grows by the stored inputs whose names have another shape;
* `report_accounts` : the listed, the kept back and the skipped inputs are all inputs;
* `staging_accounts` : the report mentions every input once, but for those that the listing keeps back;
* `staging_hides_companion_name` : such an input is in neither list of the report.
-/

namespace BoundedStore

/-- Whether the input is put under a key with the shape of a companion. -/
def Input.shaped (input : Input) : Bool := isCompanionPath input.target

theorem Reads.isName {files : Files} {paths : List String} {inputs : List Input} (h : Reads files paths inputs) :
    ∀ input ∈ inputs, IsName input.name.toList := by
  induction h with
  | nil => simp
  | cons hinput _ ih =>
    rintro other (_ | ⟨_, hother⟩)
    · exact isName_of_fileName? hinput.1
    · exact ih other hother

namespace Store

variable (s : Store)

/-! ## Stored or skipped -/

/-- Every input is stored or skipped. -/
theorem taken_skips (inputs : List Input) :
    ((s.taken inputs).map Input.target ++ (s.skips inputs).map Prod.fst).Perm (inputs.map Input.target) := by
  induction inputs generalizing s with
  | nil => exact List.Perm.refl _
  | cons input inputs ih =>
    rw [taken, skips, List.map_cons]
    rcases s.put_input_cases input with ⟨hskipped, ⟨reason, hskip⟩, -⟩ | ⟨_, _, htaken, hskip, -⟩
    · rw [hskipped, hskip, if_neg (by decide)]
      exact List.perm_middle.trans ((ih _).cons _)
    · rw [htaken, hskip, if_pos rfl]
      exact (ih _).cons _

/-! ## What is listed -/

/-- The listing with the sizes as numbers. -/
def lengths (s : Store) : List (String × Nat) := s.listing.map fun entry => (entry.1, entry.2.toNat)

theorem lengths_perm (s : Store) :
    s.lengths.Perm ((s.sizes.entries.filter fun entry => !entry.1.isCompanion).map fun entry =>
      (entry.1.text, entry.2.toNat)) := by
  have hperm := s.listing_perm.map fun entry => (entry.1, entry.2.toNat)
  rw [List.map_map] at hperm
  exact hperm

theorem lengths_stored {key : Key} {data : Bytes} {file : Buffer} (sums : Buffer)
    (hnew : s.committed.get? key = none) (hfile : file.bytes = data) :
    (s.stored key data file sums).lengths.Perm
      (if key.isCompanion then s.lengths else (key.text, data.length) :: s.lengths) := by
  have hsizes : s.sizes.get? key = none := by rw [sizes, Table.get?_map, hnew, Option.map_none]
  have hkept : ∀ (t : Table Key UInt64) {k : Key} (size : UInt64), k.isCompanion = true →
      ((t.insert k size).entries.filter fun entry => !entry.1.isCompanion) =
        t.entries.filter fun entry => !entry.1.isCompanion :=
    fun t k size hshape => t.filter_insert (fun k => !k.isCompanion) (by rw [hshape]; rfl) size
  have hbefore := s.lengths_perm
  have hafter := (s.stored key data file sums).lengths_perm
  rw [sizes_stored, hkept _ _ key.isCompanion_companion] at hafter
  split
  · next hshape =>
    rw [hkept _ _ hshape] at hafter
    exact hafter.trans hbefore.symm
  · next hshape =>
    have hperm := (Table.perm_insert s.sizes file.capacity hsizes).filter fun entry => !entry.1.isCompanion
    rw [List.filter_cons_of_pos (by simpa using hshape)] at hperm
    have hmap := hperm.map fun entry => (entry.1.text, entry.2.toNat)
    rw [List.map_cons, Buffer.toNat_capacity, hfile] at hmap
    exact hafter.trans (hmap.trans (hbefore.symm.cons _))

/-- A stored input is listed, unless its name has the shape of a companion. -/
theorem lengths_after {input : Input} (hname : IsName input.name.toList) (htaken : s.takes input = true) :
    (s.after input).lengths.Perm
      (if input.shaped then s.lengths else (input.target, input.data.length) :: s.lengths) := by
  rcases s.put_input_cases input with ⟨hskipped, -⟩ | ⟨file, sums, -, -, hnew, -, hfile, -, -, hafter⟩
  · rw [htaken] at hskipped
    cases hskipped
  · have hperm := s.lengths_stored sums hnew hfile
    have htext : (Key.ofPath input.target).text = input.target := canonicalPath_name hname
    rw [← hafter, htext] at hperm
    exact hperm

/-- The listing grows by the stored inputs whose names have another shape. -/
theorem lengths_putEach {inputs : List Input} (hnames : ∀ input ∈ inputs, IsName input.name.toList) :
    (s.putEach inputs).lengths.Perm
      ((((s.taken inputs).filter fun input => !input.shaped).map fun input => (input.target, input.data.length)) ++
        s.lengths) := by
  induction inputs generalizing s with
  | nil => exact List.Perm.refl _
  | cons input inputs ih =>
    have hrest := ih (s.after input) fun other hother => hnames other (List.mem_cons_of_mem _ hother)
    rw [putEach, taken]
    rcases s.put_input_cases input with ⟨hskipped, -, hafter⟩ | ⟨_, _, htaken, -⟩
    · rw [hskipped, if_neg (by decide)]
      rw [hafter] at hrest ⊢
      exact hrest
    · have hafter := s.lengths_after (hnames input List.mem_cons_self) htaken
      rw [htaken, if_pos rfl]
      refine hrest.trans ((hafter.append_left _).trans ?_)
      cases hshape : input.shaped with
      | true => rw [if_pos rfl, List.filter_cons_of_neg (by simp [hshape])]
      | false =>
        rw [if_neg (by decide), List.filter_cons_of_pos (by simp [hshape]), List.map_cons, List.cons_append]
        exact List.perm_middle

theorem lengths_of_ofConfig {config : Config} {s : Store} (h : ofConfig config = .ok s) : s.lengths = [] := by
  obtain ⟨address, hbuild⟩ := build_of_ofConfig h
  obtain ⟨g, -, rfl⟩ := build_eq_ok_iff.1 hbuild
  exact List.perm_nil.1 (lengths_perm _)

/-! ## The report -/

/-- The inputs that are listed, those that are stored and kept back, and those that are skipped are all inputs. -/
theorem report_accounts {inputs : List Input} (hlengths : (s.putEach inputs).lengths.Perm
      (((s.taken inputs).filter fun input => !input.shaped).map fun input => (input.target, input.data.length))) :
    ((s.report inputs).staged.map Prod.fst ++ (((s.taken inputs).filter Input.shaped).map Input.target ++
      (s.report inputs).skipped.map Prod.fst)).Perm (inputs.map Input.target) := by
  have hlisted := hlengths.map Prod.fst
  simp only [lengths, List.map_map, Function.comp_def] at hlisted
  have hstored : (((s.taken inputs).filter fun input => !input.shaped).map Input.target ++
      ((s.taken inputs).filter Input.shaped).map Input.target).Perm ((s.taken inputs).map Input.target) := by
    rw [← List.map_append]
    exact (List.perm_append_comm.trans (List.filter_append_perm Input.shaped _)).map _
  rw [← List.append_assoc]
  exact (((hlisted.append_right _).trans hstored).append_right _).trans (s.taken_skips inputs)

/-- **Every input is listed as staged, or as skipped, or it is a stored one whose name has the shape of a companion.**
What is listed as staged are the stored inputs of any other name, with their lengths; so the two lists of the report
are all inputs exactly when no input with a companion's name is stored. -/
theorem staging_accounts {s : Store} {files : Files} {config : Config} {paths : List String} {inputs : List Input}
    (hconfig : ofConfig config = .ok s) (hreads : Reads files paths inputs) :
    ∃ report, stageFiles files config paths = .ok report ∧
      (report.staged.map fun entry => (entry.1, entry.2.toNat)).Perm
        (((s.taken inputs).filter fun input => !input.shaped).map fun input => (input.target, input.data.length)) ∧
      (report.staged.map Prod.fst ++ (((s.taken inputs).filter Input.shaped).map Input.target ++
        report.skipped.map Prod.fst)).Perm (inputs.map Input.target) ∧
      ((report.staged.map Prod.fst ++ report.skipped.map Prod.fst).Perm (inputs.map Input.target) ↔
        ∀ input ∈ s.taken inputs, input.shaped = false) := by
  have hlengths := s.lengths_putEach hreads.isName
  rw [lengths_of_ofConfig hconfig, List.append_nil] at hlengths
  have hall := s.report_accounts hlengths
  refine ⟨s.report inputs, stageFiles_of_reads hconfig hreads, hlengths, hall, ?_, ?_⟩
  · -- there are as many inputs as entries in the two lists, so nothing is kept back
    intro hboth
    have hlength := hall.length_eq.trans hboth.length_eq.symm
    simp only [List.length_append, List.length_map] at hlength
    have hnone : (s.taken inputs).filter Input.shaped = [] := List.length_eq_zero_iff.1 (by omega)
    intro input hinput
    simpa using List.filter_eq_nil_iff.1 hnone input hinput
  · intro hshapes
    have hnone : (s.taken inputs).filter Input.shaped = [] := by
      rw [List.filter_eq_nil_iff]
      intro input hinput
      simp [hshapes input hinput]
    rw [hnone] at hall
    exact hall

/-- A file with the name of a companion, the file that has this companion, and one more of its name. -/
theorem staging_accounts_companion_name :
    ∃ report, stageFiles (fun _ => .ok [7]) Config.default [".a.crc", "a", "sub/a"] = .ok report ∧
      (report.staged.map fun entry => (entry.1, entry.2.toNat)).Perm [("/a", 1)] ∧
      (report.staged.map Prod.fst ++ (["/.a.crc"] ++ report.skipped.map Prod.fst)).Perm ["/.a.crc", "/a", "/a"] := by
  have hnames : fileName? ".a.crc" = some ".a.crc" ∧ fileName? "a" = some "a" ∧ fileName? "sub/a" = some "a" := by
    decide +kernel
  obtain ⟨hcompanion, hfile, hsame⟩ := hnames
  have hreads : Reads (fun _ => .ok [7]) [".a.crc", "a", "sub/a"] [⟨".a.crc", [7]⟩, ⟨"a", [7]⟩, ⟨"a", [7]⟩] :=
    .cons ⟨hcompanion, rfl⟩ (.cons ⟨hfile, rfl⟩ (.cons ⟨hsame, rfl⟩ .nil))
  obtain ⟨report, hreport, hstaged, hall, -⟩ := staging_accounts ofConfig_default hreads
  refine ⟨report, hreport, hstaged.trans ?_, (((?_ : List.Perm ["/.a.crc"] _).append_right _).append_left _).trans
    (hall.trans ?_)⟩
  · decide +kernel
  · decide +kernel
  · decide +kernel

/-- A file with the name of a companion is stored and takes space, and neither list of the report mentions it. -/
theorem staging_hides_companion_name :
    ∃ report, fileName? ".a.crc" = some ".a.crc" ∧
      stageFiles (fun _ => .ok [7]) Config.default [".a.crc"] = .ok report ∧ report.used.toNat = 13 ∧
      ¬(report.staged.map Prod.fst ++ report.skipped.map Prod.fst).Perm ["/.a.crc"] := by
  have hname : fileName? ".a.crc" = some ".a.crc" := by decide +kernel
  have hreads : Reads (fun _ => .ok [7]) [".a.crc"] [⟨".a.crc", [7]⟩] := .cons ⟨hname, rfl⟩ .nil
  refine ⟨_, hname, stageFiles_of_reads ofConfig_default hreads, ?_, ?_⟩
  · decide +kernel
  · decide +kernel

end Store
end BoundedStore
