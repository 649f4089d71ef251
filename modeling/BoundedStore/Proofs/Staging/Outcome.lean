import BoundedStore.Proofs.Staging.Verified

/-!
# What a staging depends on

A staging of files that can be read always gives a report, and the report depends on the names and the lengths of the
files alone. Two runs over files with the same names and lengths go through stores that are `Alike`: the ledgers agree,
and so do the sizes of the files under every key. The contents could make a difference only where a file is held
against its companion, and there every file passes.

* `Alike.after`, `Alike.putEach` : inputs alike in name and length keep the stores alike, and are skipped alike;
* `stageFiles_of_reads` : the report, put together from what the loop leaves;
* `Below.after` : the space in use stays below the capacity;
* `staging_total` : the report exists, is in order, and is the same for other contents.
-/

namespace BoundedStore

/-- Inputs with the same name and as many bytes. -/
def Input.SameShape (a b : Input) : Prop := a.name = b.name ∧ a.data.length = b.data.length

theorem Input.SameShape.target {a b : Input} (h : a.SameShape b) : a.target = b.target := by
  rw [Input.target, h.1, Input.target]

theorem Input.SameShape.size {a b : Input} (h : a.SameShape b) : Bytes.size a.data = Bytes.size b.data := by
  rw [Bytes.size, h.2, Bytes.size]

namespace Store

/-! ## Stores that differ in contents only -/

/-- Stores that hold files of the same sizes under the same keys. -/
structure Alike (s t : Store) : Prop where
  granularity : s.granularity = t.granularity
  ledger : s.ledger = t.ledger
  closed : s.closed = t.closed
  sizes : s.sizes = t.sizes

theorem Alike.refl (s : Store) : s.Alike s := ⟨rfl, rfl, rfl, rfl⟩

theorem contains_sizes (s : Store) (key : Key) : s.sizes.contains key = s.committed.contains key :=
  Table.contains_map _ _ _

theorem sizes_stored (s : Store) (key : Key) (data : Bytes) (file sums : Buffer) :
    (s.stored key data file sums).sizes = (s.sizes.insert key file.capacity).insert key.companion sums.capacity := by
  simp only [sizes, committed_stored, Table.map_insert]

variable {s t : Store}

theorem Alike.contains (h : Alike s t) (key : Key) : s.committed.contains key = t.committed.contains key := by
  rw [← contains_sizes, h.sizes, contains_sizes]

theorem Alike.isCommitted (h : Alike s t) (path : String) : s.isCommitted path = t.isCommitted path :=
  h.contains (Key.ofPath path)

/-- The same files are listed, and sorting them leaves one list. -/
theorem Alike.listing (h : Alike s t) : s.listing = t.listing := by
  have hsame : (s.list fun key => !isCompanionPath key).Perm (t.list fun key => !isCompanionPath key) := by
    rw [List.perm_ext_iff_of_nodup (s.nodup_list _) (t.nodup_list _)]
    intro text
    simp only [mem_list_iff, h.contains]
  simp only [Store.listing, sortTexts_eq_of_perm hsame, fileSize, h.sizes]

/-- A reservation is granted by what the ledger says. -/
theorem Alike.reserve (h : Alike s t) (path : String) (size : UInt64) :
    (s.reserve path size).1 = (t.reserve path size).1 := by
  unfold Store.reserve
  simp only [h.granularity, h.ledger, h.closed]
  cases Word.add? size (t.granularity.companionSize size) with
  | none => rfl
  | some total =>
    dsimp only
    cases t.closed with
    | true => rfl
    | false =>
      cases t.ledger.fits total with
      | false => rfl
      | true => cases Buffer.allocate size <;> cases Buffer.allocate (t.granularity.companionSize size) <;> rfl

variable {a b : Input}

theorem Alike.result (h : Alike s t) (hinput : a.SameShape b) :
    (s.put a.target a.data).1 = (t.put b.target b.data).1 := by
  rw [fst_put, fst_put, hinput.target, hinput.size, h.isCommitted, h.reserve]

theorem Alike.skip? (h : Alike s t) (hinput : a.SameShape b) : s.skip? a = t.skip? b := by
  rw [Store.skip?, h.result hinput, hinput.target, Store.skip?]

theorem Alike.takes (h : Alike s t) (hinput : a.SameShape b) : s.takes a = t.takes b := by
  rw [Store.takes, h.result hinput, Store.takes]

theorem Alike.after (h : Alike s t) (hinput : a.SameShape b) : Alike (s.after a) (t.after b) := by
  have htakes := h.takes hinput
  rcases s.put_input_cases a with ⟨hskipped, -, hs⟩ | ⟨file, sums, htaken, -, -, -, hfile, -, hsums, hs⟩
  · rcases t.put_input_cases b with ⟨-, -, ht⟩ | ⟨_, _, htaken, -⟩
    · rw [hs, ht]
      exact h
    · rw [hskipped, htaken] at htakes
      cases htakes
  · rcases t.put_input_cases b with ⟨hskipped, -⟩ | ⟨file', sums', -, -, -, -, hfile', -, hsums', ht⟩
    · rw [htaken, hskipped] at htakes
      cases htakes
    · have hcapacity : file.capacity = file'.capacity := by
        rw [Buffer.capacity, hfile, hinput.size, Buffer.capacity, hfile']
      rw [hs, ht]
      constructor
      · rw [granularity_stored, granularity_stored, h.granularity]
      · rw [ledger_stored, ledger_stored, h.ledger, h.granularity, hinput.size]
      · rw [closed_stored, closed_stored, h.closed]
      · rw [sizes_stored, sizes_stored, h.sizes, hinput.target, hcapacity, hsums, hsums', h.granularity, hinput.size]

theorem Alike.putEach {as bs : List Input} (hinputs : List.Forall₂ Input.SameShape as bs) (h : Alike s t) :
    s.skips as = t.skips bs ∧ Alike (s.putEach as) (t.putEach bs) := by
  induction hinputs generalizing s t with
  | nil => exact ⟨rfl, h⟩
  | cons hinput _ ih =>
    obtain ⟨hskips, halike⟩ := ih (h.after hinput)
    exact ⟨by rw [skips, skips, h.skip? hinput, hskips], halike⟩

/-! ## The space in use -/

/-- Nothing is in use, or less than the capacity. -/
def Below (s : Store) : Prop := s.used = 0 ∨ s.used < s.capacity

theorem Below.after (h : s.Below) (input : Input) : (s.after input).Below := by
  rcases s.put_input_cases input with ⟨-, -, hafter⟩ | ⟨file, sums, -, -, -, hfits, -, -, -, hafter⟩
  · rw [hafter]
    exact h
  · right
    rw [hafter, capacity_stored, UInt64.lt_iff_toNat_lt, used_stored _ _ _ _ _ hfits]
    exact hfits

@[simp] theorem capacity_after (s : Store) (input : Input) : (s.after input).capacity = s.capacity := by
  rcases s.put_input_cases input with ⟨-, -, hafter⟩ | ⟨file, sums, -, -, -, -, -, -, -, hafter⟩
  · rw [hafter]
  · rw [hafter, capacity_stored]

theorem capacity_putEach (s : Store) (inputs : List Input) : (s.putEach inputs).capacity = s.capacity :=
  putEach_induction (P := fun t => t.capacity = s.capacity) (fun t input h => by rw [capacity_after, h]) inputs rfl

/-! ## The report -/

/-- The report on a store into which all inputs have been put. -/
def report (s : Store) (inputs : List Input) : Report :=
  ⟨(s.putEach inputs).listing, s.skips inputs, (s.putEach inputs).used, s.capacity⟩

theorem stageFiles_of_reads {files : Files} {config : Config} {paths : List String} {inputs : List Input}
    (hconfig : ofConfig config = .ok s) (hreads : Reads files paths inputs) :
    stageFiles files config paths = .ok (s.report inputs) := by
  have hverify := verifyAll_sortTexts ((verifiable_of_ofConfig hconfig).putEach inputs)
  simp only [stageFiles, hconfig, stageEach_of_reads hreads, hverify, report]

theorem Alike.report {as bs : List Input} (hinputs : List.Forall₂ Input.SameShape as bs) (h : Alike s t) :
    s.report as = t.report bs := by
  obtain ⟨hskips, halike⟩ := Alike.putEach hinputs h
  simp only [Store.report, halike.listing, used, capacity, hskips, halike.ledger, h.ledger]

/-- **Staging succeeds on every input that can be read, whatever it holds.** The files of the report are in the
strict order of the UTF-8 bytes of their keys; the space in use is what the stored files and their companions take,
and less than the capacity unless nothing is in use; and files of the same names and lengths give the same report. -/
theorem staging_total {files : Files} {config : Config} {paths : List String} {inputs : List Input}
    (hconfig : ofConfig config = .ok s) (hreads : Reads files paths inputs) :
    ∃ report, stageFiles files config paths = .ok report ∧
      (report.staged.map fun entry => entry.1.toByteArray.data.toList).Pairwise (· < ·) ∧
      report.used.toNat = ((s.taken inputs).map (Input.cost config.bytesPerChecksum.toNat)).sum ∧
      report.capacity = config.capacityBytes ∧
      (report.used = 0 ∨ report.used < report.capacity) ∧
      ∀ (files' : Files) (paths' : List String) (inputs' : List Input), Reads files' paths' inputs' →
        List.Forall₂ Input.SameShape inputs inputs' → stageFiles files' config paths' = .ok report := by
  obtain ⟨address, hbuild⟩ := build_of_ofConfig hconfig
  have hzero := used_of_build hbuild
  refine ⟨s.report inputs, stageFiles_of_reads hconfig hreads, listing_ordered _, ?_,
    capacity_of_build hbuild, ?_, ?_⟩
  · have hused := used_putEach s inputs
    rw [hzero, UInt64.toNat_zero, Nat.zero_add, granularity_of_build hbuild] at hused
    exact hused
  · have hbelow : (s.putEach inputs).Below := putEach_induction (fun _ input h => h.after input) inputs (Or.inl hzero)
    unfold Below at hbelow
    rw [capacity_putEach] at hbelow
    exact hbelow
  · intro files' paths' inputs' hreads' hshape
    rw [stageFiles_of_reads hconfig hreads', Alike.report hshape (Alike.refl s)]

/-- A file under the name of a companion, the file that has this companion, and one more of its name: two files and
their companions are stored, with 13 bytes each, whatever byte the files hold. -/
theorem staging_total_companion_name :
    ∃ report, stageFiles (fun _ => .ok [7]) Config.default [".a.crc", "a", "sub/a"] = .ok report ∧
      report.used.toNat = 26 ∧ stageFiles (fun _ => .ok [8]) Config.default ["b/.a.crc", "b/a", "a"] = .ok report := by
  have hnames : fileName? ".a.crc" = some ".a.crc" ∧ fileName? "a" = some "a" ∧ fileName? "sub/a" = some "a" ∧
      fileName? "b/.a.crc" = some ".a.crc" ∧ fileName? "b/a" = some "a" := by
    decide +kernel
  obtain ⟨ha, hb, hc, hd, he⟩ := hnames
  have hreads : Reads (fun _ => .ok [7]) [".a.crc", "a", "sub/a"] [⟨".a.crc", [7]⟩, ⟨"a", [7]⟩, ⟨"a", [7]⟩] :=
    .cons ⟨ha, rfl⟩ (.cons ⟨hb, rfl⟩ (.cons ⟨hc, rfl⟩ .nil))
  have hreads' : Reads (fun _ => .ok [8]) ["b/.a.crc", "b/a", "a"] [⟨".a.crc", [8]⟩, ⟨"a", [8]⟩, ⟨"a", [8]⟩] :=
    .cons ⟨hd, rfl⟩ (.cons ⟨he, rfl⟩ (.cons ⟨hb, rfl⟩ .nil))
  obtain ⟨report, hreport, -, hused, -, -, hother⟩ := staging_total ofConfig_default hreads
  refine ⟨report, hreport, ?_, hother _ _ _ hreads' (.cons ⟨rfl, rfl⟩ (.cons ⟨rfl, rfl⟩ (.cons ⟨rfl, rfl⟩ .nil)))⟩
  rw [hused]
  decide +kernel

end Store
end BoundedStore
