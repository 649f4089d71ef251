import BoundedStore.Config.Document
import BoundedStore.Proofs.Checksum.Verification
import BoundedStore.Proofs.Path.Address
import BoundedStore.Proofs.Writing.Published

/-!
# Valid configurations

A configuration is looked at twice: when it is checked, and when a store is built. The address is read both times; the
capacity is refused by the check and held at the largest count by the store; and that the granularity is not zero is
found by either.

* `fault?_eq_none_iff`, `exists_ofConfig_iff` : what the check demands, and what the store;
* `Session.granularity_run` : the granularity of a store never changes;
* `Config.Builds` : a store that is just what its configuration says;
* `Config.ofParsed`, `Config.Accepted` : the configurations that come out of a document, however it is parsed;
* `validation_agrees` : which configurations pass the check, and what is built from them.
-/

namespace BoundedStore

namespace Config

/-! ## Two looks at a configuration -/

theorem toNat_megabyte : megabyte.toNat = 1048576 := by decide

/-- A capacity that passes the check is not held. -/
theorem toNat_capacityBytes {c : Config} (h : c.sizeMb.toNat * 1048576 < 0x1_0000_0000_0000_0000) :
    c.capacityBytes.toNat = c.sizeMb.toNat * 1048576 := by
  rw [capacityBytes, Word.toNat_mulCapped, toNat_megabyte]
  exact Nat.min_eq_left (Nat.le_of_lt_succ h)

theorem fault?_eq_none_iff {c : Config} :
    c.fault? = none ↔
      c.bytesPerChecksum ≠ 0 ∧ c.sizeMb.toNat * 1048576 < 0x1_0000_0000_0000_0000 ∧
        ∃ a, Address.parse c.uri = .ok a := by
  have hlarge : Word.mul? c.sizeMb megabyte = none ↔ 0x1_0000_0000_0000_0000 ≤ c.sizeMb.toNat * 1048576 := by
    rw [Word.mul?_eq_none_iff, toNat_megabyte]
  unfold fault?
  split
  · next hzero => simp [hzero]
  · next hpos =>
    cases hbytes : Word.mul? c.sizeMb megabyte with
    | none =>
      have hnot := hlarge.1 hbytes
      simp only [reduceCtorEq, false_iff]
      omega
    | some bytes =>
      have hsize : c.sizeMb.toNat * 1048576 < 0x1_0000_0000_0000_0000 := by
        apply Nat.lt_of_not_le
        intro hle
        rw [hlarge.2 hle] at hbytes
        cases hbytes
      cases haddress : Address.parse c.uri with
      | error e => simp
      | ok a => simp [hpos, hsize]

end Config

namespace Store

theorem exists_build_iff {address : Address} {capacity : UInt64} {granularity : UInt32} :
    (∃ s, build address capacity granularity = .ok s) ↔ granularity ≠ 0 := by
  rw [ne_eq, ← Granularity.ofWord?_eq_none_iff]
  unfold build
  split
  · next hnone => simp [hnone]
  · next g hg => simp [hg]

/-- A store is built at the address that is read, with the capacity that may be held. -/
theorem ofConfig_eq_ok_iff {c : Config} {s : Store} :
    ofConfig c = .ok s ↔
      ∃ a, Address.parse c.uri = .ok a ∧ build a c.capacityBytes c.bytesPerChecksum = .ok s := by
  unfold ofConfig
  split
  · next e herror => simp [herror]
  · next a haddress => simp [haddress]

theorem exists_ofConfig_iff {c : Config} :
    (∃ s, ofConfig c = .ok s) ↔ c.bytesPerChecksum ≠ 0 ∧ ∃ a, Address.parse c.uri = .ok a := by
  simp only [ofConfig_eq_ok_iff]
  constructor
  · rintro ⟨s, a, ha, hs⟩
    exact ⟨exists_build_iff.1 ⟨s, hs⟩, a, ha⟩
  · rintro ⟨hpos, a, ha⟩
    obtain ⟨s, hs⟩ := exists_build_iff.2 hpos
    exact ⟨s, a, ha, hs⟩

/-- The name of a store is the text of its address. -/
theorem parse_name_of_ofConfig {c : Config} {s : Store} (h : ofConfig c = .ok s) :
    Address.parse s.name = .ok s.address := by
  obtain ⟨a, ha, hs⟩ := ofConfig_eq_ok_iff.1 h
  obtain ⟨g, -, rfl⟩ := build_eq_ok_iff.1 hs
  exact Address.parse_text_of_parse ha

/-- A companion whose header has the granularity zero is refused before any data are cut into chunks. -/
theorem verify_of_zero_granularity (s : Store) {path : String} {data companion : Bytes}
    (hdata : s.readAll path = .ok data) (hcompanion : s.readAll (companionPath path) = .ok companion)
    (hzero : (companion.drop 4).take 4 = Bytes.ofWord 0) :
    ∃ fault, s.verify path = .error (.invalidArgument fault) := by
  have hmalformed : ∃ fault, Companion.Malformed path companion fault :=
    Companion.exists_malformed_iff.2 (Or.inr (Or.inr hzero))
  obtain ⟨fault, hfault⟩ := hmalformed
  refine ⟨fault, ?_⟩
  simp only [verify, hdata, hcompanion]
  exact Companion.verify_eq_invalid_iff.2 hfault

end Store

/-! ## The granularity of a store -/

theorem Session.granularity_run (s : Session) (actions : List Action) :
    (s.run actions).store.granularity = s.store.granularity :=
  run_unchanged (f := fun s => s.store.granularity) (fun s action => (s.effect_step action).granularity) s actions

/-! ## Stores of valid configurations -/

namespace Config

/-- The store `s` is built from the configuration `c` and is just what it says. -/
structure Builds (c : Config) (s : Store) : Prop where
  built : Store.ofConfig c = .ok s
  /-- The capacity is not held at the largest count. -/
  capacity : s.capacity.toNat = c.sizeMb.toNat * 1048576
  name : Address.parse s.name = .ok s.address
  pos : c.bytesPerChecksum ≠ 0
  /-- Whatever is done with the store, data are cut into chunks of the configured size. -/
  granularity : ∀ actions, ((Session.start s).run actions).store.granularity.bytes = c.bytesPerChecksum
  /-- The only other size of chunks is that in the header of a companion, and it is not used if it is zero. -/
  header : ∀ actions path data companion, ((Session.start s).run actions).store.readAll path = .ok data →
    ((Session.start s).run actions).store.readAll (companionPath path) = .ok companion →
      (companion.drop 4).take 4 = Bytes.ofWord 0 →
        ∃ fault, ((Session.start s).run actions).store.verify path = .error (.invalidArgument fault)

theorem exists_builds {c : Config} (h : c.fault? = none) : ∃ s, c.Builds s := by
  obtain ⟨hpos, hsize, haddress⟩ := fault?_eq_none_iff.1 h
  obtain ⟨s, hs⟩ := Store.exists_ofConfig_iff.2 ⟨hpos, haddress⟩
  obtain ⟨a, -, hbuild⟩ := Store.ofConfig_eq_ok_iff.1 hs
  refine ⟨s, hs, ?_, Store.parse_name_of_ofConfig hs, hpos, fun actions => ?_, fun actions path data companion => ?_⟩
  · rw [Store.capacity_of_build hbuild, toNat_capacityBytes hsize]
  · rw [Session.granularity_run]
    exact Store.granularity_of_build hbuild
  · exact Store.verify_of_zero_granularity _

/-! ## Configurations out of documents -/

/-- What becomes of a document, whatever the parser has made of it. -/
def ofParsed : Option Config → Except ConfigError Config
  | none => .error .malformed
  | some c => c.check

theorem ofToml_eq_ofParsed (text : String) : ofToml text = ofParsed ((Toml.parse text).bind ofEntries?) := by
  unfold ofToml ofParsed
  rfl

theorem exists_ofToml_of_load {c : Config} {files : Files} {path : String} (h : load files path = .ok c) :
    ∃ text, ofToml text = .ok c := by
  unfold load at h
  split at h
  · cases h
  · next text _ => exact ⟨text, h⟩

/-- The configuration comes out of a document: of one that some parser has read, of a text, or of a file. -/
inductive Accepted (c : Config) : Prop
  | ofParsed {parsed : Option Config} (h : ofParsed parsed = .ok c)
  | ofToml {text : String} (h : ofToml text = .ok c)
  | load {files : Files} {path : String} (h : load files path = .ok c)

theorem fault?_of_ofParsed {c : Config} {parsed : Option Config} (h : ofParsed parsed = .ok c) : c.fault? = none := by
  cases parsed with
  | none => cases h
  | some d =>
    simp only [ofParsed, check] at h
    split at h
    · cases h
    · next hnone =>
      rw [← Except.ok.inj h]
      exact hnone

theorem Accepted.fault?_eq_none {c : Config} (h : c.Accepted) : c.fault? = none := by
  cases h with
  | ofParsed h => exact fault?_of_ofParsed h
  | ofToml h =>
    rw [ofToml_eq_ofParsed] at h
    exact fault?_of_ofParsed h
  | load h =>
    obtain ⟨text, htext⟩ := exists_ofToml_of_load h
    rw [ofToml_eq_ofParsed] at htext
    exact fault?_of_ofParsed htext

/-- **The check and the store agree.** A configuration passes the check if and only if a store is built from it and its
capacity in bytes is a 64-bit count. The store then has just this capacity, its address is read again from its name, and
in no state that it reaches are data cut into chunks of no bytes. So it is for every configuration that comes out of a
document, whatever the parser has made of it. -/
theorem validation_agrees (c : Config) :
    (c.fault? = none ↔ (∃ s, Store.ofConfig c = .ok s) ∧ c.sizeMb.toNat * 1048576 < 0x1_0000_0000_0000_0000) ∧
      (c.fault? = none → ∃ s, c.Builds s) ∧
      (c.Accepted → ∃ s, c.Builds s) := by
  refine ⟨?_, exists_builds, fun haccepted => exists_builds haccepted.fault?_eq_none⟩
  rw [fault?_eq_none_iff, Store.exists_ofConfig_iff]
  constructor
  · rintro ⟨hpos, hsize, haddress⟩
    exact ⟨⟨hpos, haddress⟩, hsize⟩
  · rintro ⟨⟨hpos, haddress⟩, hsize⟩
    exact ⟨hpos, hsize, haddress⟩

/-- The largest capacity that passes the check, and the least that does not, though a store is built from it. -/
example : (⟨17592186044415, 1, "a://"⟩ : Config).fault? = none ∧
    (⟨17592186044416, 1, "a://"⟩ : Config).fault? = some (.sizeTooLarge 17592186044416) ∧
    ∃ s, Store.ofConfig ⟨17592186044416, 1, "a://"⟩ = .ok s ∧ s.capacity = Word.largest :=
  ⟨by decide +kernel, by decide +kernel, _, rfl, rfl⟩

end Config
end BoundedStore
