import BoundedStore.Proofs.Checksum.Encoding
import Mathlib.Order.Bounds.Defs

/-!
# What agrees with a companion

`encode` and `verify` cut the data into chunks each for itself, and a companion may come from anywhere: cut off, too long
or with another header.

* `chunk`, `getElem?_chunks` : a chunk by its number;
* `firstMismatch_eq_none_iff`, `firstMismatch_eq_some_iff` : the comparison of chunks with checksums;
* `Companion.Malformed`, `verify_eq_invalid_iff` : the faults of a header; `exists_header` : a companion without a fault
  has a granularity;
* `verify_cases` : the outcomes behind a header; `verify_of_isLeast` : the first chunk that disagrees is the one named;
* `verify_eq_ok_iff` : when data and companion agree, whatever they are called;
* `accepts_exactly_encoded` : what `verify` says of any data and any companion.
-/

namespace BoundedStore

/-! ## Words and their bytes -/

theorem Bytes.ofWord_toWord (a b c d : UInt8) : ofWord (toWord a b c d) = [a, b, c, d] := by
  have ha := UInt8.toNat_lt a
  have hb := UInt8.toNat_lt b
  have hc := UInt8.toNat_lt c
  have hd := UInt8.toNat_lt d
  have hword : (toWord a b c d).toNat = ((a.toNat * 256 + b.toNat) * 256 + c.toNat) * 256 + d.toNat :=
    UInt32.toNat_ofNat_of_lt' (show _ < 0x1_0000_0000 by omega)
  simp only [ofWord, hword, List.cons.injEq, and_true, ← UInt8.toNat_inj, UInt8.toNat_ofNat']
  omega

theorem Bytes.exists_eq_ofWord {b : Bytes} (h : b.length = 4) : ∃ w, b = ofWord w := by
  match b, h with
  | [a, b, c, d], _ => exact ⟨toWord a b c d, (ofWord_toWord a b c d).symm⟩

theorem Bytes.ofWord_injective {v w : UInt32} (h : ofWord v = ofWord w) : v = w := by
  rw [← toWord_ofWord v, ← toWord_ofWord w]
  simp only [ofWord, List.cons.injEq, and_true] at h
  rw [h.1, h.2.1, h.2.2.1, h.2.2.2]

/-! ## Single chunks -/

/-- The chunk with number `index` of data that are cut into pieces of `size` bytes. -/
def chunk (size : Nat) (data : Bytes) (index : Nat) : Bytes := (data.drop (index * size)).take size

theorem getElem?_chunks {size : Nat} (hsize : 0 < size) (data : Bytes) (index : Nat) :
    (chunks size data)[index]? = if index * size < data.length then some (chunk size data index) else none := by
  induction index generalizing data with
  | zero =>
    by_cases hdata : data = []
    · subst hdata
      rfl
    · rw [chunks_of_ne_nil hsize hdata, Nat.zero_mul, if_pos (List.length_pos_iff.2 hdata), chunk, Nat.zero_mul]
      rfl
  | succ index ih =>
    by_cases hdata : data = []
    · subst hdata
      rfl
    · have hlt : index * size < (data.drop size).length ↔ (index + 1) * size < data.length := by
        rw [List.length_drop, Nat.succ_mul]
        omega
      have hchunk : chunk size (data.drop size) index = chunk size data (index + 1) := by
        rw [chunk, chunk, List.drop_drop, Nat.succ_mul, Nat.add_comm]
      rw [chunks_of_ne_nil hsize hdata, List.getElem?_cons_succ, ih, hchunk]
      simp only [hlt]

theorem getElem?_chunk (size : Nat) (data : Bytes) (index j : Nat) :
    (chunk size data index)[j]? = if j < size then data[index * size + j]? else none := by
  rw [chunk, List.getElem?_take, List.getElem?_drop]

theorem length_chunk (size : Nat) (data : Bytes) (index : Nat) :
    (chunk size data index).length = min size (data.length - index * size) := by
  rw [chunk, List.length_take, List.length_drop]

namespace Companion

/-! ## Chunks against checksums -/

/-- The checksum of the piece with number `index` is missing, wholly or in part, or is another one. -/
def Differs (pieces : List Bytes) (sums : Bytes) (index : Nat) : Prop :=
  ∃ piece, pieces[index]? = some piece ∧ (sums.drop (4 * index)).take 4 ≠ Bytes.ofWord (crc32 piece)

theorem differs_zero {piece : Bytes} {rest : List Bytes} {sums : Bytes} :
    Differs (piece :: rest) sums 0 ↔ sums.take 4 ≠ Bytes.ofWord (crc32 piece) := by
  simp [Differs]

theorem differs_succ {piece : Bytes} {rest : List Bytes} {sums : Bytes} {index : Nat} :
    Differs (piece :: rest) sums (index + 1) ↔ Differs rest (sums.drop 4) index := by
  have hdrop : (sums.drop 4).drop (4 * index) = sums.drop (4 * (index + 1)) := by
    rw [List.drop_drop, Nat.mul_add, Nat.add_comm]
  rw [Differs, Differs, hdrop, List.getElem?_cons_succ]

theorem firstMismatch_succ (index : Nat) (pieces : List Bytes) (sums : Bytes) :
    firstMismatch (index + 1) pieces sums = (firstMismatch index pieces sums).map (· + 1) := by
  fun_induction firstMismatch index pieces sums with
  | case1 => rfl
  | case2 index piece rest a b c d sums hsame ih => rw [firstMismatch, if_pos hsame, ih]
  | case3 index piece rest a b c d sums hother => rw [firstMismatch, if_neg hother, Option.map_some]
  | case4 index piece rest sums hshort =>
    rw [firstMismatch, Option.map_some]
    exact hshort

/-- The first piece is compared with the next four bytes, and the others with what follows these. -/
theorem firstMismatch_cons (piece : Bytes) (rest : List Bytes) (sums : Bytes) :
    firstMismatch 0 (piece :: rest) sums =
      if sums.take 4 = Bytes.ofWord (crc32 piece) then (firstMismatch 0 rest (sums.drop 4)).map (· + 1)
      else some 0 := by
  match sums with
  | a :: b :: c :: d :: sums =>
    have hsame : [a, b, c, d] = Bytes.ofWord (crc32 piece) ↔ crc32 piece = Bytes.toWord a b c d := by
      rw [← Bytes.ofWord_toWord a b c d]
      exact ⟨fun h => (Bytes.ofWord_injective h).symm, fun h => by rw [h]⟩
    show (if crc32 piece = Bytes.toWord a b c d then firstMismatch 1 rest sums else some 0) =
      if [a, b, c, d] = Bytes.ofWord (crc32 piece) then (firstMismatch 0 rest sums).map (· + 1) else some 0
    simp only [hsame, firstMismatch_succ]
  | [] | [_] | [_, _] | [_, _, _] =>
    rw [if_neg]
    · rfl
    · intro h
      have := congrArg List.length h
      simp at this

theorem append_prefix_iff {a b l : Bytes} : a ++ b <+: l ↔ l.take a.length = a ∧ b <+: l.drop a.length := by
  constructor
  · rintro ⟨rest, rfl⟩
    simp
  · rintro ⟨ha, rest, hrest⟩
    have hwhole := List.take_append_drop a.length l
    rw [ha, ← hrest, ← List.append_assoc] at hwhole
    exact ⟨rest, hwhole⟩

/-- No checksum is missing or different if and only if all of them stand at the beginning, in their order. -/
theorem firstMismatch_eq_none_iff {pieces : List Bytes} {sums : Bytes} :
    firstMismatch 0 pieces sums = none ↔ (pieces.flatMap fun piece => Bytes.ofWord (crc32 piece)) <+: sums := by
  induction pieces generalizing sums with
  | nil => simp [firstMismatch]
  | cons piece rest ih =>
    rw [firstMismatch_cons, List.flatMap_cons, append_prefix_iff, Bytes.length_ofWord, ← ih]
    split
    · next h => simp [h]
    · next h => simp [h]

theorem isLeast_succ_iff {p : Nat → Prop} (h : ¬p 0) {k : Nat} :
    IsLeast {n | p n} (k + 1) ↔ IsLeast {n | p (n + 1)} k := by
  constructor
  · rintro ⟨hk, hleast⟩
    exact ⟨hk, fun n hn => Nat.le_of_succ_le_succ (hleast hn)⟩
  · rintro ⟨hk, hleast⟩
    refine ⟨hk, fun n hn => ?_⟩
    cases n with
    | zero => exact absurd hn h
    | succ n => exact Nat.succ_le_succ (hleast hn)

theorem firstMismatch_eq_some_iff {pieces : List Bytes} {sums : Bytes} {index : Nat} :
    firstMismatch 0 pieces sums = some index ↔ IsLeast {k | Differs pieces sums k} index := by
  induction pieces generalizing sums index with
  | nil =>
    constructor
    · intro h
      cases h
    · rintro ⟨⟨piece, hpiece, -⟩, -⟩
      cases hpiece
  | cons piece rest ih =>
    rw [firstMismatch_cons]
    by_cases h : sums.take 4 = Bytes.ofWord (crc32 piece)
    · have hzero : ¬Differs (piece :: rest) sums 0 := by
        rw [differs_zero]
        exact fun hne => hne h
      rw [if_pos h]
      cases index with
      | zero =>
        constructor
        · intro hmap
          obtain ⟨k, -, hk⟩ := Option.map_eq_some_iff.1 hmap
          cases hk
        · intro hleast
          exact absurd hleast.1 hzero
      | succ index =>
        rw [isLeast_succ_iff hzero]
        simp only [differs_succ, ← ih]
        simp
    · rw [if_neg h, Option.some.injEq]
      have hzero : Differs (piece :: rest) sums 0 := differs_zero.2 h
      constructor
      · rintro rfl
        exact ⟨hzero, fun _ _ => Nat.zero_le _⟩
      · intro hleast
        exact (Nat.le_zero.1 (hleast.2 hzero)).symm

/-! ## Headers -/

/-- The bytes with which the companion of any data begins. -/
def header (g : Granularity) : Bytes := magic ++ Bytes.ofWord g.bytes

theorem length_header (g : Granularity) : (header g).length = 8 := rfl

theorem encode_eq_header_append (g : Granularity) (data : Bytes) :
    encode g data = header g ++ (chunks g.bytes.toNat data).flatMap fun piece => Bytes.ofWord (crc32 piece) :=
  rfl

/-- What is wrong with the beginning of a companion; `verify` looks for it in this order. -/
inductive Malformed (label : String) (companion : Bytes) : Fault → Prop
  | truncatedHeader (h : companion.length < 8) : Malformed label companion (.truncatedHeader label)
  | badMagic (hlength : 8 ≤ companion.length) (h : companion.take 4 ≠ magic) :
      Malformed label companion (.badMagic label)
  | zeroHeaderGranularity (hlength : 8 ≤ companion.length) (hmagic : companion.take 4 = magic)
      (h : (companion.drop 4).take 4 = Bytes.ofWord 0) :
      Malformed label companion (.zeroHeaderGranularity label)

theorem exists_malformed_iff {label : String} {companion : Bytes} :
    (∃ fault, Malformed label companion fault) ↔
      companion.length < 8 ∨ companion.take 4 ≠ magic ∨ (companion.drop 4).take 4 = Bytes.ofWord 0 := by
  constructor
  · rintro ⟨fault, h | ⟨-, h⟩ | ⟨-, -, h⟩⟩
    · exact Or.inl h
    · exact Or.inr (Or.inl h)
    · exact Or.inr (Or.inr h)
  · intro h
    by_cases hlength : companion.length < 8
    · exact ⟨_, .truncatedHeader hlength⟩
    · by_cases hmagic : companion.take 4 = magic
      · refine ⟨_, .zeroHeaderGranularity (Nat.le_of_not_lt hlength) hmagic ?_⟩
        rcases h with h | h | h
        · exact absurd h hlength
        · exact absurd hmagic h
        · exact h
      · exact ⟨_, .badMagic (Nat.le_of_not_lt hlength) hmagic⟩

theorem exists_words {companion : Bytes} (h : 8 ≤ companion.length) :
    ∃ v w sums, companion = Bytes.ofWord v ++ Bytes.ofWord w ++ sums := by
  have hfirst : (companion.take 4).length = 4 := by
    rw [List.length_take]
    omega
  have hsecond : ((companion.drop 4).take 4).length = 4 := by
    rw [List.length_take, List.length_drop]
    omega
  obtain ⟨v, hv⟩ := Bytes.exists_eq_ofWord hfirst
  obtain ⟨w, hw⟩ := Bytes.exists_eq_ofWord hsecond
  have height : companion.take 4 ++ (companion.drop 4).take 4 = companion.take 8 := (List.take_add (i := 4)).symm
  refine ⟨v, w, companion.drop 8, ?_⟩
  rw [← hv, ← hw, height, List.take_append_drop]

theorem verify_of_lt {label : String} {data companion : Bytes} (h : companion.length < 8) :
    verify label data companion = .error (.invalidArgument (.truncatedHeader label)) := by
  unfold verify
  split
  · simp only [List.length_cons] at h
    omega
  · rfl

theorem verify_words (label : String) (data : Bytes) (v w : UInt32) (sums : Bytes) :
    verify label data (Bytes.ofWord v ++ Bytes.ofWord w ++ sums) =
      if Bytes.ofWord v = magic then
        match Granularity.ofWord? w with
        | none => .error (.invalidArgument (.zeroHeaderGranularity label))
        | some g =>
          match firstMismatch 0 (chunks g.bytes.toNat data) sums with
          | none => .ok ()
          | some index => .error (.checksumMismatch label index)
      else .error (.invalidArgument (.badMagic label)) := by
  have hw := Bytes.toWord_ofWord w
  simp only [Bytes.ofWord, List.cons_append, List.nil_append, verify, hw]
  rfl

theorem verify_header (label : String) (g : Granularity) (data sums : Bytes) :
    verify label data (header g ++ sums) =
      match firstMismatch 0 (chunks g.bytes.toNat data) sums with
      | none => .ok ()
      | some index => .error (.checksumMismatch label index) := by
  have hmagic : Bytes.ofWord 0x63726300 = magic := rfl
  rw [header, ← hmagic, verify_words, if_pos hmagic, Granularity.ofWord?_bytes]

/-- **A companion is invalid for one of three faults of its header**, and with any data. -/
theorem verify_eq_invalid_iff {label : String} {data companion : Bytes} {fault : Fault} :
    verify label data companion = .error (.invalidArgument fault) ↔ Malformed label companion fault := by
  rcases Nat.lt_or_ge companion.length 8 with hshort | hlong
  · rw [verify_of_lt hshort]
    constructor
    · intro h
      cases h
      exact .truncatedHeader hshort
    · rintro (_ | ⟨hlong, -⟩ | ⟨hlong, -, -⟩)
      · rfl
      · omega
      · omega
  · obtain ⟨v, w, sums, rfl⟩ := exists_words hlong
    have hfirst : (Bytes.ofWord v ++ Bytes.ofWord w ++ sums).take 4 = Bytes.ofWord v := rfl
    rw [verify_words]
    constructor
    · intro h
      split at h
      · next hmagic =>
        split at h
        · next hnone =>
          cases h
          rw [Granularity.ofWord?_eq_none_iff] at hnone
          exact .zeroHeaderGranularity hlong hmagic (congrArg Bytes.ofWord hnone)
        · split at h
          · cases h
          · cases h
      · next hmagic =>
        cases h
        exact .badMagic hlong hmagic
    · rintro (hshort | ⟨-, hmagic⟩ | ⟨-, hmagic, hzero⟩)
      · omega
      · rw [hfirst] at hmagic
        rw [if_neg hmagic]
      · have hnone : Granularity.ofWord? w = none := Granularity.ofWord?_eq_none_iff.2 (Bytes.ofWord_injective hzero)
        rw [hfirst] at hmagic
        rw [if_pos hmagic, hnone]

/-- Without a fault the header is that of some granularity. -/
theorem exists_header {companion : Bytes}
    (h : ¬(companion.length < 8 ∨ companion.take 4 ≠ magic ∨ (companion.drop 4).take 4 = Bytes.ofWord 0)) :
    ∃ g sums, companion = header g ++ sums := by
  rw [not_or, not_or, Nat.not_lt, ne_eq, Decidable.not_not] at h
  obtain ⟨hlong, hmagic, hzero⟩ := h
  obtain ⟨v, w, sums, rfl⟩ := exists_words hlong
  cases hg : Granularity.ofWord? w with
  | none =>
    rw [Granularity.ofWord?_eq_none_iff] at hg
    exact absurd (congrArg Bytes.ofWord hg) hzero
  | some g =>
    refine ⟨g, sums, ?_⟩
    rw [header, Granularity.bytes_of_ofWord? hg, ← hmagic]
    rfl

/-! ## The data -/

/-- The checksum that the companion should have for chunk `index` is missing, wholly or in part, or is another one. -/
def Disagrees (g : Granularity) (data companion : Bytes) (index : Nat) : Prop :=
  index * g.bytes.toNat < data.length ∧
    (companion.drop (8 + 4 * index)).take 4 ≠ Bytes.ofWord (crc32 (chunk g.bytes.toNat data index))

theorem disagrees_iff_differs {g : Granularity} {data sums : Bytes} {index : Nat} :
    Disagrees g data (header g ++ sums) index ↔ Differs (chunks g.bytes.toNat data) sums index := by
  have hdrop : (header g ++ sums).drop (8 + 4 * index) = sums.drop (4 * index) := by
    rw [← List.drop_drop, List.drop_left' (length_header g)]
  rw [Disagrees, Differs, hdrop, getElem?_chunks g.pos]
  split
  · next h => simp [h]
  · next h => simp [h]

theorem verify_of_isLeast {label : String} {g : Granularity} {data sums : Bytes} {index : Nat}
    (h : IsLeast {k | Disagrees g data (header g ++ sums) k} index) :
    verify label data (header g ++ sums) = .error (.checksumMismatch label index) := by
  simp only [disagrees_iff_differs] at h
  rw [verify_header, firstMismatch_eq_some_iff.2 h]

/-- The outcomes of `verify` behind a header. -/
theorem verify_cases (label : String) (g : Granularity) (data sums : Bytes) :
    (verify label data (header g ++ sums) = .ok () ∧ encode g data <+: header g ++ sums) ∨
      ∃ index, verify label data (header g ++ sums) = .error (.checksumMismatch label index) ∧
        ¬encode g data <+: header g ++ sums ∧ IsLeast {k | Disagrees g data (header g ++ sums) k} index := by
  have hprefix : encode g data <+: header g ++ sums ↔ firstMismatch 0 (chunks g.bytes.toNat data) sums = none := by
    rw [firstMismatch_eq_none_iff]
    exact List.prefix_append_right_inj _
  rw [verify_header, hprefix]
  cases hmismatch : firstMismatch 0 (chunks g.bytes.toNat data) sums with
  | none => exact Or.inl ⟨rfl, rfl⟩
  | some index =>
    refine Or.inr ⟨index, rfl, ?_, ?_⟩
    · intro h
      cases h
    · simp only [disagrees_iff_differs]
      exact firstMismatch_eq_some_iff.1 hmismatch

/-- A companion agrees with data whatever they are called: it begins with what `encode` gives for them in some
granularity. -/
theorem verify_eq_ok_iff {label : String} {data companion : Bytes} :
    verify label data companion = .ok () ↔ ∃ g, encode g data <+: companion := by
  constructor
  · intro h
    have hheader : ¬∃ fault, Malformed label companion fault := by
      rintro ⟨fault, hfault⟩
      rw [verify_eq_invalid_iff.2 hfault] at h
      cases h
    rw [exists_malformed_iff] at hheader
    obtain ⟨g, sums, rfl⟩ := exists_header hheader
    rcases verify_cases label g data sums with ⟨-, hprefix⟩ | ⟨index, hmismatch, -⟩
    · exact ⟨g, hprefix⟩
    · rw [hmismatch] at h
      cases h
  · rintro ⟨g, rest, rfl⟩
    have hprefix : encode g data <+: encode g data ++ rest := List.prefix_append _ _
    rw [encode_eq_header_append, List.append_assoc] at hprefix ⊢
    rcases verify_cases label g data _ with ⟨hok, -⟩ | ⟨index, -, hnot, -⟩
    · exact hok
    · exact absurd hprefix hnot

/-- **Accepted is what `encode` gives, and anything behind it.** A companion is invalid exactly if it is shorter than a
header, begins with other bytes or has the granularity zero. Any other one has a granularity; it is accepted if and only
if the companion of the data with this granularity is a prefix of it, and otherwise the first chunk is named whose
checksum is missing, in whole or in part, or is another one. -/
theorem accepts_exactly_encoded (label : String) (data companion : Bytes) :
    ((∃ fault, verify label data companion = .error (.invalidArgument fault)) ↔
        companion.length < 8 ∨ companion.take 4 ≠ magic ∨ (companion.drop 4).take 4 = Bytes.ofWord 0) ∧
      (¬(companion.length < 8 ∨ companion.take 4 ≠ magic ∨ (companion.drop 4).take 4 = Bytes.ofWord 0) →
        ∃ g, companion.take 8 = magic ++ Bytes.ofWord g.bytes ∧
          (verify label data companion = .ok () ↔ encode g data <+: companion) ∧
          (¬encode g data <+: companion → ∃ index, verify label data companion = .error (.checksumMismatch label index) ∧
            IsLeast {k | Disagrees g data companion k} index)) ∧
      ∀ g, verify label data (encode g data) = .ok () := by
  refine ⟨?_, ?_, fun g => verify_encode label g data⟩
  · have hfaults : (∃ fault, Malformed label companion fault) ↔
        companion.length < 8 ∨ companion.take 4 ≠ magic ∨ (companion.drop 4).take 4 = Bytes.ofWord 0 :=
      exists_malformed_iff
    rw [← hfaults]
    simp only [verify_eq_invalid_iff]
  · intro hheader
    obtain ⟨g, sums, rfl⟩ := exists_header hheader
    refine ⟨g, rfl, ?_⟩
    rcases verify_cases label g data sums with ⟨hok, hprefix⟩ | ⟨index, hmismatch, hprefix, hleast⟩
    · exact ⟨⟨fun _ => hprefix, fun _ => hok⟩, fun hnot => absurd hprefix hnot⟩
    · refine ⟨?_, fun _ => ⟨index, hmismatch, hleast⟩⟩
      rw [hmismatch]
      constructor
      · intro h
        cases h
      · intro h
        exact absurd h hprefix

end Companion
end BoundedStore
