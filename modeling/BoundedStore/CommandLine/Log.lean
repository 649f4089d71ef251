/-!
# Log texts

A failure is logged where a terminal may show it, and a path or an address in it may hold anything. The characters
with which a terminal can be steered are spelt out.

* `steersTerminal` : these characters, five of ASCII and every control character from U+0080 to U+009F;
* `spell` : `\x` and two hexadecimal digits for the former, `\u` and digits in braces for the latter;
* `logText` : a text as it is logged. None of these characters is left in it (`steersTerminal_of_mem_logText`), and a
  text without them is logged as it is (`logText_eq_self`).
-/

namespace BoundedStore.CommandLine

/-- Bell, backspace, form feed, escape and delete. -/
def asciiControls : List Char := ['\x07', '\x08', '\x0c', '\x1b', '\x7f']

/-- A control character above ASCII. -/
def isHighControl (c : Char) : Bool := 0x80 ≤ c.toNat && c.toNat ≤ 0x9f

/-- A terminal may obey the character instead of showing it. -/
def steersTerminal (c : Char) : Bool := asciiControls.contains c || isHighControl c

/-- The two hexadecimal digits of a number below 256. -/
def hexPair (n : Nat) : List Char := [Nat.digitChar (n / 16), Nat.digitChar (n % 16)]

/-- The characters that stand for `c` in the log. -/
def spell (c : Char) : List Char :=
  if asciiControls.contains c then ['\\', 'x'] ++ hexPair c.toNat
  else if isHighControl c then ['\\', 'u', '\x7b'] ++ hexPair c.toNat ++ ['\x7d']
  else [c]

/-- A text as it is logged. -/
def logText (text : String) : String := String.ofList (text.toList.flatMap spell)

theorem steersTerminal_digitChar : ∀ n < 16, steersTerminal (Nat.digitChar n) = false := by
  decide

theorem steersTerminal_of_mem_hexPair {n : Nat} (h : n < 256) : ∀ c ∈ hexPair n, steersTerminal c = false := by
  intro c hc
  simp only [hexPair, List.mem_cons, List.not_mem_nil, or_false] at hc
  rcases hc with rfl | rfl
  · exact steersTerminal_digitChar _ (by omega)
  · exact steersTerminal_digitChar _ (by omega)

theorem toNat_lt_of_mem_asciiControls : ∀ c ∈ asciiControls, c.toNat < 256 := by
  simp [asciiControls]

theorem steersTerminal_opening : ∀ c ∈ ['\\', 'x'], steersTerminal c = false := by
  simp [steersTerminal, asciiControls, isHighControl]

theorem steersTerminal_openingBrace : ∀ c ∈ ['\\', 'u', '\x7b'], steersTerminal c = false := by
  simp [steersTerminal, asciiControls, isHighControl]

theorem steersTerminal_closingBrace : ∀ c ∈ ['\x7d'], steersTerminal c = false := by
  simp [steersTerminal, asciiControls, isHighControl]

theorem steersTerminal_of_mem_spell (c : Char) : ∀ d ∈ spell c, steersTerminal d = false := by
  unfold spell
  split
  · next h =>
    have hlt := toNat_lt_of_mem_asciiControls c (List.contains_iff_mem.1 h)
    exact List.forall_mem_append.2 ⟨steersTerminal_opening, steersTerminal_of_mem_hexPair hlt⟩
  · next hascii =>
    split
    · next h =>
      have hlt : c.toNat < 256 := by
        simp only [isHighControl, Bool.and_eq_true, decide_eq_true_eq] at h
        omega
      refine List.forall_mem_append.2 ⟨List.forall_mem_append.2 ⟨steersTerminal_openingBrace, ?_⟩, ?_⟩
      · exact steersTerminal_of_mem_hexPair hlt
      · exact steersTerminal_closingBrace
    · next hhigh =>
      intro d hd
      rw [List.mem_singleton.1 hd, steersTerminal, Bool.or_eq_false_iff]
      exact ⟨Bool.eq_false_iff.2 hascii, Bool.eq_false_iff.2 hhigh⟩

theorem spell_eq_self {c : Char} (h : steersTerminal c = false) : spell c = [c] := by
  rw [steersTerminal, Bool.or_eq_false_iff] at h
  rw [spell, h.1, h.2]
  rfl

/-- Nothing in the log steers a terminal. -/
theorem steersTerminal_of_mem_logText {text : String} {c : Char} (h : c ∈ (logText text).toList) :
    steersTerminal c = false := by
  rw [logText, String.toList_ofList, List.mem_flatMap] at h
  obtain ⟨d, _, h⟩ := h
  exact steersTerminal_of_mem_spell d c h

theorem logText_eq_self {text : String} (h : ∀ c ∈ text.toList, steersTerminal c = false) : logText text = text := by
  have key : ∀ cs : List Char, (∀ c ∈ cs, steersTerminal c = false) → cs.flatMap spell = cs := by
    intro cs hcs
    induction cs with
    | nil => rfl
    | cons c cs ih =>
      rw [List.flatMap_cons, spell_eq_self (hcs c List.mem_cons_self),
        ih fun d hd => hcs d (List.mem_cons_of_mem _ hd)]
      rfl
  rw [logText, key _ h, String.ofList_toList]

end BoundedStore.CommandLine
