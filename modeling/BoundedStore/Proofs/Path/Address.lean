import BoundedStore.Path.Address
import BoundedStore.Proofs.Path.Scheme

/-!
# The address at the front of a path

A path opens with an address, and where it is resolved that address is cut off. Both search for the first mark; then the
one takes what stands before the next `/`, and the other drops it.

* `Address.Opens` : a path is an address, and a rest that begins with `/` or is empty; `opens_text` : an address alone
  is a path without a rest;
* `Address.parse_eq_ok_iff` : an address is read exactly from the paths that it opens, and from its own text again;
* `exists_parse_iff` : there is one exactly if the first mark is not at the front;
* `address_round_trip` : the address and the rest that it leaves, which is all that counts for the key of the path.
-/

namespace BoundedStore

namespace Address

/-- The path `uri` is the address `a`, and `rest` behind it. -/
structure Opens (a : Address) (uri rest : String) : Prop where
  uri_eq : uri = a.text ++ rest
  scheme_ne : a.scheme ≠ ""
  /-- The mark behind the scheme is the first one in the path. -/
  scheme_markless : Markless a.scheme
  authority_plain : '/' ∉ a.authority.toList
  rest_slash : rest = "" ∨ ∃ inner, rest = "/" ++ inner

variable {a : Address} {uri rest : String}

theorem toList_text (a : Address) : a.text.toList = a.scheme.toList ++ schemeMark ++ a.authority.toList := by
  rw [text, String.toList_append, String.toList_append]
  rfl

/-- The parts are those of the cut. -/
theorem opens_iff_cut :
    a.Opens uri rest ↔ a.scheme ≠ "" ∧ Cut uri.toList a.scheme.toList a.authority.toList rest.toList := by
  have huri : uri = a.text ++ rest ↔
      uri.toList = a.scheme.toList ++ schemeMark ++ (a.authority.toList ++ rest.toList) := by
    rw [← String.toList_inj, String.toList_append, toList_text, List.append_assoc _ a.authority.toList]
  have hrest : (rest = "" ∨ ∃ inner, rest = "/" ++ inner) ↔ (rest.toList = [] ∨ ∃ inner, rest.toList = '/' :: inner) := by
    rw [String.toList_eq_nil_iff]
    refine or_congr_right ⟨?_, ?_⟩
    · rintro ⟨inner, rfl⟩
      exact ⟨inner.toList, String.toList_append⟩
    · rintro ⟨inner, hinner⟩
      refine ⟨String.ofList inner, String.toList_inj.1 ?_⟩
      simp [hinner]
  constructor
  · intro h
    exact ⟨h.scheme_ne, huri.1 h.uri_eq, h.scheme_markless, h.authority_plain, hrest.1 h.rest_slash⟩
  · rintro ⟨hne, hcut⟩
    exact ⟨huri.2 hcut.path_eq, hne, hcut.isFirst, hcut.authority_plain, hrest.2 hcut.rest_slash⟩

/-- An address alone is a path with nothing behind the address. -/
theorem Opens.opens_text (h : a.Opens uri rest) : a.Opens a.text "" where
  uri_eq := String.append_empty.symm
  scheme_ne := h.scheme_ne
  scheme_markless := h.scheme_markless
  authority_plain := h.authority_plain
  rest_slash := Or.inl rfl

/-! ## Reading an address -/

/-- **An address is read exactly from the paths that it opens.** -/
theorem parse_eq_ok_iff : parse uri = .ok a ↔ ∃ rest, a.Opens uri rest := by
  simp only [opens_iff_cut]
  constructor
  · intro h
    unfold parse at h
    split at h
    · cases h
    · next scheme behind hcut =>
      split at h
      · cases h
      · next hne =>
        cases h
        refine ⟨String.ofList (behind.dropWhile (· ≠ '/')), ?_, ?_⟩
        · simpa using hne
        · simpa only [String.toList_ofList] using cut_of_cutScheme hcut
  · rintro ⟨rest, hne, hcut⟩
    have hscheme : a.scheme.toList ≠ [] := by rwa [ne_eq, String.toList_eq_nil_iff]
    simp only [parse, hcut.cutScheme_eq, if_neg hscheme, hcut.takeWhile_eq, String.ofList_toList]

/-- From its text an address is read again. -/
theorem parse_text_of_parse (h : parse uri = .ok a) : parse a.text = .ok a := by
  obtain ⟨rest, hopens⟩ := parse_eq_ok_iff.1 h
  exact parse_eq_ok_iff.2 ⟨"", hopens.opens_text⟩

/-- There is an address exactly if there is a mark and the first one is not at the front. -/
theorem exists_parse_iff : (∃ a, parse uri = .ok a) ↔ schemeMark <:+: uri.toList ∧ ¬schemeMark <+: uri.toList := by
  simp only [parse_eq_ok_iff, opens_iff_cut]
  constructor
  · rintro ⟨a, rest, hne, hcut⟩
    rw [← hcut.scheme_eq_nil_iff, String.toList_eq_nil_iff]
    refine ⟨?_, hne⟩
    rw [hcut.path_eq]
    exact List.infix_append _ _ _
  · rintro ⟨hmark, hfront⟩
    obtain ⟨scheme, authority, rest, hcut⟩ := exists_cut hmark
    rw [← hcut.scheme_eq_nil_iff] at hfront
    refine ⟨⟨String.ofList scheme, String.ofList authority⟩, String.ofList rest, ?_, ?_⟩
    · simpa using hfront
    · simpa only [String.toList_ofList] using hcut

end Address

/-! ## What is left of the path -/

theorem canonicalPath_of_opens {a : Address} {uri rest : String} (h : a.Opens uri rest) :
    canonicalPath uri = (Key.resolve rest.toList).text :=
  canonicalPath_of_cut (Address.opens_iff_cut.1 h).2

/-- **An address is read from the front of a path, and the rest is what the path leads to.** There is an address exactly
if the first mark in the path is not at its front. Then the path is the text of the address and a rest that is empty or
begins with `/`, and from its text the same address is read again. The rest is followed as it stands, also where there
is another mark in it; so it leads where the path leads, unless there is one. An address alone leads to the root. -/
theorem address_round_trip (uri : String) :
    ((∃ a, Address.parse uri = .ok a) ↔ schemeMark <:+: uri.toList ∧ ¬schemeMark <+: uri.toList) ∧
    ∀ a, Address.parse uri = .ok a →
      Address.parse a.text = .ok a ∧ canonicalPath a.text = "/" ∧
      ∃ rest, a.Opens uri rest ∧ canonicalPath uri = (Key.resolve rest.toList).text ∧
        (Markless rest → canonicalPath uri = canonicalPath rest) := by
  refine ⟨Address.exists_parse_iff, fun a ha => ?_⟩
  obtain ⟨rest, hopens⟩ := Address.parse_eq_ok_iff.1 ha
  refine ⟨Address.parse_eq_ok_iff.2 ⟨"", hopens.opens_text⟩, ?_, rest, hopens, canonicalPath_of_opens hopens, ?_⟩
  · rw [canonicalPath_of_opens hopens.opens_text]
    rfl
  · intro hrest
    rw [canonicalPath_of_opens hopens, canonicalPath_of_markless hrest]

/-- A scheme that ends like a mark begins, an authority that does so too, and another mark behind them. -/
theorem address_round_trip_second_mark :
    Address.parse "a:://b:/x://y/z" = .ok ⟨"a:", "b:"⟩ ∧
    Address.parse "a:://b:" = .ok ⟨"a:", "b:"⟩ ∧ canonicalPath "a:://b:" = "/" ∧
    ∃ rest, Address.Opens ⟨"a:", "b:"⟩ "a:://b:/x://y/z" rest ∧
      canonicalPath "a:://b:/x://y/z" = (Key.resolve rest.toList).text ∧
      (Markless rest → canonicalPath "a:://b:/x://y/z" = canonicalPath rest) := by
  have hparse : Address.parse "a:://b:/x://y/z" = .ok ⟨"a:", "b:"⟩ := by rfl
  exact ⟨hparse, (address_round_trip "a:://b:/x://y/z").2 _ hparse⟩

/-- The proviso is needed: the rest of this path would be cut where it has a mark. -/
example : canonicalPath "a:://b:/x://y/z" = "/x:/y/z" ∧ canonicalPath "/x://y/z" = "/z" := by decide +kernel

end BoundedStore
