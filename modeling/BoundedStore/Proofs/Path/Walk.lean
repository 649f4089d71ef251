import BoundedStore.Proofs.Path.Scheme

/-!
# Paths component by component

A path is followed from one directory to the next, so what it leads to can be read off its parts one after the other.

* `Key.follow` : the key that a path leads to from another key. `follow_append` : a path in two parts is followed
  part by part;
* `follow_nil`, `follow_dot`, `follow_up`, `follow_name` : what a single component does;
* `Neutral` : a path that leads back to where it starts, such as `.` or `x/..`;
* `Key.ofPath_join`, `ofPath_join_neutral` : the key of a path in parts;
* `resolves_by_component` : neutral components may stand anywhere in a path, and a directory may be spelt anyhow.
-/

namespace BoundedStore

namespace Key

/-- The key that the components of a path lead to from `k`. -/
def follow (k : Key) (path : List Char) : Key := ⟨((path.splitOn '/').foldl enter k.names.reverse).reverse⟩

theorem follow_root (path : List Char) : root.follow path = resolve path := rfl

variable (k : Key)

/-- A path in two parts is followed part by part. -/
theorem follow_append (first second : List Char) :
    k.follow (first ++ '/' :: second) = (k.follow first).follow second := by
  simp only [follow, List.splitOn_append_cons_self, List.foldl_append, List.reverse_reverse]

/-! ## A single component -/

theorem follow_component {component : List Char} (h : '/' ∉ component) :
    k.follow component = ⟨(enter k.names.reverse component).reverse⟩ := by
  rw [follow, List.splitOn_eq_singleton h, List.foldl_cons, List.foldl_nil]

@[simp] theorem follow_nil : k.follow [] = k := by
  rw [follow_component k (by simp), enter_nil, List.reverse_reverse]

@[simp] theorem follow_dot : k.follow ['.'] = k := by
  rw [follow_component k (by decide), enter_of_not_isName _ (by decide) (by decide), List.reverse_reverse]

/-- `..` leaves the last directory; the root has none to leave. -/
@[simp] theorem follow_up : k.follow ['.', '.'] = ⟨k.names.dropLast⟩ := by
  rw [follow_component k (by decide), enter_up, List.tail_reverse, List.reverse_reverse]

theorem follow_name (n : Name) : k.follow n.chars = ⟨k.names ++ [n]⟩ := by
  rw [follow_component k n.isName.2.1, enter_name, List.reverse_cons, List.reverse_reverse]

/-- `..` takes back an ordinary component. -/
theorem follow_name_up {x : List Char} (h : IsName x) : (k.follow x).follow ['.', '.'] = k := by
  rw [k.follow_name ⟨x, h⟩, follow_up, List.dropLast_concat]

/-- A path that leads from every key back to it. -/
def Neutral (path : String) : Prop := ∀ k : Key, k.follow path.toList = k

theorem neutral_empty : Neutral "" := fun k => k.follow_nil

theorem neutral_dot : Neutral "." := fun k => k.follow_dot

/-- A directory that is entered and left. -/
theorem neutral_name_up {x : String} (h : IsName x.toList) : Neutral (x ++ "/..") := by
  intro k
  have hsplit : (x ++ "/..").toList = x.toList ++ '/' :: ['.', '.'] := String.toList_append
  rw [hsplit, follow_append, follow_name_up k h]

/-! ## Paths in parts -/

/-- The key of a path in two parts is what the second part leads to from the key of the first. -/
theorem ofPath_join {a b : String} (h : Markless (a ++ "/" ++ b)) :
    ofPath (a ++ "/" ++ b) = (ofPath a).follow b.toList := by
  have hfirst : Markless a := Markless.of_append (b := "/" ++ b) (by rwa [← String.append_assoc])
  have hsplit : (a ++ "/" ++ b).toList = a.toList ++ '/' :: b.toList := by
    rw [String.append_assoc, String.toList_append, String.toList_append]
    rfl
  rw [ofPath_of_markless h, ofPath_of_markless hfirst, hsplit]
  exact root.follow_append a.toList b.toList

/-- A neutral part between two others makes no difference. -/
theorem ofPath_join_neutral {a b c : String} (hc : Neutral c) (h : Markless (a ++ "/" ++ c ++ "/" ++ b)) :
    ofPath (a ++ "/" ++ c ++ "/" ++ b) = (ofPath a).follow b.toList := by
  have hfirst : Markless (a ++ "/" ++ c) := Markless.of_append (b := "/" ++ b) (by rwa [← String.append_assoc])
  rw [ofPath_join h, ofPath_join hfirst, hc]

/-- A path that first climbs from the root leads where its rest leads. -/
theorem ofPath_up_join {b : String} (h : Markless ("/.." ++ "/" ++ b)) : ofPath ("/.." ++ "/" ++ b) = ofPath b := by
  have hrest : Markless b := by
    intro hmark
    apply h
    rw [String.toList_append]
    exact hmark.trans (List.suffix_append _ _).isInfix
  have hroot : ofPath "/.." = root := by decide +kernel
  rw [ofPath_join h, hroot, ofPath_of_markless hrest, follow_root]

end Key

/-- **A path is resolved component by component.** An empty component, `.`, or a directory that is entered and left may
stand anywhere in a path; `..` at the root leads nowhere; and what a path leads to depends only on the key of its
first part. A path with a mark is cut, so each law is about paths without one. -/
theorem resolves_by_component (a a' b : String) :
    (Markless (a ++ "/./" ++ b) → Markless (a ++ "/" ++ b) →
      canonicalPath (a ++ "/./" ++ b) = canonicalPath (a ++ "/" ++ b)) ∧
    (Markless (a ++ "//" ++ b) → Markless (a ++ "/" ++ b) →
      canonicalPath (a ++ "//" ++ b) = canonicalPath (a ++ "/" ++ b)) ∧
    (∀ x : String, IsName x.toList → Markless (a ++ "/" ++ x ++ "/../" ++ b) → Markless (a ++ "/" ++ b) →
      canonicalPath (a ++ "/" ++ x ++ "/../" ++ b) = canonicalPath (a ++ "/" ++ b)) ∧
    (Markless ("/.." ++ "/" ++ b) → canonicalPath ("/.." ++ "/" ++ b) = canonicalPath b) ∧
    (canonicalPath a = canonicalPath a' → Markless (a ++ "/" ++ b) → Markless (a' ++ "/" ++ b) →
      canonicalPath (a ++ "/" ++ b) = canonicalPath (a' ++ "/" ++ b)) := by
  have hskip : ∀ {c : String}, Key.Neutral c → Markless (a ++ "/" ++ c ++ "/" ++ b) → Markless (a ++ "/" ++ b) →
      canonicalPath (a ++ "/" ++ c ++ "/" ++ b) = canonicalPath (a ++ "/" ++ b) := by
    intro c hc h hjoin
    rw [canonicalPath, canonicalPath, Key.ofPath_join_neutral hc h, Key.ofPath_join hjoin]
  refine ⟨?_, ?_, ?_, ?_, ?_⟩
  · have hsame : a ++ "/" ++ "." ++ "/" ++ b = a ++ "/./" ++ b := by simp only [String.append_assoc]; rfl
    rw [← hsame]
    exact hskip Key.neutral_dot
  · have hsame : a ++ "/" ++ "" ++ "/" ++ b = a ++ "//" ++ b := by simp only [String.append_assoc]; rfl
    rw [← hsame]
    exact hskip Key.neutral_empty
  · intro x hx
    have hsame : a ++ "/" ++ (x ++ "/..") ++ "/" ++ b = a ++ "/" ++ x ++ "/../" ++ b := by
      simp only [String.append_assoc]; rfl
    rw [← hsame]
    exact hskip (Key.neutral_name_up hx)
  · intro h
    rw [canonicalPath, canonicalPath, Key.ofPath_up_join h]
  · intro hkeys h h'
    have hkey : Key.ofPath a = Key.ofPath a' := Key.text_injective hkeys
    rw [canonicalPath, canonicalPath, Key.ofPath_join h, Key.ofPath_join h', hkey]

/-- The laws from a directory that is spelt with a detour, with a rest that climbs out of it. -/
theorem resolves_by_component_detour :
    canonicalPath ("d/e/.." ++ "/./" ++ "../f") = canonicalPath ("d/e/.." ++ "/" ++ "../f") ∧
    canonicalPath ("d/e/.." ++ "//" ++ "../f") = canonicalPath ("d/e/.." ++ "/" ++ "../f") ∧
    canonicalPath ("d/e/.." ++ "/" ++ "..." ++ "/../" ++ "../f") = canonicalPath ("d/e/.." ++ "/" ++ "../f") ∧
    canonicalPath ("/.." ++ "/" ++ "../f") = canonicalPath "../f" ∧
    canonicalPath ("d/e/.." ++ "/" ++ "../f") = canonicalPath ("/d" ++ "/" ++ "../f") := by
  obtain ⟨hdot, hempty, hname, hup, hdirectory⟩ := resolves_by_component "d/e/.." "/d" "../f"
  have hjoin : Markless ("d/e/.." ++ "/" ++ "../f") := by decide +kernel
  exact ⟨hdot (by decide +kernel) hjoin, hempty (by decide +kernel) hjoin,
    hname "..." (by decide +kernel) (by decide +kernel) hjoin, hup (by decide +kernel),
    hdirectory (by decide +kernel) hjoin (by decide +kernel)⟩

/-- The proviso is needed: with the components between them gone, `:` and `//` are a mark. -/
example : canonicalPath ("x:" ++ "/./" ++ "/y") = "/x:/y" ∧ canonicalPath ("x:" ++ "/" ++ "/y") = "/" := by
  decide +kernel

end BoundedStore
