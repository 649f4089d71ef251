/-!
# Path keys

Files are kept under keys: absolute paths in which every component is an ordinary name.

* `Name` : a component that stands for itself: not empty, without `/`, neither `.` nor `..`;
* `Key` : the names from the root down; `Key.text` writes `/` before each name, and `/` for the root;
* `cutScheme`, `localPart` : the part of a path after `scheme://authority`; only a text without `://` is not cut
  (`cutScheme_eq_none_iff`);
* `enter` : one component is followed: `..` leaves a directory, an ordinary name enters one;
* `Key.ofPath` : the key of a path. `ofPath_text` : the text of a key is a path to that key, so
  `text_injective` : keys with one text are equal.

Keys are ordered by the UTF-8 bytes of their texts.
-/

namespace BoundedStore

/-- A path component that stands for itself. -/
def IsName (component : List Char) : Prop :=
  component ≠ [] ∧ '/' ∉ component ∧ component ≠ ['.'] ∧ component ≠ ['.', '.']

instance (component : List Char) : Decidable (IsName component) :=
  inferInstanceAs (Decidable (_ ∧ _ ∧ _ ∧ _))

structure Name where
  chars : List Char
  isName : IsName chars
  deriving DecidableEq

/-- An absolute path of ordinary names, the root's child first. -/
structure Key where
  names : List Name
  deriving DecidableEq

/-! ## The part of a path behind its scheme -/

/-- What separates a scheme from an authority. -/
def schemeMark : List Char := [':', '/', '/']

/-- The two sides of the first `://`, if there is one. -/
def cutScheme : List Char → Option (List Char × List Char)
  | [] => none
  | c :: cs =>
    if schemeMark.isPrefixOf (c :: cs) then some ([], cs.drop 2)
    else (cutScheme cs).map fun sides => (c :: sides.1, sides.2)

theorem cutScheme_eq_none_iff {cs : List Char} : cutScheme cs = none ↔ ¬schemeMark <:+: cs := by
  induction cs with
  | nil => simp [cutScheme, schemeMark]
  | cons c cs ih =>
    rw [cutScheme, List.infix_cons_iff, ← List.isPrefixOf_iff_prefix]
    split
    · next hmark => simp [hmark]
    · next hmark => simp [hmark, ih]

/-- The path without `scheme://authority`: what begins at the first `/` after the mark. -/
def localPart (path : List Char) : List Char :=
  match cutScheme path with
  | some (_, rest) => rest.dropWhile (· ≠ '/')
  | none => path

/-- No component of a path holds what separates them. -/
theorem slash_notMem_of_mem_splitOn {path component : List Char} (h : component ∈ path.splitOn '/') :
    '/' ∉ component := by
  induction path generalizing component with
  | nil =>
    rw [List.splitOn_nil, List.mem_singleton] at h
    simp [h]
  | cons c cs ih =>
    rw [List.splitOn_cons_eq_if_modifyHead] at h
    split at h
    · rcases List.mem_cons.1 h with rfl | h
      · simp
      · exact ih h
    · next hc =>
      obtain ⟨first, rest, hsplit⟩ := List.exists_cons_of_ne_nil (List.splitOn_ne_nil '/' cs)
      rw [hsplit, List.modifyHead_cons, List.mem_cons] at h
      rcases h with rfl | h
      · have hfirst : '/' ∉ first := ih (by rw [hsplit]; exact List.mem_cons_self)
        rw [List.mem_cons, not_or]
        exact ⟨fun hslash => hc (by rw [← hslash]; rfl), hfirst⟩
      · exact ih (by rw [hsplit]; exact List.mem_cons_of_mem _ h)

/-- No two texts have the same UTF-8 bytes. -/
theorem text_eq_of_utf8_eq {a b : String} (h : a.toByteArray.data.toList = b.toByteArray.data.toList) : a = b := by
  rw [← String.toByteArray_inj]
  exact ByteArray.ext (Array.toList_inj.1 h)

namespace Key

/-! ## Writing a key -/

def root : Key := ⟨[]⟩

/-- The characters of a key: `/` before every name, and `/` alone for the root. -/
def chars (k : Key) : List Char :=
  if k.names = [] then ['/'] else k.names.flatMap fun n => '/' :: n.chars

def text (k : Key) : String := String.ofList k.chars

/-! ## Resolving a path -/

/-- One component is followed from the directory whose names are `trail`, the last name first. -/
def enter (trail : List Name) (component : List Char) : List Name :=
  if h : IsName component then ⟨component, h⟩ :: trail
  else if component = ['.', '.'] then trail.tail
  else trail

/-- The key reached from the root by the `/`-separated components of a path. -/
def resolve (path : List Char) : Key := ⟨((path.splitOn '/').foldl enter []).reverse⟩

def ofPath (path : String) : Key := resolve (localPart path.toList)

/-! ## The text of a key leads back to the key -/

theorem enter_name (trail : List Name) (n : Name) : enter trail n.chars = n :: trail := by
  simp [enter, n.isName]

theorem foldl_enter_names (trail ns : List Name) : (ns.map Name.chars).foldl enter trail = ns.reverse ++ trail := by
  induction ns generalizing trail with
  | nil => rfl
  | cons n ns ih => simp [enter_name, ih]

theorem enter_up (trail : List Name) : enter trail ['.', '.'] = trail.tail := by
  simp [enter, IsName]

/-- An empty component and `.` lead nowhere. -/
theorem enter_of_not_isName (trail : List Name) {component : List Char} (hname : ¬IsName component)
    (hup : component ≠ ['.', '.']) : enter trail component = trail := by
  rw [enter, dif_neg hname, if_neg hup]

theorem enter_nil (trail : List Name) : enter trail [] = trail :=
  enter_of_not_isName trail (by simp [IsName]) (by simp)

theorem splitOn_slash_flatMap (ns : List Name) :
    (ns.flatMap fun n => '/' :: n.chars).splitOn '/' = [] :: ns.map Name.chars := by
  have hstart : ∀ rest : List Char, ('/' :: rest).splitOn '/' = [] :: rest.splitOn '/' :=
    fun rest => List.splitOn_append_cons_self [] rest
  induction ns with
  | nil => rfl
  | cons n ns ih =>
    rw [List.flatMap_cons, List.cons_append, hstart, List.map_cons]
    congr 1
    cases ns with
    | nil => rw [List.flatMap_nil, List.append_nil, List.splitOn_eq_singleton n.isName.2.1, List.map_nil]
    | cons m ms =>
      rw [List.flatMap_cons, List.cons_append, hstart, List.cons.injEq] at ih
      rw [List.flatMap_cons, List.cons_append, List.splitOn_append_cons_self_of_not_mem n.isName.2.1, ih.2]

theorem resolve_chars (k : Key) : resolve k.chars = k := by
  obtain ⟨ns⟩ := k
  unfold resolve chars
  split
  · next h =>
    cases h
    rfl
  · rw [splitOn_slash_flatMap, List.foldl_cons, enter_nil, foldl_enter_names]
    simp

/-- Between two slashes in a row there would be an empty name. -/
theorem slashes_notInfix_chars (k : Key) : ¬['/', '/'] <:+: k.chars := by
  rintro ⟨u, v, h⟩
  by_cases hroot : k.names = []
  · have hlength := congrArg List.length h
    simp only [chars, if_pos hroot, List.length_append, List.length_cons, List.length_nil] at hlength
    omega
  · have hcomponents : k.chars.splitOn '/' = u.splitOn '/' ++ [] :: v.splitOn '/' := by
      rw [← h, List.append_assoc]
      exact (List.splitOn_append_cons_self u ('/' :: v)).trans
        (congrArg (u.splitOn '/' ++ ·) (List.splitOn_append_cons_self [] v))
    rw [chars, if_neg hroot, splitOn_slash_flatMap] at hcomponents
    obtain ⟨first, others, hu⟩ := List.exists_cons_of_ne_nil (List.splitOn_ne_nil '/' u)
    rw [hu, List.cons_append, List.cons.injEq] at hcomponents
    have hempty : [] ∈ k.names.map Name.chars := by rw [hcomponents.2]; simp
    obtain ⟨n, -, hn⟩ := List.mem_map.1 hempty
    exact n.isName.1 hn

/-- There is no mark in the text of a key, for a mark ends with two slashes. -/
theorem cutScheme_chars (k : Key) : cutScheme k.chars = none := by
  have hslashes : ['/', '/'] <:+: schemeMark := ⟨[':'], [], rfl⟩
  exact cutScheme_eq_none_iff.2 fun hmark => k.slashes_notInfix_chars (hslashes.trans hmark)

theorem localPart_chars (k : Key) : localPart k.chars = k.chars := by
  simp [localPart, cutScheme_chars]

/-- The text of a key is a path to that key. -/
@[simp] theorem ofPath_text (k : Key) : ofPath k.text = k := by
  simp [ofPath, text, localPart_chars, resolve_chars]

theorem text_injective {k l : Key} (h : k.text = l.text) : k = l := by
  rw [← ofPath_text k, h, ofPath_text]

/-! ## The order of keys -/

def utf8 (k : Key) : List UInt8 := k.text.toByteArray.data.toList

theorem utf8_injective {k l : Key} (h : k.utf8 = l.utf8) : k = l := text_injective (text_eq_of_utf8_eq h)

instance : Ord Key := ⟨compareOn utf8⟩

theorem compare_eq_lt_iff {k l : Key} : compare k l = .lt ↔ k.utf8 < l.utf8 := by
  show compare k.utf8 l.utf8 = .lt ↔ k.utf8 < l.utf8
  generalize k.utf8 = as
  generalize l.utf8 = bs
  induction as generalizing bs with
  | nil => cases bs <;> simp
  | cons a as ih =>
    cases bs with
    | nil => simp
    | cons b bs =>
      simp [List.compare_cons_cons, List.cons_lt_cons_iff, Ordering.then_eq_lt, Std.compare_eq_lt, ih]

instance : Std.TransOrd Key := inferInstanceAs (Std.TransCmp (compareOn utf8))

instance : Std.LawfulEqOrd Key where
  compare_self := (inferInstance : Std.ReflCmp (compareOn utf8)).compare_self
  eq_of_compare h := utf8_injective (Std.LawfulEqOrd.eq_of_compare h)

end Key

def canonicalPath (path : String) : String := (Key.ofPath path).text

/-- A single name behind the root is the text of its key. -/
theorem canonicalPath_name {name : String} (h : IsName name.toList) : canonicalPath ("/" ++ name) = "/" ++ name := by
  have htext : "/" ++ name = (⟨[⟨name.toList, h⟩]⟩ : Key).text := by
    apply String.toList_inj.1
    simp [Key.text, Key.chars]
  rw [htext, canonicalPath, Key.ofPath_text]

@[simp] theorem canonicalPath_text (k : Key) : canonicalPath k.text = k.text := by
  rw [canonicalPath, Key.ofPath_text]

theorem canonicalPath_eq_iff {p q : String} : canonicalPath p = canonicalPath q ↔ Key.ofPath p = Key.ofPath q :=
  ⟨Key.text_injective, congrArg Key.text⟩

@[simp] theorem ofPath_canonicalPath (path : String) : Key.ofPath (canonicalPath path) = Key.ofPath path :=
  Key.ofPath_text _

end BoundedStore
