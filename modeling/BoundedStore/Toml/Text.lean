import BoundedStore.Toml.Scan

/-!
# Blanks, comments, strings and keys

The lexical rules of TOML 1.0. Control characters other than the tab occur nowhere but as line ends; strings in three
quotes may hold line ends, which are read as `\n`, and one or two quotes in a row.
-/

namespace BoundedStore.Toml
open Scan

/-! ## Blanks and line ends -/

def isBlank (c : Char) : Bool := c == ' ' || c == '\t'

/-- A tab or any character that is not a control character of ASCII. -/
def isPlain (c : Char) : Bool := c == '\t' || (0x20 ≤ c.toNat && c.toNat != 0x7F)

def blanks : Scan Unit := do let _ ← span isBlank

def newline : Scan Unit := do
  match ← next with
  | '\n' => pure ()
  | '\r' => exactly ['\n']
  | _ => failure

def comment : Scan Unit := do
  exactly ['#']
  let _ ← span isPlain

/-- A line end, or the end of the text. -/
def lineEnd : Scan Unit := do
  match ← peek with
  | none => pure ()
  | some _ => newline

/-- What may follow on a line after a header or a value. -/
def restOfLine : Scan Unit := do
  blanks
  if ← sees ['#'] then comment
  lineEnd

/-- Blanks, comments and line ends, as between the items of an array. -/
def spacing : Scan Unit :=
  iterate (fun () => do
    blanks
    match ← peek with
    | some '#' =>
      comment
      newline
      return .inl ()
    | some '\n' | some '\r' =>
      newline
      return .inl ()
    | _ => return .inr ()) ()

/-! ## Strings -/

def quote : Char := '"'

def apostrophe : Char := Char.ofNat 39

def isHexDigit (c : Char) : Bool :=
  ('0' ≤ c && c ≤ '9') || ('a' ≤ c && c ≤ 'f') || ('A' ≤ c && c ≤ 'F')

/-- The value of a digit in base sixteen or below. -/
def digitValue (c : Char) : Nat :=
  if 'a' ≤ c then c.toNat - 87 else if 'A' ≤ c then c.toNat - 55 else c.toNat - 48

/-- The number that `digits` write in a base. -/
def digitsValue (base : Nat) (digits : List Char) : Nat :=
  digits.foldl (fun n c => n * base + digitValue c) 0

/-- The character whose code point is written in `count` hexadecimal digits. -/
def codePoint (count : Nat) : Scan Char := do
  let digits := (← get).take count
  require (digits.length == count && digits.all isHexDigit)
  set ((← get).drop count)
  let code := digitsValue 16 digits
  if code.isValidChar then return Char.ofNat code else failure

/-- What stands for one character after a backslash. -/
def escape : Scan Char := do
  match ← next with
  | 'b' => return Char.ofNat 8
  | 't' => return '\t'
  | 'n' => return '\n'
  | 'f' => return Char.ofNat 12
  | 'r' => return '\r'
  | '"' => return quote
  | '\\' => return '\\'
  | 'u' => codePoint 4
  | 'U' => codePoint 8
  | _ => failure

/-- A string between quotes, on one line and with escapes. -/
def basicString : Scan String := do
  exactly [quote]
  iterate (fun (done : List Char) => do
    let c ← next
    if c == quote then return .inr (String.ofList done.reverse)
    else if c == '\\' then return .inl ((← escape) :: done)
    else
      require (isPlain c)
      return .inl (c :: done)) []

/-- A string between apostrophes, on one line and without escapes. -/
def literalString : Scan String := do
  exactly [apostrophe]
  let content ← span fun c => isPlain c && c != apostrophe
  exactly [apostrophe]
  return String.ofList content

/-- A backslash at the end of a line: it and all blanks and line ends after it are left out. -/
def continuation : Scan Unit := do
  exactly ['\\']
  blanks
  newline
  iterate (fun () => do
    blanks
    match ← attempt newline with
    | some () => return .inl ()
    | none => return .inr ()) ()

/-- One step through a string in three marks: more characters, the last one first, or the whole string. -/
def blockStep (mark : Char) (escapes : Bool) (done : List Char) : Scan (List Char ⊕ String) := do
  match ← peek with
  | none => failure
  | some c =>
    if c == mark then
      let run ← span (· == mark)
      if run.length < 3 then return .inl (run ++ done)
      else
        require (run.length ≤ 5)
        return .inr (String.ofList (run.drop 3 ++ done).reverse)
    else if c == '\n' || c == '\r' then
      newline
      return .inl ('\n' :: done)
    else if c == '\\' && escapes then
      match ← attempt continuation with
      | some () => return .inl done
      | none =>
        let _ ← next
        return .inl ((← escape) :: done)
    else
      require (isPlain c)
      let _ ← next
      return .inl (c :: done)

/-- A string between three marks; a line end right behind the first three is left out. -/
def blockString (mark : Char) (escapes : Bool) : Scan String := do
  exactly [mark, mark, mark]
  let _ ← attempt newline
  iterate (blockStep mark escapes) []

def string : Scan String := do
  if ← sees [quote, quote, quote] then blockString quote true
  else if ← sees [quote] then basicString
  else if ← sees [apostrophe, apostrophe, apostrophe] then blockString apostrophe false
  else literalString

/-! ## Keys -/

def isBareKeyChar (c : Char) : Bool := c.isAlphanum || c == '-' || c == '_'

def simpleKey : Scan String := do
  match ← peek with
  | some '"' => basicString
  | some c =>
    if c == apostrophe then literalString
    else
      let name ← span isBareKeyChar
      require (name != [])
      return String.ofList name
  | none => failure

/-- How many parts a key may have. -/
def maxKeyParts : Nat := 79

def key : Scan (List String) := do
  let parts ← iterate (fun (done : List String) => do
    blanks
    let part ← simpleKey
    blanks
    if ← sees ['.'] then
      exactly ['.']
      return .inl (part :: done)
    else return .inr (part :: done).reverse) []
  require (parts.length ≤ maxKeyParts)
  return parts

end BoundedStore.Toml
