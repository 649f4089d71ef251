import BoundedStore.Toml.Node
import BoundedStore.Toml.Number

/-!
# TOML documents

* `value` : a value whose arrays and inline tables are nested no deeper than a given number;
* `Toml.parse` : the entries of a document, if the text is one. A byte order mark in front is skipped.
-/

namespace BoundedStore.Toml
open Scan

/-! ## Values -/

def numeric : Scan Node :=
  (do moment; return .moment) <|> (do float; return .float) <|> (do return .integer (← integer))

/-- An array, behind its opening bracket. -/
def arrayItems (item : Scan Node) : Scan Node := do
  spacing
  if ← sees [']'] then
    exactly [']']
    return .array []
  else
    iterate (fun (done : List Node) => do
      spacing
      let node ← item
      spacing
      if ← sees [','] then
        exactly [',']
        spacing
        if ← sees [']'] then
          exactly [']']
          return .inr (.array (node :: done).reverse)
        else return .inl (node :: done)
      else
        exactly [']']
        return .inr (.array (node :: done).reverse)) []

/-- An inline table, behind its opening brace. -/
def inlineEntries (item : Scan Node) : Scan Node := do
  blanks
  if ← sees ['\x7d'] then
    exactly ['\x7d']
    return .table .inline []
  else
    iterate (fun (entries : Entries) => do
      let path ← key
      exactly ['=']
      blanks
      let node ← item
      blanks
      match entries.define node path with
      | none => failure
      | some entries =>
        if ← sees [','] then
          exactly [',']
          return .inl entries
        else
          exactly ['\x7d']
          return .inr (.table .inline entries)) []

/-- A value whose items, if it has any, are read by `inner`. -/
def valueOver (inner : Option (Scan Node)) : Scan Node := do
  match ← peek, inner with
  | some '"', _ => return .string (← string)
  | some '[', some inner =>
    exactly ['[']
    arrayItems inner
  | some '\x7b', some inner =>
    exactly ['\x7b']
    inlineEntries inner
  | some 't', _ =>
    exactly ['t', 'r', 'u', 'e']
    return .boolean true
  | some 'f', _ =>
    exactly ['f', 'a', 'l', 's', 'e']
    return .boolean false
  | some c, _ => if c == apostrophe then return .string (← string) else numeric
  | none, _ => failure

/-- A value with at most `depth` arrays and inline tables around one another. -/
def value : Nat → Scan Node
  | 0 => valueOver none
  | depth + 1 => valueOver (some (value depth))

/-- How deep arrays and inline tables may be nested. -/
def maxDepth : Nat := 79

/-! ## Lines -/

/-- A document while it is read: its entries, and the path of the header in force. -/
structure Progress where
  entries : Entries
  header : List String

/-- A header, behind its first bracket or brackets. -/
def headerLine (closing : List Char) (enter : List String → String → Entries → Option Entries) (p : Progress) :
    Scan Progress := do
  let path ← key
  exactly closing
  restOfLine
  match path.getLast? with
  | none => failure
  | some last =>
    match enter path.dropLast last p.entries with
    | some entries => return ⟨entries, path⟩
    | none => failure

/-- A line that gives a key its value. -/
def keyLine (p : Progress) : Scan Progress := do
  let path ← key
  exactly ['=']
  blanks
  let node ← value maxDepth
  restOfLine
  match p.entries.within (Entries.define node path) p.header with
  | some entries => return { p with entries := entries }
  | none => failure

def lines : Scan Entries :=
  iterate (fun (p : Progress) => do
    blanks
    match ← peek with
    | none => return .inr p.entries
    | some '#' =>
      comment
      lineEnd
      return .inl p
    | some '\n' | some '\r' =>
      newline
      return .inl p
    | some '[' =>
      if ← sees ['[', '['] then
        exactly ['[', '[']
        return .inl (← headerLine [']', ']'] Entries.openItem p)
      else
        exactly ['[']
        return .inl (← headerLine [']'] Entries.openTable p)
    | some _ => return .inl (← keyLine p)) ⟨[], []⟩

def parse (text : String) : Option Entries :=
  let chars := text.toList
  let chars := if chars.head? = some (Char.ofNat 0xFEFF) then chars.tail else chars
  (lines.run chars).map Prod.fst

end BoundedStore.Toml
