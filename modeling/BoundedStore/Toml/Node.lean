/-!
# TOML trees

* `Node` : a value, a table, or an array of tables that headers fill;
* `Entries.within` : a change to the table that a header path names;
* `Entries.openTable`, `Entries.openItem` : the effects of `[path]` and `[[path]]`;
* `Entries.define` : the effect of `path = value`.

Each gives nothing where TOML 1.0 forbids it: no key and no table is defined twice, and dotted keys only extend tables
that dotted keys have made.
-/

namespace BoundedStore.Toml

/-- How a table came to be. -/
inductive TableKind where
  /-- It has a header of its own. -/
  | header
  /-- It holds a table with a header. -/
  | implied
  /-- A dotted key made it. -/
  | dotted
  /-- It stands in braces. -/
  | inline
  deriving DecidableEq

/-- A part of a document. -/
inductive Node where
  | string (text : String)
  | integer (value : Int)
  | float
  | boolean (value : Bool)
  | moment
  | array (items : List Node)
  | table (kind : TableKind) (entries : List (String × Node))
  /-- The tables under one `[[path]]`, the latest apart from the earlier ones. -/
  | tables (latest : List (String × Node)) (earlier : List (List (String × Node)))

/-- The content of a table. -/
abbrev Entries := List (String × Node)

namespace Entries

/-- The entries with `node` under `k`, which is new or takes the place of an earlier node. -/
def assign (entries : Entries) (k : String) (node : Node) : Entries :=
  if (entries.lookup k).isSome then entries.map fun e => if e.1 == k then (k, node) else e
  else entries ++ [(k, node)]

/-- Changes the table that a header path names. Tables on the way that do not exist are implied. -/
def within (change : Entries → Option Entries) : List String → Entries → Option Entries
  | [], entries => change entries
  | k :: path, entries =>
    match entries.lookup k with
    | none => do return entries.assign k (.table .implied (← within change path []))
    | some (.table kind inner) =>
      if kind = .inline then none
      else do return entries.assign k (.table kind (← within change path inner))
    | some (.tables latest earlier) =>
      do return entries.assign k (.tables (← within change path latest) earlier)
    | some _ => none

/-- The header `[path]`, where `k` is the last part of the path and `path` what goes before. -/
def openTable (path : List String) (k : String) : Entries → Option Entries :=
  within (fun entries =>
    match entries.lookup k with
    | none => some (entries.assign k (.table .header []))
    | some (.table .implied inner) => some (entries.assign k (.table .header inner))
    | some _ => none) path

/-- The header `[[path]]`, where `k` is the last part of the path and `path` what goes before. -/
def openItem (path : List String) (k : String) : Entries → Option Entries :=
  within (fun entries =>
    match entries.lookup k with
    | none => some (entries.assign k (.tables [] []))
    | some (.tables latest earlier) => some (entries.assign k (.tables [] (latest :: earlier)))
    | some _ => none) path

/-- The line `path = value`. The table that takes the value is the one at hand or one made by dotted keys. -/
def define (value : Node) : List String → Entries → Option Entries
  | [], _ => none
  | [k], entries => if (entries.lookup k).isSome then none else some (entries.assign k value)
  | k :: path, entries =>
    match entries.lookup k with
    | none => do return entries.assign k (.table .dotted (← define value path []))
    | some (.table kind inner) =>
      if kind = .dotted || (kind = .implied && path.length ≠ 1) then
        do return entries.assign k (.table kind (← define value path inner))
      else none
    | some (.tables latest earlier) =>
      if path.length = 1 then none
      else do return entries.assign k (.tables (← define value path latest) earlier)
    | some _ => none

end Entries
end BoundedStore.Toml
