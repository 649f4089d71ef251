/-!
# Scanning

A `Scan` takes characters from the front of a text and yields a value, or fails. `Scan.iterate` repeats a step that
takes at least one character each time it asks to go on, so the length of the text bounds the repetitions.
-/

namespace BoundedStore.Toml

/-- A step that reads from the front of a text, or fails. -/
abbrev Scan := StateT (List Char) Option

namespace Scan

def peek : Scan (Option Char) := do return (← get).head?

def next : Scan Char
  | [] => none
  | c :: cs => some (c, cs)

/-- Whether `text` comes next. -/
def sees (text : List Char) : Scan Bool := do return text.isPrefixOf (← get)

def exactly (text : List Char) : Scan Unit := fun cs =>
  if text.isPrefixOf cs then some ((), cs.drop text.length) else none

/-- Takes characters for as long as they satisfy `p`. -/
def span (p : Char → Bool) : Scan (List Char) := fun cs => some (cs.takeWhile p, cs.dropWhile p)

/-- Takes nothing if `scan` fails. -/
def attempt {α : Type} (scan : Scan α) : Scan (Option α) := fun cs =>
  match scan cs with
  | some (a, rest) => some (some a, rest)
  | none => some (none, cs)

/-- Takes nothing and succeeds if `condition` holds. -/
def require (condition : Bool) : Scan Unit := if condition then pure () else failure

/-- Up to one step for every item of `fuel`; a step gives the state for the next one or a result. -/
def iterateUpTo {σ α : Type} (step : σ → Scan (σ ⊕ α)) : List Char → σ → Scan α
  | [], _ => failure
  | _ :: fuel, state => do
    match ← step state with
    | .inl state => iterateUpTo step fuel state
    | .inr result => pure result

/-- Steps until one gives a result. The text itself, and one character more, counts the steps. -/
def iterate {σ α : Type} (step : σ → Scan (σ ⊕ α)) (state : σ) : Scan α := do
  iterateUpTo step (' ' :: (← get)) state

end Scan
end BoundedStore.Toml
