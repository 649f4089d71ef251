import BoundedStore.CommandLine.Number

/-!
# Arguments

The words of a command line are read from left to right: options of the program, a command, then options and
positional words of the command. An option `-c` takes its value from the same word (`-cV`, `-c=V`, `--config=V`) or
from the next one; after `--` every word is positional.

The value of an option in a word of its own, and a positional word, are only checked when the next option comes or the
words of their level are over (`Level.settle`); help and version are shown when their option is met and everything
before it on the same level holds.

* `Scope` : the program itself or one of its commands;
* `Topic` : what help is about. The word `help` takes at most one topic;
* `Level` : what has been read on one level;
* `Reading.ofArguments` : what a list of words asks for.
-/

namespace BoundedStore.CommandLine

/-- Where a word stands: among the options of the program or behind a command. -/
inductive Scope where
  | program
  | stage
  | companionSize
  deriving DecidableEq

def Scope.ofWord? (word : String) : Option Scope :=
  if word == "stage" then some .stage else if word == "checksum-size" then some .companionSize else none

/-- What help is about. -/
inductive Topic where
  | program
  | stage
  | companionSize
  | help
  deriving DecidableEq

def Topic.ofWord? (word : String) : Option Topic :=
  if word == "stage" then some .stage
  else if word == "checksum-size" then some .companionSize
  else if word == "help" then some .help
  else none

/-- What the help option shows where it stands. -/
def Scope.topic : Scope → Topic
  | .program => .program
  | .stage => .stage
  | .companionSize => .companionSize

/-- What a value is meant for. -/
inductive Slot where
  | config
  | granularity
  | size
  | files
  deriving DecidableEq

/-- What has been read on one level. -/
structure Level where
  config : Option String := none
  granularity : Option UInt32 := none
  size : Option UInt64 := none
  files : List String := []
  /-- Values that have not been checked; none yet if an option waits for its value. -/
  waiting : Option (Slot × List String) := none

namespace Level

/-- An option waits for the next word. -/
def awaitsValue (l : Level) : Bool :=
  match l.waiting with
  | some (_, []) => true
  | _ => false

/-- Checks the values that wait. An option may have one value, and a path may not be empty. -/
def settle (l : Level) : Option Level :=
  match l.waiting with
  | none => some l
  | some (.config, [path]) =>
    if path = "" ∨ l.config.isSome then none else some { l with config := some path, waiting := none }
  | some (.granularity, [text]) =>
    if l.granularity.isSome then none
    else (word? text).map fun n => { l with granularity := some n, waiting := none }
  | some (.size, [text]) => (unsigned? text).map fun n => { l with size := some n, waiting := none }
  | some (.files, paths) =>
    if paths.contains "" then none else some { l with files := l.files ++ paths, waiting := none }
  | some _ => none

/-- An option comes, with its value or before it. -/
def option (l : Level) (slot : Slot) (value : Option String) : Option Level := do
  let l ← l.settle
  match value with
  | some v => settle { l with waiting := some (slot, [v]) }
  | none => return { l with waiting := some (slot, []) }

def supply (l : Level) (word : String) : Level :=
  { l with waiting := l.waiting.map fun (slot, _) => (slot, [word]) }

def positional (l : Level) (scope : Scope) (word : String) : Option Level :=
  match scope, l.waiting with
  | .program, _ => none
  | .stage, some (.files, path :: paths) => some { l with waiting := some (.files, path :: paths ++ [word]) }
  | .stage, _ => do return { (← l.settle) with waiting := some (.files, [word]) }
  | .companionSize, some (.size, _) => none
  | .companionSize, _ =>
    if l.size.isSome then none else do return { (← l.settle) with waiting := some (.size, [word]) }

end Level

inductive Command where
  | stage (paths : List String)
  | companionSize (size : UInt64) (granularity : Option UInt32)
  deriving DecidableEq

inductive Reading where
  | usageError
  | help (about : Topic)
  | version
  | run (config : Option String) (command : Command)
  deriving DecidableEq

/-- The option with a long name, if it takes a value. -/
def longSlot? (scope : Scope) (name : String) : Option Slot :=
  if name == "config" then some .config
  else if name == "bytes-per-checksum" && scope == .companionSize then some .granularity
  else none

/-- Name and value of a long option, which are separated by the first `=`. -/
def cutAssignment (cs : List Char) : String × Option String :=
  let name := String.ofList (cs.takeWhile (· ≠ '='))
  match cs.dropWhile (· ≠ '=') with
  | [] => (name, none)
  | _ :: value => (name, some (String.ofList value))

/-- An option that shows something: the answer, if all that came before holds. -/
def shown (l : Level) (answer : Reading) : Reading := if l.settle.isSome then answer else .usageError

namespace Reading

/-- What help is shown for the words behind `help`. No topic has a topic below it. -/
def helpFor : List String → Reading
  | [] => .help .program
  | [word] =>
    match Topic.ofWord? word with
    | some topic => .help topic
    | none => .usageError
  | _ => .usageError

def finish (scope : Scope) (outer here : Level) : Reading :=
  match here.settle with
  | none => .usageError
  | some here =>
    let command := match scope with
      | .program => none
      | .stage => if here.files = [] then none else some (Command.stage here.files)
      | .companionSize => here.size.map fun n => Command.companionSize n here.granularity
    match command, outer.settle with
    | some command, some outer => .run (here.config <|> outer.config) command
    | _, _ => .usageError

/-- Reads the words behind those that gave `here`; `outer` is the level of the program if a command came, and after
`--` all words are `plain`. -/
def ofWords (scope : Scope) (outer here : Level) (plain : Bool) : List String → Reading
  | [] => finish scope outer here
  | word :: words =>
    let next (l? : Option Level) : Reading :=
      match l? with
      | some l => ofWords scope outer l plain words
      | none => .usageError
    if plain then next (here.positional scope word)
    else if scope = .program ∧ !here.awaitsValue ∧ word = "help" then helpFor words
    else
      match if scope = .program ∧ !here.awaitsValue then Scope.ofWord? word else none with
      | some command => ofWords command here {} false words
      | none =>
        match word.toList with
        | ['-', '-'] => ofWords scope outer here true words
        | '-' :: '-' :: cs =>
          let (name, value) := cutAssignment cs
          match longSlot? scope name with
          | some slot => next (here.option slot value)
          | none =>
            if value.isSome then .usageError
            else if name == "help" then shown here (.help scope.topic)
            else if name == "version" && scope == .program then shown here .version
            else .usageError
        | ['-', 'c'] => next (here.option .config none)
        | '-' :: 'c' :: '=' :: cs => next (here.option .config (some (String.ofList cs)))
        | '-' :: 'c' :: cs => next (here.option .config (some (String.ofList cs)))
        | '-' :: 'h' :: _ => shown here (.help scope.topic)
        | '-' :: 'V' :: _ => if scope = .program then shown here .version else .usageError
        | '-' :: _ :: _ => .usageError
        | _ => if here.awaitsValue then next (some (here.supply word)) else next (here.positional scope word)

/-- What a command line asks for. -/
def ofArguments (words : List String) : Reading :=
  if words = [] then .usageError else ofWords .program {} {} false words

end Reading
end BoundedStore.CommandLine
