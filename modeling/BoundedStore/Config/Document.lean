import BoundedStore.Config.Basic
import BoundedStore.Files.Error
import BoundedStore.Toml.Document

/-!
# Configuration files

A configuration is a TOML document with the keys `size_mb`, `bytes_per_checksum` and `uri`, each of which may be left
out; other keys are ignored.

* `Config.ofEntries?` : the configuration in a document, unless a value has the wrong type or range;
* `Config.ofToml` : a text parsed and checked;
* `Config.load` : a file read, parsed and checked.
-/

namespace BoundedStore

/-- Why there is no configuration. -/
inductive ConfigError where
  | unreadable (path : String) (cause : FileError)
  /-- The text is no TOML document, or a value does not fit its key. -/
  | malformed
  | invalid (fault : ConfigFault)
  deriving DecidableEq

namespace ConfigError

def message : ConfigError → String
  | unreadable path cause => s!"failed to read config {path}: {cause.message}"
  | malformed => "failed to parse config"
  | invalid fault => s!"invalid config: {fault.message}"

/-- The message followed by those of the causes behind it. -/
def chain : ConfigError → String
  | unreadable path cause => s!"{message (unreadable path cause)}: {cause.message}"
  | e => e.message

end ConfigError

namespace Config

/-- The value of a key that holds a count below `bound`, or `absent` if the key is left out. -/
def count? (entries : Toml.Entries) (key : String) (absent bound : Nat) : Option Nat :=
  match entries.lookup key with
  | none => some absent
  | some (.integer n) => if 0 ≤ n ∧ n < bound then some n.toNat else none
  | some _ => none

/-- The value of a key that holds a text, or `absent` if the key is left out. -/
def text? (entries : Toml.Entries) (key absent : String) : Option String :=
  match entries.lookup key with
  | none => some absent
  | some (.string text) => some text
  | some _ => none

def ofEntries? (entries : Toml.Entries) : Option Config := do
  let sizeMb ← count? entries "size_mb" default.sizeMb.toNat 0x1_0000_0000_0000_0000
  let granularity ← count? entries "bytes_per_checksum" default.bytesPerChecksum.toNat 0x1_0000_0000
  let uri ← text? entries "uri" default.uri
  return ⟨UInt64.ofNat sizeMb, UInt32.ofNat granularity, uri⟩

/-- The configuration itself, unless it has a fault. -/
def check (c : Config) : Except ConfigError Config :=
  match c.fault? with
  | some fault => .error (.invalid fault)
  | none => .ok c

def ofToml (text : String) : Except ConfigError Config :=
  match (Toml.parse text).bind ofEntries? with
  | none => .error .malformed
  | some c => c.check

def load (files : Files) (path : String) : Except ConfigError Config :=
  match (files path).bind decodeText with
  | .error cause => .error (.unreadable path cause)
  | .ok text => ofToml text

end Config
end BoundedStore
