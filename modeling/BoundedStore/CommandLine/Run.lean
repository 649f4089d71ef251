import BoundedStore.CommandLine.Help
import BoundedStore.CommandLine.Log
import BoundedStore.Config.Document
import BoundedStore.Staging.Basic

/-!
# Running a command line

The configuration is loaded first, whatever the command. A failed run has the exit code 1 and logs a message, a command
line that cannot be read has the exit code 2.

* `execute` : the output of a command under a configuration;
* `run` : the outcome of a command line, given what reading each path gives;
* `pathsOf` : the paths that a run may read.
-/

namespace BoundedStore.CommandLine

inductive RunError where
  | config (e : ConfigError)
  | zeroGranularity
  | stage (e : StageError)
  deriving DecidableEq

def RunError.message : RunError → String
  | .config e => e.chain
  | .zeroGranularity => "bytes per checksum must be positive"
  | .stage e => e.message

/-- What a command prints. -/
def execute (files : Files) (config : Config) : Command → Except RunError String
  | .stage paths =>
    match stageFiles files config paths with
    | .ok report => .ok report.text
    | .error e => .error (.stage e)
  | .companionSize size granularity =>
    match Granularity.ofWord? (granularity.getD config.bytesPerChecksum) with
    | some g => .ok s!"{g.companionSize size}\n"
    | none => .error .zeroGranularity

/-- The configuration to be used, which is the default one if no file is named. -/
def configuration (files : Files) : Option String → Except RunError Config
  | none => .ok Config.default
  | some path =>
    match Config.load files path with
    | .ok config => .ok config
    | .error e => .error (.config e)

structure Outcome where
  code : Nat
  output : String
  /-- What a failed run logs. -/
  message : Option String
  deriving DecidableEq

def perform (files : Files) : Reading → Outcome
  | .usageError => ⟨2, "", none⟩
  | .help topic => ⟨0, helpText topic, none⟩
  | .version => ⟨0, versionText, none⟩
  | .run path command =>
    match configuration files path with
    | .error e => ⟨1, "", some (logText e.message)⟩
    | .ok config =>
      match execute files config command with
      | .error e => ⟨1, "", some (logText e.message)⟩
      | .ok output => ⟨0, output, none⟩

def run (files : Files) (arguments : List String) : Outcome := perform files (Reading.ofArguments arguments)

/-- The paths that may be read for what a command line asks for. -/
def pathsOf : Reading → List String
  | .run path (.stage paths) => path.toList ++ paths
  | .run path (.companionSize ..) => path.toList
  | _ => []

end BoundedStore.CommandLine
