import BoundedStore.CommandLine.Run

/-!
# The program

Reads the files that its arguments name, runs, and prints.
-/

namespace BoundedStore

/-- A failure of the system, as an error of this library. -/
def FileError.ofSystem : IO.Error → FileError
  | .noFileOrDirectory .. => .noSuchFile
  | .inappropriateType _ code details =>
    if code == 20 then .notDirectory else if code == 21 then .isDirectory else .system details code.toNat
  | .illegalOperation code details => if code == 21 then .isDirectory else .system details code.toNat
  | .permissionDenied _ code details => .system details code.toNat
  | .resourceExhausted _ code details => .system details code.toNat
  | .invalidArgument _ code details => if code == 36 then .nameTooLong else .system details code.toNat
  | .otherError code details => if code == 36 then .nameTooLong else .system details code.toNat
  | e => .system (toString e) 0

/-- What reading each of `paths` gives. -/
def readFiles : List String → IO Files
  | [] => return fun _ => .error .noSuchFile
  | path :: paths => do
    let others ← readFiles paths
    let result : Except FileError Bytes ← try
      let content ← IO.FS.readBinFile path
      pure (.ok content.toList)
    catch e => pure (.error (FileError.ofSystem e))
    return fun wanted => if wanted = path then result else others wanted

end BoundedStore

open BoundedStore

/-- The program. -/
def main (arguments : List String) : IO UInt32 := do
  let reading := CommandLine.Reading.ofArguments arguments
  let files ← readFiles (CommandLine.pathsOf reading)
  let outcome := CommandLine.perform files reading
  (← IO.getStdout).putStr outcome.output
  match outcome.message with
  | some message => (← IO.getStderr).putStrLn s!"ERROR ramfs: {message}"
  | none =>
    if outcome.code = 2 then (← IO.getStderr).putStr CommandLine.programHelp
  return UInt32.ofNat outcome.code
