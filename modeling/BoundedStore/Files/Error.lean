import BoundedStore.Bytes

/-!
# Reading files

* `FileError` : why a file cannot be read, with the text of the system;
* `Files` : what reading each path gives;
* `decodeText` : the text whose UTF-8 bytes are given.
-/

namespace BoundedStore

/-- Why a file cannot be read. -/
inductive FileError where
  | noSuchFile
  | notDirectory
  | isDirectory
  | nameTooLong
  /-- The path holds a NUL character. -/
  | nulInPath
  /-- The bytes are no UTF-8 text. -/
  | notText
  /-- Any other failure that the system describes. -/
  | system (description : String) (code : Nat)
  deriving DecidableEq

def FileError.message : FileError → String
  | .noSuchFile => "No such file or directory (os error 2)"
  | .notDirectory => "Not a directory (os error 20)"
  | .isDirectory => "Is a directory (os error 21)"
  | .nameTooLong => "File name too long (os error 36)"
  | .nulInPath => "file name contained an unexpected NUL byte"
  | .notText => "stream did not contain valid UTF-8"
  | .system description code => s!"{description} (os error {code})"

/-- What reading each path gives. -/
abbrev Files := String → Except FileError Bytes

/-- The text whose UTF-8 bytes are given. -/
def decodeText (content : Bytes) : Except FileError String :=
  match String.fromUTF8? ⟨content.toArray⟩ with
  | some text => .ok text
  | none => .error .notText

end BoundedStore
