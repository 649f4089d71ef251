import BoundedStore.Files.Error

/-!
# File trees

A tree of directories and files.

* `FileTree.makeDirectory`, `FileTree.write` : make a directory or a file, and the directories that lead there;
* `FileTree.read` : the content of the file at a path, which is followed from the root or the current directory, one
  component after the other. Every component is looked up in a directory; `.` stays, `..` goes to the parent, and a
  path that ends in `/` names a directory.
-/

namespace BoundedStore

inductive FileTree where
  | file (content : Bytes)
  | directory (entries : List (String × FileTree))

namespace FileTree

/-- The longest name of an entry, in bytes. -/
def maxName : Nat := 255

/-- The longest path, in bytes. -/
def maxPath : Nat := 4095

/-- The entries of a directory with `tree` under `name`. -/
def assign (entries : List (String × FileTree)) (name : String) (tree : FileTree) : List (String × FileTree) :=
  if (entries.lookup name).isSome then entries.map fun e => if e.1 == name then (name, tree) else e
  else entries ++ [(name, tree)]

/-- Applies `change` to what is at `path`. Missing directories that lead there are made, and so is one at `path`. -/
def update (change : FileTree → FileTree) : List String → FileTree → FileTree
  | [], tree => change tree
  | name :: path, .directory entries =>
    let inner := (entries.lookup name).getD (.directory [])
    .directory (assign entries name (update change path inner))
  | name :: path, .file _ => .directory [(name, update change path (.directory []))]

/-- Makes the directory at `path`, unless there is one. -/
def makeDirectory (path : List String) (tree : FileTree) : FileTree := update id path tree

/-- Makes a file at `path`, in place of an earlier one. -/
def write (path : List String) (content : Bytes) (tree : FileTree) : FileTree := update (fun _ => .file content) path tree

/-- One component is followed from the directories `trail`, the innermost first. -/
def follow : List FileTree → String → Except FileError (List FileTree)
  | [], _ => .error .noSuchFile
  | .file _ :: _, _ => .error .notDirectory
  | .directory entries :: above, component =>
    if component == "." then .ok (.directory entries :: above)
    else if component == ".." then .ok (if above.isEmpty then [.directory entries] else above)
    else if maxName < component.utf8ByteSize then .error .nameTooLong
    else
      match entries.lookup component with
      | some tree => .ok (tree :: .directory entries :: above)
      | none => .error .noSuchFile

/-- The `/`-separated components of a path, without empty ones. -/
def components (path : String) : List String :=
  (path.toList.splitOn '/').filterMap fun cs => if cs = [] then none else some (String.ofList cs)

/-- The content of the file at `path`, where `current` are the components of the current directory. -/
def read (root : FileTree) (current : List String) : Files := fun path =>
  if path.toList.contains (Char.ofNat 0) then .error .nulInPath
  else if path = "" then .error .noSuchFile
  else if maxPath < path.utf8ByteSize then .error .nameTooLong
  else do
    let start ← if path.toList.head? = some '/' then pure [root] else current.foldlM follow [root]
    let trail ← (components path).foldlM follow start
    match trail with
    | .file content :: _ => if path.toList.getLast? = some '/' then .error .notDirectory else .ok content
    | .directory _ :: _ => .error .isDirectory
    | [] => .error .noSuchFile

end FileTree
end BoundedStore
