import BoundedStore.Store.Basic

/-!
# Answers that never change

The store has no directories, no replication and no local copies. Users that ask for them get the same answers for
every path; only the hint where a file lies depends on whether the file exists.
-/

namespace BoundedStore.Store

/-- The block size of every file. -/
def blockSize : UInt64 := 32768

/-- How many copies there are of every file. -/
def replication : UInt16 := 1

/-- The directory to which paths without a leading `/` belong. -/
def workingDirectory : String := "/"

/-- No key is a directory. -/
def isDirectory (_ : Store) (_path : String) : Bool := false

/-- No directory is ever made. -/
def makeDirectories (_ : Store) (_path : String) : Bool := false

/-- Directories cannot be listed. -/
def listDirectory (_ : Store) (_path : String) : Option (List String) := none

/-- Every request for replication is granted and has no effect. -/
def setReplication (_ : Store) (_path : String) (_copies : UInt16) : Bool := true

/-- Output for a path is written to that path at once. -/
def localOutput (_ : Store) (path _scratch : String) : String := path

/-- Where the bytes of a file lie: in memory, if the file exists. -/
def hints (s : Store) (path : String) (_start _len : UInt64) : Option (List (List String)) :=
  if s.isCommitted path then some [["inmemory"]] else none

end BoundedStore.Store
