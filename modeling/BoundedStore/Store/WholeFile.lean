import BoundedStore.Store.Basic

/-!
# Whole files

Operations on a file and its companion at once, put together from the steps of a file's life.

* `Store.fill` : make a writer, write, publish;
* `Store.put` : reserve, fill the file, fill its companion;
* `Store.readAll` : the content of a file;
* `Store.verify` : a file held against its companion.
-/

namespace BoundedStore.Store

/-- Writes `data` into the buffer reserved for `path` and publishes it. -/
def fill (s : Store) (path : String) (overwrite : Bool) (data : Bytes) : Except StoreError Unit × Store :=
  match s.create path overwrite with
  | (.error e, s) => (.error e, s)
  | (.ok writer, s) =>
    match writer.write data with
    | .error e => (.error e, s)
    | .ok writer => s.commit writer

/-- Stores `data` and its companion. A file that exists is an error, and `false` means that there is no room. -/
def put (s : Store) (path : String) (data : Bytes) : Except StoreError Bool × Store :=
  if s.isCommitted path then (.error (.alreadyExists path), s)
  else
    match s.reserve path (Bytes.size data) with
    | (false, s) => (.ok false, s)
    | (true, s) =>
      match s.fill path false data with
      | (.error e, s) => (.error e, s)
      | (.ok (), s) =>
        match s.fill (companionPath path) true (Companion.encode s.granularity data) with
        | (.error e, s) => (.error e, s)
        | (.ok (), s) => (.ok true, s)

/-- The content of a file. -/
def readAll (s : Store) (path : String) : Except StoreError Bytes :=
  match s.openFile path with
  | .ok reader => reader.readWhole
  | .error e => .error e

/-- Holds a file against its companion. -/
def verify (s : Store) (path : String) : Except StoreError Unit :=
  match s.readAll path with
  | .error e => .error e
  | .ok data =>
    match s.readAll (companionPath path) with
    | .error e => .error e
    | .ok companion => Companion.verify path data companion

end BoundedStore.Store
