import BoundedStore.Store.WholeFile

/-!
# Sessions

A session is a store together with the writers and readers that its users hold, each under a name of its own.

* `StoreAction`, `WriterAction`, `ReaderAction`, `Action` : what users can do;
* `Answer` : what they are told;
* `Session` : the state between actions.
-/

namespace BoundedStore

inductive StoreAction where
  | reserve (path : String) (size : UInt64)
  /-- The writer is kept under the name `writer`. -/
  | create (path : String) (overwrite : Bool) (writer : String)
  /-- The reader is kept under the name `reader`. -/
  | openFile (path : String) (reader : String)
  | rename (source destination : String)
  | delete (path : String)
  | isCommitted (path : String)
  | isReserved (path : String)
  | length (path : String)
  | put (path : String) (data : Bytes)
  | readAll (path : String)
  | verify (path : String)
  | list (accepts : String → Bool)
  | companionSize (size : UInt64)
  | hints (path : String) (start len : UInt64)
  /-- Another handle to the same store. -/
  | share
  | inspect
  | close

inductive WriterAction where
  | write (data : Bytes)
  | writeSlice (data : Bytes) (offset len : UInt64)
  | writeByte (byte : UInt8)
  /-- A write to a byte stream; the answer is the number of bytes. -/
  | send (data : Bytes)
  /-- A write to a byte stream until all is written. -/
  | sendAll (data : Bytes)
  | inspect
  | close
  /-- The writer is given up and its buffer lost. -/
  | drop

inductive ReaderAction where
  | readByte
  | readInto (target : Bytes) (offset len : UInt64)
  | seek (position : UInt64)
  | skip (n : UInt64)
  | read (target : Bytes)
  | readExact (n : UInt64)
  | readToEnd
  | seekFrom (origin : Origin)
  | inspect
  /-- A second reader at the same place is kept under the name `copy`. -/
  | duplicate (copy : String)

inductive Action where
  | store (action : StoreAction)
  | writer (name : String) (action : WriterAction)
  | reader (name : String) (action : ReaderAction)
  /-- What a reader has left is sent to a writer, in chunks. -/
  | copy (reader writer : String)

inductive Answer where
  | done
  | nothing
  | flag (value : Bool)
  | count (n : UInt64)
  | handle (number : Nat)
  | byte (value : UInt8)
  | bytes (content : Bytes)
  /-- So many bytes were put into the target. -/
  | filled (n : UInt64) (target : Bytes)
  | keys (texts : List String)
  | cells (hints : List (List String))
  | store (state : Store)
  | writer (state : Writer)
  | reader (state : Reader)
  | failed (e : StoreError)
  | streamFailed (e : StreamError)
  /-- There is no writer or reader of that name. -/
  | unknownName
  /-- An answer of a writer, and the writer after it. -/
  | ofWriter (answer : Answer) (after : Writer)
  /-- An answer of a reader, and the reader after it. -/
  | ofReader (answer : Answer) (after : Reader)

/-- A store and what its users hold. -/
structure Session where
  store : Store
  writers : Table String Writer
  readers : Table String Reader
  /-- How many handles to the store there are. -/
  handles : Nat

/-- A session with one handle and nothing else. -/
def Session.start (store : Store) : Session := ⟨store, Table.empty, Table.empty, 1⟩

end BoundedStore
