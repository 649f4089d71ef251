import BoundedStore.Checksum.Companion
import BoundedStore.Config.Basic
import BoundedStore.Ledger
import BoundedStore.Path.Companion
import BoundedStore.Reader
import BoundedStore.Table

/-!
# The store

Files pass through two tables. `reserve` claims space for a file and its companion and puts two buffers into the table
of reservations; `create` takes a buffer out and hands it to a writer; `commit` publishes it in the table of files;
`rename` moves it there; `delete` removes it and gives its space back. A buffer that is replaced or lost keeps its
space in use.

Each operation gives its result and the store after it.
-/

namespace BoundedStore

/-- A store of fixed capacity. -/
structure Store where
  address : Address
  granularity : Granularity
  ledger : Ledger
  /-- The buffers for which no writer has been made. -/
  reserved : Table Key Buffer
  /-- The published files. -/
  committed : Table Key Buffer
  closed : Bool

namespace Store

/-! ## New stores -/

/-- An open store without files. -/
def build (address : Address) (capacity : UInt64) (granularity : UInt32) : Except StoreError Store :=
  match Granularity.ofWord? granularity with
  | none => .error (.invalidArgument .zeroGranularity)
  | some g => .ok ⟨address, g, Ledger.empty capacity, Table.empty, Table.empty, false⟩

/-- A store of `capacity` bytes at the default address. -/
def ofCapacity (capacity : UInt64) (granularity : UInt32) : Except StoreError Store :=
  build Address.default capacity granularity

def ofConfig (c : Config) : Except StoreError Store :=
  match Address.parse c.uri with
  | .error e => .error e
  | .ok address => build address c.capacityBytes c.bytesPerChecksum

/-! ## Queries -/

def used (s : Store) : UInt64 := s.ledger.used

def capacity (s : Store) : UInt64 := s.ledger.capacity

def name (s : Store) : String := s.address.text

def isCommitted (s : Store) (path : String) : Bool := s.committed.contains (Key.ofPath path)

def isReserved (s : Store) (path : String) : Bool := s.reserved.contains (Key.ofPath path)

/-- The size of a file, which is the size reserved for it. -/
def length (s : Store) (path : String) : Except StoreError UInt64 :=
  match s.committed.get? (Key.ofPath path) with
  | some buffer => .ok buffer.capacity
  | none => .error (.notFound (Key.ofPath path).text)

/-- The keys of the published files that `accepts` holds of, in no order that a caller may count on. -/
def list (s : Store) (accepts : String → Bool) : List String :=
  (s.committed.keys.map Key.text).filter accepts

def openFile (s : Store) (path : String) : Except StoreError Reader :=
  if s.closed then .error .closed
  else
    match s.committed.get? (Key.ofPath path) with
    | some buffer => .ok (Reader.start (Key.ofPath path) buffer)
    | none => .error (.notFound (Key.ofPath path).text)

/-! ## The life of a file -/

/-- Reserves `size` bytes for a file and the bytes of its companion: both or neither. -/
def reserve (s : Store) (path : String) (size : UInt64) : Bool × Store :=
  let key := Key.ofPath path
  let companionSize := s.granularity.companionSize size
  match Word.add? size companionSize with
  | none => (false, s)
  | some total =>
    if s.closed then (false, s)
    else if s.ledger.fits total then
      match Buffer.allocate size with
      | .error _ => (false, s)
      | .ok data =>
        match Buffer.allocate companionSize with
        | .error _ => (false, s)
        | .ok sums =>
          (true, { s with
            ledger := s.ledger.claim total
            reserved := (s.reserved.insert key.companion sums).insert key data })
    else (false, s)

/-- Makes a writer for the buffer reserved under the key of `path`. -/
def create (s : Store) (path : String) (overwrite : Bool) : Except StoreError Writer × Store :=
  let key := Key.ofPath path
  if s.committed.contains key && !overwrite then (.error (.alreadyExists key.text), s)
  else if s.closed then (.error .closed, s)
  else
    match s.reserved.get? key with
    | some buffer => (.ok (Writer.start key buffer), { s with reserved := s.reserved.erase key })
    | none => (.error (.notReserved key.text), s)

/-- Publishes the buffer of a writer in place of an earlier file. -/
def commit (s : Store) (w : Writer) : Except StoreError Unit × Store :=
  if s.closed then (.error .closed, s)
  else (.ok (), { s with committed := s.committed.insert w.key w.buffer })

/-- Moves a file, in place of an earlier one at the destination. -/
def rename (s : Store) (source destination : String) : Bool × Store :=
  match s.committed.get? (Key.ofPath source) with
  | none => (false, s)
  | some buffer =>
    (true, { s with
      committed := (s.committed.erase (Key.ofPath source)).insert (Key.ofPath destination) buffer })

/-- Removes a file and gives its space back. -/
def delete (s : Store) (path : String) : Bool × Store :=
  match s.committed.get? (Key.ofPath path) with
  | none => (false, s)
  | some buffer =>
    (true, { s with
      ledger := s.ledger.release buffer.capacity
      committed := s.committed.erase (Key.ofPath path) })

/-- Ends the store: every buffer in it is dropped, and its space stays in use. -/
def close (s : Store) : Store :=
  if s.closed then s else { s with reserved := Table.empty, committed := Table.empty, closed := true }

end Store
end BoundedStore
