/-!
# Store errors

* `Fault` : what is wrong with an argument;
* `StoreError` : why an operation failed, with its text in `StoreError.message`;
* `StoreError.isOutOfSpace` : whether the store, or the memory behind it, had no room;
* `Condition`, `StreamError` : the failures of byte streams. Each store error belongs to one class, and two
  failures arise in the streams themselves: a seek to a negative position and a read past the end.
-/

namespace BoundedStore

inductive Fault where
  | missingScheme (uri : String)
  | emptyScheme (uri : String)
  | zeroGranularity
  | outOfBounds (offset len size : UInt64)
  | truncatedHeader (label : String)
  | badMagic (label : String)
  | zeroHeaderGranularity (label : String)
  | stated (text : String)
  deriving DecidableEq

def Fault.message : Fault → String
  | .missingScheme uri => s!"missing scheme in uri: {uri}"
  | .emptyScheme uri => s!"empty scheme in uri: {uri}"
  | .zeroGranularity => "bytes_per_checksum must be positive"
  | .outOfBounds offset len size => s!"range {offset}+{len} out of bounds for buffer of {size} bytes"
  | .truncatedHeader label => s!"{label}: truncated checksum header"
  | .badMagic label => s!"{label}: bad checksum magic"
  | .zeroHeaderGranularity label => s!"{label}: zero checksum granularity"
  | .stated text => text

inductive StoreError where
  /-- The file is committed already and may not be overwritten. -/
  | alreadyExists (path : String)
  | notFound (path : String)
  /-- No space is reserved for the file. -/
  | notReserved (path : String)
  /-- A write does not fit into the space left. -/
  | insufficientSpace (requested available : UInt64)
  /-- No buffer of this size can be had. -/
  | allocationFailure (size : UInt64)
  | invalidArgument (fault : Fault)
  /-- A seek beyond the end of a file. -/
  | endOfFile (position length : UInt64)
  /-- A chunk of data does not match its checksum. -/
  | checksumMismatch (path : String) (chunk : Nat)
  | closed
  deriving DecidableEq

namespace StoreError

def message : StoreError → String
  | alreadyExists path => s!"file already exists: {path}"
  | notFound path => s!"file does not exist: {path}"
  | notReserved path => s!"no space reserved for: {path}"
  | insufficientSpace requested available =>
    s!"insufficient space: requested {requested} bytes, {available} available"
  | allocationFailure size => s!"failed to allocate {size} bytes"
  | invalidArgument fault => s!"invalid argument: {fault.message}"
  | endOfFile position length => s!"cannot seek to {position}: past end of file (length {length})"
  | checksumMismatch path chunk => s!"checksum mismatch in {path} at chunk {chunk}"
  | closed => "store is closed"

/-- Whether the store, or the memory behind it, had no room. -/
def isOutOfSpace : StoreError → Bool
  | insufficientSpace .. | allocationFailure _ => true
  | _ => false

end StoreError

/-- The class of a failure, as a user of byte streams sees it. -/
inductive Condition where
  | alreadyExists
  | notFound
  | storageFull
  | outOfMemory
  | invalidInput
  | unexpectedEnd
  | invalidData
  | brokenPipe
  deriving DecidableEq

/-- The class of a store error. -/
def StoreError.condition : StoreError → Condition
  | alreadyExists _ => .alreadyExists
  | notFound _ => .notFound
  | notReserved _ => .notFound
  | insufficientSpace .. => .storageFull
  | allocationFailure _ => .outOfMemory
  | invalidArgument _ => .invalidInput
  | endOfFile .. => .unexpectedEnd
  | checksumMismatch .. => .invalidData
  | closed => .brokenPipe

inductive StreamError where
  | store (e : StoreError)
  /-- A seek to a position that is no count. -/
  | seekBeforeStart
  /-- Fewer bytes are left than were asked for. -/
  | shortRead
  deriving DecidableEq

namespace StreamError

def condition : StreamError → Condition
  | store e => e.condition
  | seekBeforeStart => .invalidInput
  | shortRead => .unexpectedEnd

def message : StreamError → String
  | store e => e.message
  | seekBeforeStart => "seek before start of file"
  | shortRead => "failed to fill whole buffer"

end StreamError
end BoundedStore
