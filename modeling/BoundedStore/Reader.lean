import BoundedStore.Writer

/-!
# Readers

A reader moves through the bytes that a file had when it was opened; later changes to the store do not reach it.

* `Reader.readByte`, `Reader.readInto`, `Reader.skip` : move forward as far as there are bytes;
* `Reader.seek` : moves to any position up to the end;
* `Reader.seekFrom` : the same from an origin and with a signed distance;
* `Reader.fillRounds`, `Reader.readWhole` : a target is filled by as many reads as it takes;
* `Reader.read`, `Reader.readExact`, `Reader.readToEnd` : the reading operations of a byte stream.
-/

namespace BoundedStore

inductive Origin where
  | start (position : UInt64)
  | fromEnd (distance : Int64)
  | fromHere (distance : Int64)
  deriving DecidableEq

/-- A cursor over the bytes of a file. -/
structure Reader where
  key : Key
  buffer : Buffer
  position : UInt64
  deriving DecidableEq

namespace Reader

def start (key : Key) (buffer : Buffer) : Reader := ⟨key, buffer, 0⟩

def length (r : Reader) : UInt64 := r.buffer.capacity

/-- The bytes between the cursor and the end. -/
def available (r : Reader) : UInt64 := r.length - r.position

/-- The next `n` bytes, as far as there are. -/
def ahead (r : Reader) (n : Nat) : Bytes := (r.buffer.bytes.drop r.position.toNat).take n

def readByte (r : Reader) : Option UInt8 × Reader :=
  match r.buffer.bytes[r.position.toNat]? with
  | some byte => (some byte, { r with position := r.position + 1 })
  | none => (none, r)

/-- Moves forward by `n` bytes, or to the end if that is nearer; gives the distance. -/
def skip (r : Reader) (n : UInt64) : UInt64 × Reader :=
  let distance := min n r.available
  (distance, { r with position := r.position + distance })

/-- Up to `len` bytes into `target` from `offset` on: their number and the filled target. -/
def readInto (r : Reader) (target : Bytes) (offset len : UInt64) : Except StoreError ((UInt64 × Bytes) × Reader) :=
  match checkBounds (Bytes.size target) offset len with
  | .error e => .error e
  | .ok () =>
    let count := min len r.available
    .ok ((count, Bytes.overwrite target offset.toNat (r.ahead count.toNat)),
      { r with position := r.position + count })

def seek (r : Reader) (position : UInt64) : Except StoreError Reader :=
  if position ≤ r.length then .ok { r with position := position }
  else .error (.endOfFile position r.length)

/-- Reads into what is still free in `target`, whose first `filled` bytes are filled, again and again until it is full
or nothing more comes; gives the target and how far it is filled. A round that is not the last fills a byte at least,
so there are no more rounds than free bytes. -/
def fillRounds : Nat → Reader → Bytes → UInt64 → Except StoreError (Bytes × UInt64)
  | 0, _, target, filled => .ok (target, filled)
  | rounds + 1, r, target, filled =>
    if filled < Bytes.size target then
      match r.readInto target filled (Bytes.size target - filled) with
      | .error e => .error e
      | .ok ((count, target), r) =>
        if count = 0 then .ok (target, filled) else fillRounds rounds r target (filled + count)
    else .ok (target, filled)

/-- The bytes from the cursor on, read into a target that has room for just these. -/
def readWhole (r : Reader) : Except StoreError Bytes :=
  match fillRounds r.available.toNat r (List.replicate r.available.toNat 0) 0 with
  | .error e => .error e
  | .ok (target, filled) => .ok (target.take filled.toNat)

/-! ## Reading as a byte stream -/

/-- The position that an origin and a distance name, if it is a count. -/
def target? (r : Reader) : Origin → Option UInt64
  | .start position => some position
  | .fromEnd distance => Word.shift? r.length distance
  | .fromHere distance => Word.shift? r.position distance

/-- Moves the cursor and gives its new position. -/
def seekFrom (r : Reader) (origin : Origin) : Except StreamError (UInt64 × Reader) :=
  match r.target? origin with
  | none => .error .seekBeforeStart
  | some position =>
    match r.seek position with
    | .ok r => .ok (position, r)
    | .error e => .error (.store e)

/-- As many bytes as `target` holds, or all that are left. -/
def read (r : Reader) (target : Bytes) : Except StreamError ((UInt64 × Bytes) × Reader) :=
  match r.readInto target 0 (Bytes.size target) with
  | .ok result => .ok result
  | .error e => .error (.store e)

def readToEnd (r : Reader) : Bytes × Reader :=
  (r.ahead r.available.toNat, { r with position := r.position + r.available })

/-- Exactly `n` bytes. If fewer are left, the cursor moves to the end all the same. -/
def readExact (r : Reader) (n : UInt64) : Except StreamError Bytes × Reader :=
  if n ≤ r.available then (.ok (r.ahead n.toNat), { r with position := r.position + n })
  else (.error .shortRead, r.readToEnd.2)

end Reader
end BoundedStore
