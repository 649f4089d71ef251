import BoundedStore.Reader

/-!
# Copying

What a reader has left goes to a writer in chunks. A chunk is read and then written as a whole; a chunk that the writer
refuses ends the copying. By then the reader has moved behind it, and the chunks before it stay written.

* `Copied` : the outcome;
* `Reader.copyRounds`, `Reader.copyTo` : one chunk after the other.
-/

namespace BoundedStore

structure Copied where
  /-- The bytes that the writer has taken. -/
  sent : Bytes
  reader : Reader
  writer : Writer
  /-- Why the copying ended early, if it did. -/
  failure : Option StreamError
  deriving DecidableEq

namespace Reader

/-- Reads up to `size` bytes and writes them, again and again until nothing more comes. A round in which something comes
takes a byte at least, so there are no more of these rounds than bytes. -/
def copyRounds (size : Nat) : Nat → Reader → Writer → Copied
  | 0, r, w => ⟨[], r, w, none⟩
  | rounds + 1, r, w =>
    match r.read (List.replicate size 0) with
    | .error e => ⟨[], r, w, some e⟩
    | .ok ((count, target), r) =>
      if count = 0 then ⟨[], r, w, none⟩
      else
        let chunk := target.take count.toNat
        match w.write chunk with
        | .error e => ⟨[], r, w, some (.store e)⟩
        | .ok w =>
          let rest := copyRounds size rounds r w
          { rest with sent := chunk ++ rest.sent }

/-- The length of a chunk, unless fewer bytes are left. -/
def chunkSize : Nat := 8192

/-- Sends what `r` has left to `w`. -/
def copyTo (r : Reader) (w : Writer) : Copied := copyRounds chunkSize r.available.toNat r w

end Reader
end BoundedStore
