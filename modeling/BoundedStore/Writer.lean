import BoundedStore.Buffer
import BoundedStore.Path.Key

/-!
# Writers

A writer fills a reserved buffer from its start and never runs past its end. A write that fails leaves the writer as it
was, so a failed write returns the cause alone.

* `Writer.write` : bytes at the cursor; nothing to write always succeeds;
* `Writer.Wrote` : the writer after a write that fits (`exists_write_of_le`, `write_cases`);
* `Writer.writeSlice` : part of a byte string, whose bounds are checked first;
* `checkBounds` : the test that a range lies within a byte string.
-/

namespace BoundedStore

/-- Whether `len` bytes from `offset` on lie within `size` bytes. -/
def checkBounds (size offset len : UInt64) : Except StoreError Unit :=
  match Word.add? offset len with
  | some finish => if finish ≤ size then .ok () else .error (.invalidArgument (.outOfBounds offset len size))
  | none => .error (.invalidArgument (.outOfBounds offset len size))

/-- A range is within bounds if its end is a count and does not exceed the size. -/
theorem checkBounds_size (data : Bytes) (offset len : UInt64) :
    checkBounds (Bytes.size data) offset len =
      if offset.toNat + len.toNat ≤ data.length ∧ offset.toNat + len.toNat < 0x1_0000_0000_0000_0000 then .ok ()
      else .error (.invalidArgument (.outOfBounds offset len (Bytes.size data))) := by
  have hsize := Bytes.toNat_size_eq_min data
  unfold checkBounds
  split
  · next finish h =>
    rw [Word.add?_eq_some_iff] at h
    have hlt := Word.toNat_lt finish
    have hle : finish ≤ Bytes.size data ↔
        offset.toNat + len.toNat ≤ data.length ∧ offset.toNat + len.toNat < 0x1_0000_0000_0000_0000 := by
      rw [UInt64.le_iff_toNat_le]
      omega
    simp only [hle]
  · next h =>
    rw [Word.add?_eq_none_iff] at h
    rw [if_neg (by omega)]

/-- A buffer that is being filled for the file under `key`. -/
structure Writer where
  key : Key
  buffer : Buffer
  position : UInt64
  deriving DecidableEq

namespace Writer

/-- A writer at the start of its buffer. -/
def start (key : Key) (buffer : Buffer) : Writer := ⟨key, buffer, 0⟩

def capacity (w : Writer) : UInt64 := w.buffer.capacity

/-- The bytes that can still be written. -/
def remaining (w : Writer) : UInt64 := Word.subFloor w.capacity w.position

/-- Appends `data`. -/
def write (w : Writer) (data : Bytes) : Except StoreError Writer :=
  if data = [] then .ok w
  else
    match w.buffer.writeAt w.position data with
    | .ok buffer => .ok { w with buffer := buffer, position := w.position + Bytes.size data }
    | .error e => .error e

theorem write_nil (w : Writer) : w.write [] = .ok w := by simp [write]

/-- `v` is `w` after `data` was laid down behind its cursor. -/
structure Wrote (w : Writer) (data : Bytes) (v : Writer) : Prop where
  fits : w.position.toNat + data.length ≤ w.buffer.bytes.length
  key : v.key = w.key
  bytes : v.buffer.bytes = Bytes.overwrite w.buffer.bytes w.position.toNat data
  position : v.position.toNat = w.position.toNat + data.length

theorem Wrote.unique {w v u : Writer} {data : Bytes} (hv : w.Wrote data v) (hu : w.Wrote data u) : v = u := by
  have hkey := hv.key.trans hu.key.symm
  have hbuffer := Buffer.eq_of_bytes_eq (hv.bytes.trans hu.bytes.symm)
  have hposition := UInt64.toNat_inj.1 (hv.position.trans hu.position.symm)
  cases v
  cases u
  cases hkey
  cases hbuffer
  cases hposition
  rfl

/-- Data that can be laid down there is taken. -/
theorem exists_write_of_le {w : Writer} {data : Bytes}
    (h : w.position.toNat + data.length ≤ w.buffer.bytes.length) : ∃ v, w.write data = .ok v ∧ w.Wrote data v := by
  by_cases hdata : data = []
  · subst hdata
    exact ⟨w, w.write_nil, h, rfl, (Bytes.overwrite_nil _ _).symm, rfl⟩
  · have hlt := w.buffer.length_lt
    have hsize : (Bytes.size data).toNat = data.length := Bytes.toNat_size (by omega)
    rw [write, if_neg hdata, Buffer.writeAt_of_le h]
    refine ⟨_, rfl, h, rfl, rfl, ?_⟩
    show (w.position + Bytes.size data).toNat = _
    rw [UInt64.toNat_add, hsize]
    exact Nat.mod_eq_of_lt (by omega)

theorem write_of_wrote {w v : Writer} {data : Bytes} (h : w.Wrote data v) : w.write data = .ok v := by
  obtain ⟨u, hu, hwrote⟩ := exists_write_of_le h.fits
  rw [hu, hwrote.unique h]

/-- Nothing was to be written, or it was laid down. -/
theorem write_cases {w v : Writer} {data : Bytes} (h : w.write data = .ok v) :
    (data = [] ∧ v = w) ∨ w.Wrote data v := by
  by_cases hdata : data = []
  · subst hdata
    rw [write_nil] at h
    exact .inl ⟨rfl, (Except.ok.inj h).symm⟩
  · rcases Nat.lt_or_ge w.buffer.bytes.length (w.position.toNat + data.length) with hlong | hfits
    · rw [write, if_neg hdata, Buffer.writeAt_of_lt hlong] at h
      cases h
    · obtain ⟨u, hu, hwrote⟩ := exists_write_of_le hfits
      rw [← Except.ok.inj (hu.symm.trans h)]
      exact .inr hwrote

theorem key_write {w v : Writer} {data : Bytes} (h : w.write data = .ok v) : v.key = w.key := by
  rcases write_cases h with ⟨-, rfl⟩ | hwrote
  · rfl
  · exact hwrote.key

/-- Appends the `len` bytes of `data` from `offset` on. -/
def writeSlice (w : Writer) (data : Bytes) (offset len : UInt64) : Except StoreError Writer :=
  match checkBounds (Bytes.size data) offset len with
  | .ok () => w.write ((data.drop offset.toNat).take len.toNat)
  | .error e => .error e

/-- Appends one byte. -/
def writeByte (w : Writer) (byte : UInt8) : Except StoreError Writer := w.write [byte]

end Writer
end BoundedStore
