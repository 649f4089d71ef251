import BoundedStore.Bytes
import BoundedStore.Error
import BoundedStore.Word

/-!
# Buffers

A buffer is a byte string of fixed length. Memory is granted for fewer than 2^62 bytes (`Buffer.allocate`), all zero
at first; a write either fits as a whole or changes nothing (`Buffer.writeAt`).
-/

namespace BoundedStore

/-- A byte string of fixed length. -/
structure Buffer where
  bytes : Bytes
  length_lt : bytes.length < 0x4000_0000_0000_0000
  deriving DecidableEq

namespace Buffer

/-- The length of a buffer, which never changes. -/
def capacity (b : Buffer) : UInt64 := Bytes.size b.bytes

theorem toNat_capacity (b : Buffer) : b.capacity.toNat = b.bytes.length :=
  Bytes.toNat_size (by have := b.length_lt; omega)

/-- A buffer of `capacity` zeros. -/
def allocate (capacity : UInt64) : Except StoreError Buffer :=
  if h : capacity.toNat < 0x4000_0000_0000_0000 then .ok ⟨List.replicate capacity.toNat 0, by simpa using h⟩
  else .error (.allocationFailure capacity)

/-- The buffer with `data` from `offset` on. -/
def writeAt (b : Buffer) (offset : UInt64) (data : Bytes) : Except StoreError Buffer :=
  let tooLarge := .error (.insufficientSpace (Bytes.size data) (Word.subFloor b.capacity offset))
  match Word.add? offset (Bytes.size data) with
  | none => tooLarge
  | some finish =>
    if finish ≤ b.capacity then
      .ok ⟨Bytes.overwrite b.bytes offset.toNat data, by rw [Bytes.length_overwrite]; exact b.length_lt⟩
    else tooLarge

/-! ## When memory is granted and when a write fits -/

theorem eq_of_bytes_eq {b c : Buffer} (h : b.bytes = c.bytes) : b = c := by
  cases b
  cases c
  cases h
  rfl

theorem allocate_eq_ok_iff {n : UInt64} {b : Buffer} :
    allocate n = .ok b ↔ b.bytes = List.replicate n.toNat 0 := by
  unfold allocate
  split
  · rw [Except.ok.injEq]
    constructor
    · rintro rfl
      rfl
    · intro hb
      exact eq_of_bytes_eq hb.symm
  · next h =>
    constructor
    · intro hb
      cases hb
    · intro hb
      have hlt := b.length_lt
      rw [hb, List.length_replicate] at hlt
      exact absurd hlt h

/-- Memory is granted for fewer than 2^62 bytes. -/
theorem exists_allocate_iff {n : UInt64} : (∃ b, allocate n = .ok b) ↔ n.toNat < 0x4000_0000_0000_0000 := by
  unfold allocate
  split
  · next h => exact ⟨fun _ => h, fun _ => ⟨_, rfl⟩⟩
  · next h =>
    constructor
    · rintro ⟨b, hb⟩
      cases hb
    · intro hlt
      exact absurd hlt h

/-- A granted buffer is as long as was asked. -/
theorem toNat_capacity_of_allocate {n : UInt64} {b : Buffer} (h : allocate n = .ok b) :
    b.capacity.toNat = n.toNat := by
  rw [toNat_capacity, allocate_eq_ok_iff.1 h, List.length_replicate]

theorem writeAt_of_le {b : Buffer} {offset : UInt64} {data : Bytes}
    (h : offset.toNat + data.length ≤ b.bytes.length) :
    b.writeAt offset data =
      .ok ⟨Bytes.overwrite b.bytes offset.toNat data, by rw [Bytes.length_overwrite]; exact b.length_lt⟩ := by
  have hlt := b.length_lt
  have hsize : (Bytes.size data).toNat = data.length := Bytes.toNat_size (by omega)
  simp only [writeAt]
  split
  · next hadd =>
    rw [Word.add?_eq_none_iff, hsize] at hadd
    omega
  · next finish hadd =>
    rw [Word.add?_eq_some_iff, hsize] at hadd
    rw [if_pos]
    rw [UInt64.le_iff_toNat_le, toNat_capacity]
    omega

theorem writeAt_of_lt {b : Buffer} {offset : UInt64} {data : Bytes}
    (h : b.bytes.length < offset.toNat + data.length) :
    b.writeAt offset data =
      .error (.insufficientSpace (Bytes.size data) (Word.subFloor b.capacity offset)) := by
  have hlt := b.length_lt
  have hsize := Bytes.toNat_size_eq_min data
  simp only [writeAt]
  split
  · rfl
  · next finish hadd =>
    rw [Word.add?_eq_some_iff, hsize] at hadd
    have hfinish := Word.toNat_lt finish
    rw [if_neg]
    rw [UInt64.le_iff_toNat_le, toNat_capacity]
    omega

end Buffer
end BoundedStore
