import BoundedStore.Writer

/-!
# Drafts

A draft is what the user of a writer knows about it: the key and the size it was made for, and the bytes it has taken.

* `Draft.file` : the file that a draft becomes, its content and then zeros;
* `Writer.Holds` : the writer and the draft agree;
* `Holds.write_of_le`, `Holds.write_of_lt` : a write is taken as a whole or refused as a whole, and which of the two
  depends on the lengths alone.
-/

namespace BoundedStore

structure Draft where
  key : Key
  size : UInt64
  content : Bytes
  deriving DecidableEq

namespace Draft

def append (d : Draft) (data : Bytes) : Draft := { d with content := d.content ++ data }

theorem length_append (d : Draft) (data : Bytes) :
    (d.append data).content.length = d.content.length + data.length := List.length_append

theorem append_nil (d : Draft) : d.append [] = d := by simp [append]

theorem append_append (d : Draft) (front back : Bytes) : (d.append front).append back = d.append (front ++ back) := by
  simp [append]

/-- The content, then zeros up to the size. -/
def file (d : Draft) : Bytes := d.content ++ List.replicate (d.size.toNat - d.content.length) 0

theorem length_file {d : Draft} (h : d.content.length ≤ d.size.toNat) : d.file.length = d.size.toNat := by
  rw [file, List.length_append, List.length_replicate]
  omega

end Draft

/-- Data laid over the zeros that follow some content extends the content. -/
theorem Bytes.overwrite_append_zeros (content : Bytes) {data : Bytes} {n : Nat} (h : data.length ≤ n) :
    overwrite (content ++ List.replicate n 0) content.length data =
      content ++ data ++ List.replicate (n - data.length) 0 := by
  have hroom : content.length + data.length ≤ (content ++ List.replicate n 0).length := by
    rw [List.length_append, List.length_replicate]
    omega
  rw [overwrite_of_le hroom, List.take_left, List.drop_append, List.drop_replicate,
    List.drop_eq_nil_of_le (by omega), List.nil_append]
  congr 2
  omega

namespace Writer

/-- The buffer of the writer is what the draft becomes, and its cursor stands behind the content. -/
structure Holds (w : Writer) (d : Draft) : Prop where
  key : w.key = d.key
  bytes : w.buffer.bytes = d.file
  fits : d.content.length ≤ d.size.toNat
  position : w.position.toNat = d.content.length

/-- A new writer over zeros has taken nothing. -/
theorem holds_start (key : Key) {buffer : Buffer} {size : UInt64} (h : buffer.bytes = List.replicate size.toNat 0) :
    (start key buffer).Holds ⟨key, size, []⟩ where
  key := rfl
  bytes := h
  fits := Nat.zero_le _
  position := rfl

namespace Holds

variable {w : Writer} {d : Draft} (h : w.Holds d)

include h

theorem length_bytes : w.buffer.bytes.length = d.size.toNat := by
  rw [h.bytes, Draft.length_file h.fits]

theorem capacity : w.capacity = d.size := by
  rw [← UInt64.toNat_inj, Writer.capacity, Buffer.toNat_capacity, h.length_bytes]

theorem remaining : w.remaining.toNat = d.size.toNat - d.content.length := by
  rw [Writer.remaining, Word.toNat_subFloor, h.capacity, h.position]

/-- Data that fits behind the content is taken as a whole. -/
theorem write_of_le {data : Bytes} (hfits : d.content.length + data.length ≤ d.size.toNat) :
    ∃ v, w.write data = .ok v ∧ v.Holds (d.append data) := by
  have hroom : w.position.toNat + data.length ≤ w.buffer.bytes.length := by
    rw [h.position, h.length_bytes]
    exact hfits
  obtain ⟨v, hv, hwrote⟩ := exists_write_of_le hroom
  refine ⟨v, hv, hwrote.key.trans h.key, ?_, ?_, ?_⟩
  · rw [hwrote.bytes, h.bytes, h.position, Draft.file, Bytes.overwrite_append_zeros _ (by omega)]
    simp only [Draft.file, Draft.append, List.length_append]
    rw [Nat.sub_sub]
  · rw [d.length_append]
    exact hfits
  · rw [hwrote.position, h.position, d.length_append]

/-- Data that does not fit is refused as a whole. -/
theorem write_of_lt {data : Bytes} (hdata : data ≠ []) (hlong : d.size.toNat < d.content.length + data.length) :
    w.write data = .error (.insufficientSpace (Bytes.size data) w.remaining) := by
  have hover : w.buffer.bytes.length < w.position.toNat + data.length := by rw [h.position, h.length_bytes]; exact hlong
  rw [write, if_neg hdata, Buffer.writeAt_of_lt hover]
  rfl

/-- Whatever is taken is appended to the draft. -/
theorem write {v : Writer} {data : Bytes} (hv : w.write data = .ok v) : v.Holds (d.append data) := by
  by_cases hfits : d.content.length + data.length ≤ d.size.toNat
  · obtain ⟨u, hu, hheld⟩ := h.write_of_le hfits
    rw [hu] at hv
    cases hv
    exact hheld
  · have hdata : data ≠ [] := by
      rintro rfl
      exact hfits h.fits
    rw [h.write_of_lt hdata (by omega)] at hv
    cases hv

end Holds

end Writer
end BoundedStore
