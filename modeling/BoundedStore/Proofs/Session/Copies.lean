import BoundedStore.Proofs.Reading.Seeking
import BoundedStore.Proofs.Writing.Published

/-!
# How a copy ends

Along a run every reader stands within its file and every writer holds its draft, and the two determine a copy between
them. It sends all that is left, if the draft has room for it, or else the whole chunks that fit.

* `Session.CopiesTo` : the outcome of a copy by the cursor of the reader and the draft of the writer;
* `Session.copies_by_chunks` : every copy in every run from a new store has this outcome.
-/

namespace BoundedStore.Session

/-- The reader `r` at the cursor `c`, kept under `reader`, is copied to the writer under `name`, which holds `d`. -/
structure CopiesTo (s : Session) (reader name : String) (r : Reader) (c : Cursor) (d : Draft) : Prop where
  fits : d.content.length + c.left ≤ d.size.toNat → ∃ v, v.Holds (d.append c.rest) ∧
    s.step (.copy reader name) = (.count (Bytes.size c.rest), { s with
      readers := s.readers.insert reader (r.movedTo (c.forward c.left))
      writers := s.writers.insert name v })
  /-- The chunk after those that fit is refused as a whole; the reader has passed it, and the writer is without it. -/
  ends : d.size.toNat < d.content.length + c.left → ∃ v, v.Holds (d.append (c.next d.chunkRoom)) ∧
    s.step (.copy reader name) =
      (.streamFailed (.store (.insufficientSpace (Bytes.size ((c.forward d.chunkRoom).next Reader.chunkSize))
        v.remaining)), { s with
          readers := s.readers.insert reader (r.movedTo (c.forward (d.chunkRoom + Reader.chunkSize)))
          writers := s.writers.insert name v })

theorem copiesTo_of_shows {s : Session} {reader name : String} {r : Reader} {c : Cursor} {w : Writer} {d : Draft}
    (hr : s.readers.get? reader = some r) (hc : r.Shows c) (hw : s.writers.get? name = some w) (hd : w.Holds d) :
    s.CopiesTo reader name r c d where
  fits hfits := by
    obtain ⟨v, hv, hcopied⟩ := hc.copyTo_of_le hd hfits
    refine ⟨v, hv, ?_⟩
    simp only [step, hr, hw, copyStep, hcopied, Answer.ofCopied]
  ends hlong := by
    obtain ⟨v, hv, hcopied⟩ := hc.copyTo_of_lt hd hlong
    refine ⟨v, hv, ?_⟩
    simp only [step, hr, hw, copyStep, hcopied, Answer.ofCopied]

/-- **A copy sends whole chunks.** In every state that a run from a new store reaches, each reader shows a place in its
file and each writer has a draft in the notes of the run, and a copy from one to the other ends as these two say. -/
theorem copies_by_chunks {address : Address} {capacity : UInt64} {granularity : UInt32} {store : Store}
    (h : Store.build address capacity granularity = .ok store) (actions : List Action) {reader name : String}
    {r : Reader} {w : Writer} (hr : ((start store).run actions).readers.get? reader = some r)
    (hw : ((start store).run actions).writers.get? name = some w) :
    ∃ c d, r.Shows c ∧ ((start store).past actions).drafts.get? name = some d ∧
      ((start store).run actions).CopiesTo reader name r c d := by
  obtain ⟨c, hc⟩ := readersShow_run (readersShow_start store) actions reader r hr
  obtain ⟨d, hdraft, hd⟩ := (follows_run (follows_start h) actions).drafts name w hw
  exact ⟨c, d, hc, hdraft, copiesTo_of_shows hr hc hw hd⟩

end BoundedStore.Session
