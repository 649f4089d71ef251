import BoundedStore.Proofs.Path.Text
import BoundedStore.Proofs.Session.Closed
import BoundedStore.Proofs.Store.Listing

/-!
# Queries agree

There are six ways to ask for a file. To open it and to read it look whether the store is closed and the others do not,
but then there are no files. `list` gives texts of keys and the others look keys of paths up, so what is listed is found
because every text of a key leads back to it.

* `Store.Delivers` : what can be had of a file that exists, through a reader and without one;
* `Store.Agree` : the queries agree on a path; `EndsEmpty.agree` : on every path, where a closed store is empty;
* `Store.Canonical` : all keys are canonical, and what is listed is what exists;
* `queries_agree` : both, in every state of a run from a new store.
-/

namespace BoundedStore

namespace Store

variable (s : Store) {path : String}

/-! ## The queries one by one -/

theorem isCommitted_iff : s.isCommitted path = true ↔ ∃ buffer, s.committed.get? (Key.ofPath path) = some buffer :=
  Option.isSome_iff_exists

theorem exists_length_iff : (∃ n, s.length path = .ok n) ↔ s.isCommitted path = true := by
  rw [isCommitted_iff]
  constructor
  · rintro ⟨n, hn⟩
    unfold length at hn
    split at hn
    · next buffer hbuffer => exact ⟨buffer, hbuffer⟩
    · cases hn
  · rintro ⟨buffer, hbuffer⟩
    exact ⟨_, s.length_of_get? hbuffer⟩

theorem exists_openFile_iff : (∃ r, s.openFile path = .ok r) ↔ s.closed = false ∧ s.isCommitted path = true := by
  rw [isCommitted_iff]
  constructor
  · rintro ⟨r, hr⟩
    obtain ⟨hopen, buffer, hbuffer, -⟩ := s.openFile_eq_ok_iff.1 hr
    exact ⟨hopen, buffer, hbuffer⟩
  · rintro ⟨hopen, buffer, hbuffer⟩
    exact ⟨_, s.openFile_of_get? hopen hbuffer⟩

/-- What can be opened can be read to its end: the loop never fails. -/
theorem exists_readAll_iff : (∃ content, s.readAll path = .ok content) ↔ ∃ r, s.openFile path = .ok r := by
  constructor
  · rintro ⟨content, hcontent⟩
    obtain ⟨hopen, buffer, hbuffer, -⟩ := s.readAll_eq_ok_iff.1 hcontent
    exact ⟨_, s.openFile_of_get? hopen hbuffer⟩
  · rintro ⟨r, hr⟩
    obtain ⟨hopen, buffer, hbuffer, -⟩ := s.openFile_eq_ok_iff.1 hr
    exact ⟨_, s.readAll_of_get? hopen hbuffer⟩

theorem isSome_hints (start len : UInt64) : (s.hints path start len).isSome = s.isCommitted path := by
  unfold hints
  split
  · next hexists => rw [hexists, Option.isSome_some]
  · next hnone =>
    rw [Bool.not_eq_true] at hnone
    rw [hnone, Option.isSome_none]

/-! ## The queries together -/

/-- What can be had of the file under `path`: one content, in one length. -/
structure Delivers (s : Store) (path : String) (r : Reader) : Prop where
  stored : s.committed.get? (Key.ofPath path) = some r.buffer
  openFile : s.openFile path = .ok r
  length : s.length path = .ok r.length
  readAll : s.readAll path = .ok r.buffer.bytes
  toNat_length : r.length.toNat = r.buffer.bytes.length
  /-- The loop that fills a target for the whole file ends with every byte read, whatever number of rounds it is given
  from the number of bytes on. -/
  fillRounds : ∀ rounds, r.buffer.bytes.length ≤ rounds →
    Reader.fillRounds rounds r (List.replicate r.available.toNat 0) 0 = .ok (r.buffer.bytes, r.length)

theorem delivers_of_get? {buffer : Buffer} (hopen : s.closed = false)
    (h : s.committed.get? (Key.ofPath path) = some buffer) :
    s.Delivers path (Reader.start (Key.ofPath path) buffer) := by
  have hshows := Reader.shows_start (Key.ofPath path) buffer
  refine ⟨h, s.openFile_of_get? hopen h, s.length_of_get? h, s.readAll_of_get? hopen h, hshows.toNat_length, ?_⟩
  intro rounds hrounds
  have hall : (Reader.start (Key.ofPath path) buffer).available = buffer.capacity := by
    show buffer.capacity - 0 = buffer.capacity
    exact UInt64.sub_zero _
  rw [hshows.fillRounds_zeros hrounds, hall]
  rfl

/-- Every query finds a file under `path` or none of them does. -/
structure Agree (s : Store) (path : String) : Prop where
  openFile : (∃ r, s.openFile path = .ok r) ↔ s.isCommitted path = true
  length : (∃ n, s.length path = .ok n) ↔ s.isCommitted path = true
  readAll : (∃ content, s.readAll path = .ok content) ↔ s.isCommitted path = true
  hints : ∀ start len, (s.hints path start len).isSome = true ↔ s.isCommitted path = true
  list : (canonicalPath path ∈ s.list fun _ => true) ↔ s.isCommitted path = true
  delivers : s.isCommitted path = true → ∃ r, s.Delivers path r

/-- Every key is canonical, also that of a companion, and the list is made of keys that exist. -/
structure Canonical (s : Store) : Prop where
  reserved : ∀ key ∈ s.reserved.keys, canonicalPath key.text = key.text
  committed : ∀ key ∈ s.committed.keys, canonicalPath key.text = key.text
  /-- The companion of `folder/leaf` is `folder/.leaf.crc`, and there is nothing to resolve in it. -/
  companion : ∀ path folder leaf, (canonicalPath path).toList = folder ++ '/' :: leaf → '/' ∉ leaf →
    companionPath path = String.ofList (folder ++ '/' :: '.' :: (leaf ++ companionEnding)) ∧
      canonicalPath (companionPath path) = companionPath path
  nodup_list : ∀ accepts, (s.list accepts).Nodup
  isCommitted : ∀ accepts, ∀ text ∈ s.list accepts, s.isCommitted text = true

theorem canonical : s.Canonical := by
  constructor
  · exact fun key _ => canonicalPath_text key
  · exact fun key _ => canonicalPath_text key
  · exact fun path folder leaf hpath hleaf => ⟨companionPath_of_cut hpath hleaf, canonicalPath_text _⟩
  · exact s.nodup_list
  · exact fun accepts text h => s.isCommitted_of_mem_list h

variable {s}

/-- A store with a file is open. -/
theorem EndsEmpty.open_of_isCommitted (h : s.EndsEmpty) (hexists : s.isCommitted path = true) : s.closed = false := by
  cases hclosed : s.closed with
  | false => rfl
  | true =>
    rw [(h hclosed).isCommitted] at hexists
    cases hexists

theorem EndsEmpty.exists_openFile_iff (h : s.EndsEmpty) :
    (∃ r, s.openFile path = .ok r) ↔ s.isCommitted path = true := by
  rw [Store.exists_openFile_iff]
  exact and_iff_right_of_imp h.open_of_isCommitted

/-- The queries agree on every path, if a closed store is empty. -/
theorem EndsEmpty.agree (h : s.EndsEmpty) (path : String) : s.Agree path where
  openFile := h.exists_openFile_iff
  length := s.exists_length_iff
  readAll := s.exists_readAll_iff.trans h.exists_openFile_iff
  hints start len := by rw [s.isSome_hints]
  list := by rw [s.canonicalPath_mem_list_iff, and_iff_right rfl]
  delivers hexists := by
    obtain ⟨buffer, hbuffer⟩ := s.isCommitted_iff.1 hexists
    exact ⟨_, s.delivers_of_get? (h.open_of_isCommitted hexists) hbuffer⟩

end Store

namespace Session

/-- **All queries agree, on canonical keys**, in every state that a run from a new store reaches. -/
theorem queries_agree {address : Address} {capacity : UInt64} {granularity : UInt32} {store : Store}
    (h : Store.build address capacity granularity = .ok store) (actions : List Action) :
    ((start store).run actions).store.Canonical ∧ ∀ path, ((start store).run actions).store.Agree path := by
  have hstart : (start store).store.EndsEmpty := Store.endsEmpty_of_build h
  exact ⟨Store.canonical _, (endsEmpty_run hstart actions).agree⟩

/-- A file that was moved away from its companion, and a reservation, all by paths that are not canonical. -/
theorem queries_agree_other_spellings :
    ∃ (store : Store) (actions : List Action), Store.ofCapacity 1000 512 = .ok store ∧
      actions = [.store (.put "ramfs://local/dir//f" [97, 98, 99]), .store (.rename "dir/./f" "dir/../g"),
        .store (.reserve "h/" 5)] ∧
      (((start store).run actions).store.Canonical ∧ ∀ path, ((start store).run actions).store.Agree path) ∧
      ((start store).run actions).store.reserved.keys.map Key.text = ["/.h.crc", "/h"] ∧
      (((start store).run actions).store.list fun _ => true) = ["/dir/.f.crc", "/g"] ∧
      ∃ r, ((start store).run actions).store.Delivers "x/../g" r := by
  have hbuild : Store.build Address.default 1000 512 = .ok _ := rfl
  have hagree := queries_agree hbuild [.store (.put "ramfs://local/dir//f" [97, 98, 99]),
    .store (.rename "dir/./f" "dir/../g"), .store (.reserve "h/" 5)]
  refine ⟨_, _, hbuild, rfl, hagree, ?_, ?_, ?_⟩
  · decide +kernel
  · decide +kernel
  · exact (hagree.2 "x/../g").delivers (by decide +kernel)

end Session
end BoundedStore
