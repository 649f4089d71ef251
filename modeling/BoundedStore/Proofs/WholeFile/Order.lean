import BoundedStore.Proofs.WholeFile.Put
import Mathlib.Algebra.Ring.Nat

/-!
# Calls in any order

A call that takes space, `reserve` or `put`, changes the two tables under its own two keys only, and what it leaves
there depends on nothing else. So calls whose keys are apart may be made in any order.

* `Request`, `Store.serve`, `Store.serveAll` : such calls, one and then several;
* `serve_iff` : when a call succeeds, `Served` : what it does then, `under_serve_congr` : what it leaves;
* `serveAll_iff` : all calls succeed if their claims together fit;
* `ServedAll` : each call leaves what it would leave if it were the only one;
* `order_independent` : neither depends on the order.
-/

namespace BoundedStore

/-- A call that takes space for a file and for its companion. -/
inductive Request where
  | reserve (path : String) (size : UInt64)
  | put (path : String) (data : Bytes)

namespace Request

def path : Request → String
  | reserve path _ | put path _ => path

def key (r : Request) : Key := Key.ofPath r.path

/-- The keys of the file and of its companion. -/
def keys (r : Request) : List Key := [r.key, r.key.companion]

theorem key_mem_keys (r : Request) : r.key ∈ r.keys := List.mem_cons_self

theorem ne_of_notMem_keys {r : Request} {k : Key} (h : k ∉ r.keys) : k ≠ r.key ∧ k ≠ r.key.companion := by
  simpa [keys] using h

/-- No file or companion of one call is a file or companion of the other. -/
def Apart (r q : Request) : Prop := ∀ k ∈ r.keys, k ∉ q.keys

instance (r q : Request) : Decidable (r.Apart q) := inferInstanceAs (Decidable (∀ k ∈ r.keys, k ∉ q.keys))

theorem Apart.symm {r q : Request} (h : r.Apart q) : q.Apart r := fun k hq hr => h k hr hq

/-- The number of bytes of the file. -/
def length : Request → Nat
  | reserve _ size => size.toNat
  | put _ data => data.length

/-- The size that buffers are asked for. -/
def size : Request → UInt64
  | reserve _ size => size
  | put _ data => Bytes.size data

/-- What is claimed: the bytes of the file and of its companion. -/
def claim (g : Granularity) (r : Request) : Nat :=
  r.length + 4 * ((r.length + g.bytes.toNat - 1) / g.bytes.toNat) + 8

/-- There is memory for both buffers. -/
def Grantable (g : Granularity) (r : Request) : Prop :=
  (∃ data, Buffer.allocate r.size = .ok data) ∧ ∃ sums, Buffer.allocate (g.companionSize r.size) = .ok sums

instance (g : Granularity) (r : Request) : Decidable (r.Grantable g) :=
  decidable_of_iff _ (and_congr Buffer.exists_allocate_iff Buffer.exists_allocate_iff).symm

/-- Neither count is held at its largest value if there is memory for both. -/
theorem Grantable.footprint_eq_claim {g : Granularity} {r : Request} (h : r.Grantable g) :
    g.footprint r.size = r.claim g := by
  have hdata := Buffer.exists_allocate_iff.1 h.1
  have hsums := Buffer.exists_allocate_iff.1 h.2
  have hlength : r.size.toNat = r.length := by
    cases r with
    | reserve => rfl
    | put path data =>
      have hsize := Bytes.toNat_size_eq_min data
      simp only [size, length] at hdata ⊢
      omega
  rw [Granularity.toNat_companionSize, hlength] at hsums
  rw [Granularity.footprint, claim, Granularity.toNat_companionSize, hlength]
  omega

end Request

namespace Store

variable (s : Store)

/-- Whether the call succeeds, and the store after it. -/
def serve : Request → Bool × Store
  | .reserve path size => s.reserve path size
  | .put path data =>
    match s.put path data with
    | (.ok stored, after) => (stored, after)
    | (.error _, after) => (false, after)

/-- Whether all calls succeed, made one after the other, and the store after them. -/
def serveAll : Store → List Request → Bool × Store
  | s, [] => (true, s)
  | s, r :: rs => ((s.serve r).1 && ((s.serve r).2.serveAll rs).1, ((s.serve r).2.serveAll rs).2)

/-- A file that is to be put is not there yet. -/
def IsNew : Request → Prop
  | .reserve .. => True
  | .put path _ => s.isCommitted path = false

instance : (r : Request) → Decidable (s.IsNew r)
  | .reserve .. => isTrue trivial
  | .put path _ => inferInstanceAs (Decidable (s.isCommitted path = false))

/-- What is reserved and what is published under a key. -/
def under (k : Key) : Option Buffer × Option Buffer := (s.reserved.get? k, s.committed.get? k)

theorem IsNew.of_under {s t : Store} {r : Request} (h : s.IsNew r) (hunder : t.under r.key = s.under r.key) :
    t.IsNew r := by
  cases r with
  | reserve => trivial
  | put path data =>
    have hnone := Table.contains_eq_false_iff.1 (show s.committed.contains (Key.ofPath path) = false from h)
    exact Table.contains_eq_false_iff.2 ((congrArg Prod.snd hunder).trans hnone)

/-! ## One call -/

theorem fst_serve {r : Request} (h : s.IsNew r) : (s.serve r).1 = (s.reserve r.path r.size).1 := by
  cases r with
  | reserve => rfl
  | put path data =>
    have hfree : s.isCommitted path = false := h
    have hput := s.fst_put path data
    rw [hfree, if_neg (by decide)] at hput
    rw [serve]
    split
    · next heq =>
      rw [heq] at hput
      exact Except.ok.inj hput
    · next heq =>
      rw [heq] at hput
      cases hput

theorem isNew_of_serve {r : Request} (h : (s.serve r).1 = true) : s.IsNew r := by
  cases r with
  | reserve => trivial
  | put path data =>
    rcases s.put_cases path data with ⟨-, hput⟩ | ⟨hnew, -⟩ | ⟨file, sums, hnew, -⟩
    · rw [serve, hput] at h
      cases h
    · exact hnew
    · exact hnew

/-- **When a call succeeds.** -/
theorem serve_iff {r : Request} :
    (s.serve r).1 = true ↔ s.closed = false ∧ s.IsNew r ∧ r.Grantable s.granularity ∧
      s.used.toNat + r.claim s.granularity < s.capacity.toNat := by
  constructor
  · intro h
    have hnew := s.isNew_of_serve h
    rw [s.fst_serve hnew] at h
    rcases s.reserve_cases r.path r.size with hrefused | ⟨data, sums, hdata, hsums, hopen, hfits, -⟩
    · rw [hrefused] at h
      cases h
    · have hgrant : r.Grantable s.granularity := ⟨⟨data, hdata⟩, ⟨sums, hsums⟩⟩
      rw [hgrant.footprint_eq_claim] at hfits
      exact ⟨hopen, hnew, hgrant, hfits⟩
  · rintro ⟨hopen, hnew, hgrant, hfits⟩
    rw [← hgrant.footprint_eq_claim] at hfits
    obtain ⟨⟨data, hdata⟩, ⟨sums, hsums⟩⟩ := hgrant
    rw [s.fst_serve hnew, s.reserve_of_room r.path hdata hsums hopen hfits]

/-- A reservation that succeeds is granted two buffers of zeros. -/
theorem serve_reserve {path : String} {size : UInt64} (h : (s.serve (.reserve path size)).1 = true) :
    ∃ data sums, Buffer.allocate size = .ok data ∧ Buffer.allocate (s.granularity.companionSize size) = .ok sums ∧
      s.serve (.reserve path size) = (true, s.granted (Key.ofPath path) size data sums) := by
  rcases s.reserve_cases path size with hrefused | ⟨data, sums, hdata, hsums, -, -, hgrant⟩
  · rw [serve, hrefused] at h
    cases h
  · exact ⟨data, sums, hdata, hsums, hgrant⟩

/-- A `put` that succeeds stores the data and its companion. -/
theorem serve_put {path : String} {data : Bytes} (h : (s.serve (.put path data)).1 = true) :
    ∃ file sums : Buffer, file.bytes = data ∧ sums.bytes = Companion.encode s.granularity data ∧
      s.serve (.put path data) = (true, s.stored (Key.ofPath path) data file sums) := by
  rcases s.put_cases path data with ⟨-, hput⟩ | ⟨-, -, hput⟩ | ⟨file, sums, -, -, -, -, hfile, hsums, -, hput⟩
  · rw [serve, hput] at h
    cases h
  · rw [serve, hput] at h
    cases h
  · exact ⟨file, sums, hfile, hsums, by rw [serve, hput]⟩

theorem under_granted (key : Key) (size : UInt64) (data sums : Buffer) (k : Key) :
    (s.granted key size data sums).under k =
      if k = key then (some data, s.committed.get? k)
      else if k = key.companion then (some sums, s.committed.get? k)
      else s.under k := by
  rw [under, get?_reserved_granted, committed_granted]
  split
  · rfl
  · split <;> rfl

theorem under_stored (key : Key) (data : Bytes) (file sums : Buffer) (k : Key) :
    (s.stored key data file sums).under k =
      if k = key then (none, some file)
      else if k = key.companion then (none, some sums)
      else s.under k := by
  rw [under]
  split
  · next h => rw [h, reserved_stored_self, get?_stored_self]
  · next h =>
    split
    · next hcompanion => rw [hcompanion, reserved_stored_companion, get?_stored_companion]
    · next hcompanion =>
      rw [reserved_stored, Table.get?_erase_of_ne _ hcompanion, Table.get?_erase_of_ne _ h,
        get?_stored_of_ne _ _ _ _ _ h hcompanion, under]

/-- What a call does that succeeds. -/
structure Served (r : Request) (after : Store) : Prop where
  address : after.address = s.address
  granularity : after.granularity = s.granularity
  closed : after.closed = s.closed
  capacity : after.capacity = s.capacity
  used : after.used.toNat = s.used.toNat + r.claim s.granularity
  /-- Nothing happens under other keys than those of the file and of its companion. -/
  elsewhere : ∀ k ∉ r.keys, after.under k = s.under k

theorem served_serve {r : Request} (h : (s.serve r).1 = true) : s.Served r (s.serve r).2 := by
  obtain ⟨-, -, hgrantable, hfits⟩ := s.serve_iff.1 h
  rw [← hgrantable.footprint_eq_claim] at hfits
  cases r with
  | reserve path size =>
    obtain ⟨data, sums, -, -, hgrant⟩ := s.serve_reserve h
    rw [hgrant]
    constructor
    · simp only [granted]
    · rw [granularity_granted]
    · rw [closed_granted]
    · rw [capacity_granted]
    · rw [← hgrantable.footprint_eq_claim]
      exact s.used_granted hfits _ _ _
    · intro k hk
      obtain ⟨hkey, hcompanion⟩ := Request.ne_of_notMem_keys hk
      exact (s.under_granted _ _ _ _ k).trans ((if_neg hkey).trans (if_neg hcompanion))
  | put path data =>
    obtain ⟨file, sums, -, -, hput⟩ := s.serve_put h
    rw [hput]
    constructor
    · simp only [stored]
    · rw [granularity_stored]
    · rw [closed_stored]
    · rw [capacity_stored]
    · rw [← hgrantable.footprint_eq_claim]
      exact s.used_stored _ _ _ _ hfits
    · intro k hk
      obtain ⟨hkey, hcompanion⟩ := Request.ne_of_notMem_keys hk
      exact (s.under_stored _ _ _ _ k).trans ((if_neg hkey).trans (if_neg hcompanion))

/-- What a call leaves under a key depends on what lay there, and on nothing else that is in the tables. -/
theorem under_serve_congr {s t : Store} {r : Request} (hs : (s.serve r).1 = true) (ht : (t.serve r).1 = true)
    (hgranularity : t.granularity = s.granularity) {k : Key} (hunder : t.under k = s.under k) :
    (t.serve r).2.under k = (s.serve r).2.under k := by
  have hcommitted : t.committed.get? k = s.committed.get? k := congrArg Prod.snd hunder
  cases r with
  | reserve path size =>
    obtain ⟨data, sums, hdata, hsums, hgrant⟩ := s.serve_reserve hs
    obtain ⟨data', sums', hdata', hsums', hgrant'⟩ := t.serve_reserve ht
    rw [hgranularity] at hsums'
    cases hdata.symm.trans hdata'
    cases hsums.symm.trans hsums'
    rw [hgrant, hgrant', under_granted, under_granted, hcommitted, hunder]
  | put path data =>
    obtain ⟨file, sums, hfile, hsums, hput⟩ := s.serve_put hs
    obtain ⟨file', sums', hfile', hsums', hput'⟩ := t.serve_put ht
    rw [hgranularity] at hsums'
    cases Buffer.eq_of_bytes_eq (hfile.trans hfile'.symm)
    cases Buffer.eq_of_bytes_eq (hsums.trans hsums'.symm)
    rw [hput, hput', under_stored, under_stored, hunder]

/-! ## Calls one after the other -/

/-- Stores are equal if their settings, the space in use and what lies under every key are. -/
theorem eq_of_under {s t : Store} (haddress : t.address = s.address) (hgranularity : t.granularity = s.granularity)
    (hclosed : t.closed = s.closed) (hcapacity : t.capacity = s.capacity) (hused : t.used.toNat = s.used.toNat)
    (hunder : ∀ k, t.under k = s.under k) : t = s := by
  have hreserved : t.reserved = s.reserved := Table.ext_get? fun k => congrArg Prod.fst (hunder k)
  have hcommitted : t.committed = s.committed := Table.ext_get? fun k => congrArg Prod.snd (hunder k)
  obtain ⟨_, _, ⟨_, _⟩, _, _, _⟩ := s
  obtain ⟨_, _, ⟨_, _⟩, _, _, _⟩ := t
  cases haddress
  cases hgranularity
  cases hclosed
  cases hcapacity
  cases hreserved
  cases hcommitted
  cases UInt64.toNat_inj.1 hused
  rfl

/-- What has been served does not stand in the way of a call whose keys are apart. -/
theorem Served.isNew {s t : Store} {r q : Request} (h : s.Served r t) (hapart : r.Apart q) (hnew : s.IsNew q) :
    t.IsNew q :=
  hnew.of_under (h.elsewhere q.key fun hkey => hapart q.key hkey q.key_mem_keys)

/-- A call that succeeds after another one, whose keys are apart, would succeed without it. -/
theorem Served.serve_of_serve {s t : Store} {r q : Request} (h : s.Served r t) (hapart : r.Apart q)
    (hq : (t.serve q).1 = true) : (s.serve q).1 = true := by
  obtain ⟨hopen, hnew, hgrant, hfits⟩ := t.serve_iff.1 hq
  rw [h.closed] at hopen
  rw [h.granularity] at hgrant
  rw [h.granularity, h.capacity, h.used] at hfits
  have hunder := h.elsewhere q.key fun hkey => hapart q.key hkey q.key_mem_keys
  exact s.serve_iff.2 ⟨hopen, hnew.of_under hunder.symm, hgrant, by omega⟩

/-- **All calls succeed if and only if what they claim fits**; where there are no calls, none fails. -/
theorem serveAll_iff {s : Store} {requests : List Request} (hopen : s.closed = false)
    (hapart : requests.Pairwise Request.Apart) (hnew : ∀ r ∈ requests, s.IsNew r)
    (hgrant : ∀ r ∈ requests, r.Grantable s.granularity) :
    (s.serveAll requests).1 = true ↔
      requests = [] ∨ s.used.toNat + (requests.map (Request.claim s.granularity)).sum < s.capacity.toNat := by
  induction requests generalizing s with
  | nil => simp [serveAll]
  | cons r rest ih =>
    rw [List.pairwise_cons] at hapart
    rw [List.forall_mem_cons] at hnew hgrant
    have hserve : (s.serve r).1 = true ↔ s.used.toNat + r.claim s.granularity < s.capacity.toNat := by
      rw [serve_iff]
      exact ⟨fun h => h.2.2.2, fun h => ⟨hopen, hnew.1, hgrant.1, h⟩⟩
    rw [serveAll, Bool.and_eq_true, hserve, List.map_cons, List.sum_cons]
    by_cases hfits : s.used.toNat + r.claim s.granularity < s.capacity.toNat
    · have hserved := s.served_serve (hserve.2 hfits)
      have hrest := ih (hserved.closed.trans hopen) hapart.2 (fun q hq => hserved.isNew (hapart.1 q hq) (hnew.2 q hq))
        (fun q hq => hserved.granularity.symm ▸ hgrant.2 q hq)
      rw [hserved.used, hserved.capacity, hserved.granularity] at hrest
      rw [hrest]
      constructor
      · rintro ⟨-, rfl | hsum⟩
        · exact Or.inr hfits
        · exact Or.inr (by omega)
      · rintro (hnil | hsum)
        · cases hnil
        · exact ⟨hfits, Or.inr (by omega)⟩
    · constructor
      · rintro ⟨hroom, -⟩
        exact absurd hroom hfits
      · rintro (hnil | hsum)
        · cases hnil
        · omega

/-- What calls do that all succeed. -/
structure ServedAll (requests : List Request) (after : Store) : Prop where
  address : after.address = s.address
  granularity : after.granularity = s.granularity
  closed : after.closed = s.closed
  capacity : after.capacity = s.capacity
  used : after.used.toNat = s.used.toNat + (requests.map (Request.claim s.granularity)).sum
  elsewhere : ∀ k, (∀ r ∈ requests, k ∉ r.keys) → after.under k = s.under k
  /-- Each call leaves under its keys what it would leave there if it were the only one. -/
  alone : ∀ r ∈ requests, (s.serve r).1 = true ∧ ∀ k ∈ r.keys, after.under k = (s.serve r).2.under k

/-- **Calls whose keys are apart do not meet.** -/
theorem servedAll_serveAll {s : Store} {requests : List Request} (hapart : requests.Pairwise Request.Apart)
    (hall : (s.serveAll requests).1 = true) : s.ServedAll requests (s.serveAll requests).2 := by
  induction requests generalizing s with
  | nil =>
    exact ⟨rfl, rfl, rfl, rfl, rfl, fun _ _ => rfl, fun _ h => nomatch h⟩
  | cons r rest ih =>
    rw [List.pairwise_cons] at hapart
    rw [serveAll, Bool.and_eq_true] at hall
    rw [serveAll]
    obtain ⟨hserve, hrest⟩ := hall
    have hfirst := s.served_serve hserve
    have hafter := ih hapart.2 hrest
    constructor
    · exact hafter.address.trans hfirst.address
    · exact hafter.granularity.trans hfirst.granularity
    · exact hafter.closed.trans hfirst.closed
    · exact hafter.capacity.trans hfirst.capacity
    · rw [hafter.used, hfirst.used, hfirst.granularity, List.map_cons, List.sum_cons, Nat.add_assoc]
    · intro k hk
      rw [List.forall_mem_cons] at hk
      rw [hafter.elsewhere k hk.2, hfirst.elsewhere k hk.1]
    · rw [List.forall_mem_cons]
      constructor
      · exact ⟨hserve, fun k hk => hafter.elsewhere k fun q hq => hapart.1 q hq k hk⟩
      · intro q hq
        obtain ⟨hserveq, hunder⟩ := hafter.alone q hq
        have halone := hfirst.serve_of_serve (hapart.1 q hq) hserveq
        refine ⟨halone, fun k hk => (hunder k hk).trans ?_⟩
        have hsame := hfirst.elsewhere k fun hr => hapart.1 q hq k hr hk
        exact under_serve_congr halone hserveq hfirst.granularity hsame

theorem ServedAll.eq_of_perm {s t u : Store} {requests order : List Request} (ht : s.ServedAll requests t)
    (hu : s.ServedAll order u) (horder : order.Perm requests) : u = t := by
  apply eq_of_under
  · rw [hu.address, ht.address]
  · rw [hu.granularity, ht.granularity]
  · rw [hu.closed, ht.closed]
  · rw [hu.capacity, ht.capacity]
  · rw [hu.used, ht.used, (horder.map _).sum_nat]
  · intro k
    by_cases hk : ∃ r ∈ requests, k ∈ r.keys
    · obtain ⟨r, hr, hkey⟩ := hk
      rw [(ht.alone r hr).2 k hkey, (hu.alone r (horder.mem_iff.2 hr)).2 k hkey]
    · have hnone : ∀ r ∈ requests, k ∉ r.keys := fun r hr hkey => hk ⟨r, hr, hkey⟩
      rw [ht.elsewhere k hnone, hu.elsewhere k fun r hr => hnone r (horder.mem_iff.1 hr)]

/-- **Space may be taken in any order.** In an open store let calls be given whose keys are apart, for files that are
not there yet and for which there is memory. In every order all of them succeed if and only if their claims fit into the
store together (where there are no calls, none fails); and if they succeed, the store is the same after every order. -/
theorem order_independent {s : Store} {requests order : List Request} (hopen : s.closed = false)
    (hapart : requests.Pairwise Request.Apart) (hnew : ∀ r ∈ requests, s.IsNew r)
    (hgrant : ∀ r ∈ requests, r.Grantable s.granularity) (horder : order.Perm requests) :
    ((s.serveAll order).1 = true ↔
        requests = [] ∨ s.used.toNat + (requests.map (Request.claim s.granularity)).sum < s.capacity.toNat) ∧
      ((s.serveAll order).1 = true → (s.serveAll order).2 = (s.serveAll requests).2) := by
  have hapart' : order.Pairwise Request.Apart := (horder.pairwise_iff Request.Apart.symm).2 hapart
  have hiff := serveAll_iff hopen hapart' (fun r hr => hnew r (horder.mem_iff.1 hr))
    (fun r hr => hgrant r (horder.mem_iff.1 hr))
  have hnil : order = [] ↔ requests = [] := by rw [← List.length_eq_zero_iff, horder.length_eq, List.length_eq_zero_iff]
  rw [hnil, (horder.map _).sum_nat] at hiff
  refine ⟨hiff, fun hall => ?_⟩
  have hall' := (serveAll_iff hopen hapart hnew hgrant).2 (hiff.1 hall)
  exact (servedAll_serveAll hapart hall').eq_of_perm (servedAll_serveAll hapart' hall) horder

/-- Three calls that claim 13, 14 and 8 bytes and leave the one byte that is always left. -/
theorem order_independent_one_left :
    ∃ (store : Store) (requests order : List Request), Store.ofCapacity 36 512 = .ok store ∧
      requests = [.reserve "/a" 1, .put "/b" [1, 2], .reserve "x/../c" 0] ∧
      order = [.reserve "x/../c" 0, .reserve "/a" 1, .put "/b" [1, 2]] ∧
      (store.serveAll order).1 = true ∧ (store.serveAll order).2 = (store.serveAll requests).2 := by
  have hbuild : Store.ofCapacity 36 512 =
    .ok ⟨Address.default, ⟨512, by decide⟩, Ledger.empty 36, Table.empty, Table.empty, false⟩ := rfl
  have horder : List.Perm ([Request.reserve "x/../c" 0] ++ [.reserve "/a" 1, .put "/b" [1, 2]])
    ([.reserve "/a" 1, .put "/b" [1, 2]] ++ [.reserve "x/../c" 0]) := List.perm_append_comm
  obtain ⟨hiff, hsame⟩ := @order_independent
    ⟨Address.default, ⟨512, by decide⟩, Ledger.empty 36, Table.empty, Table.empty, false⟩ _ _ rfl
    (by decide +kernel) (by decide +kernel) (by decide +kernel) horder
  have hall := hiff.2 (Or.inr (by decide +kernel))
  exact ⟨_, _, _, hbuild, rfl, rfl, hall, hsame hall⟩

end Store
end BoundedStore
