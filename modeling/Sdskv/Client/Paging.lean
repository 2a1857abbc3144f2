import Sdskv.Client.ListKeys
import Sdskv.Container.Scan

/-!
# Paging through a map database

A client lists a map database page by page: the start key of the next page is the last key of
the page before, and a page with fewer items than it asked for is the last one. Each page is a
call of `sdskv_list_keys` or `sdskv_list_keyvals` with as many buffers as the page has items.
Other clients put and erase keys before, between and after the calls. A call that fails, such as
a listing of keys that do not fit into the buffers, is no page, and the client calls again.

The pages are a scan of a changing ordered map, with the start key as the position. The empty
start key stands for the beginning, which is why no stored key may be empty: a page that ends in
the empty key sends the client back, for ever if the page has one item.
-/

namespace Sdskv

/-- A listing call of the client: the return value and the items that it finds in its buffers
when the call succeeds; `none` is a call that does not return, or a read outside of an array. -/
structure ListCall (σ B α : Type) where
  call : σ → Bulk → B → Option (Int × List α)
  size : B → ℕ
  key : α → Bulk

/-- The keys that the client reads in its buffers. -/
def ListKeysResult.items (r : ListKeysResult) : Option (List Bulk) :=
  (List.range r.maxKeys).mapM fun i => do
    let buffer ← r.keys[i]?
    let ksize ← r.ksizes[i]?
    some ((buffer.getD []).take ksize)

/-- The pairs that the client reads in its buffers. -/
def ListKeyvalsResult.items (r : ListKeyvalsResult) : Option (List (Bulk × Bulk)) :=
  (List.range r.maxKeys).mapM fun i => do
    let key ← r.keys[i]?
    let ksize ← r.ksizes[i]?
    let value ← r.values[i]?
    let vsize ← r.vsizes[i]?
    some (key.take ksize, value.take vsize)

section Calls

variable {less : Option ComparatorFn} [IsStrictWeakOrder Bulk (keycmp less)]
  {noOverwrite : Bool} (calls : ListKeysCalls) (dbs : Databases (MapState less noOverwrite))
  (dbId : UInt64)

/-- The map backend on its well-formed states. -/
def mapStateListKeys (less : Option ComparatorFn) (noOverwrite : Bool) :
    ListKeysMethod (MapState less noOverwrite) where
  listKeys s := mapListKeys.listKeys s.1
  listKeys_take h := mapListKeys.listKeys_take h

/-- `sdskv_list_keys` on the provider whose database `dbId` is as it is at the call. -/
def listKeys : ListCall (MapState less noOverwrite) KeySlots Bulk where
  call s startKey a := do
    let r ← sdskvListKeysWithPrefix (mapStateListKeys less noOverwrite) calls
      (Function.update dbs dbId (some s)) dbId startKey [] a
    if r.ret = SdskvReturn.success.code then r.items.map (r.ret, ·) else some (r.ret, [])
  size a := a.slots.length
  key := id

/-- `sdskv_list_keyvals`. -/
def listKeyvals : ListCall (MapState less noOverwrite) ListBuffers (Bulk × Bulk) where
  call s startKey b := do
    let r ← sdskvListKeyvalsWithPrefix (mapStore less noOverwrite) calls.toBulkCalls
      (Function.update dbs dbId (some s)) dbId startKey [] b
    if r.ret = SdskvReturn.success.code then r.items.map (r.ret, ·) else some (r.ret, [])
  size b := b.keys.length
  key := Prod.fst

end Calls

section Paging

/-- A client that pages through the database, with the pages it has read. The database as
it was when a page was read is kept next to the page. -/
structure PagingState (less : Option ComparatorFn) (noOverwrite : Bool) (α : Type) where
  store : MapState less noOverwrite
  startKey : Bulk
  pages : List (MapState less noOverwrite × List α)
  finished : Bool

variable {less : Option ComparatorFn} {noOverwrite : Bool} {B α : Type}

/-- The client calls for a page with its buffers, or another client puts or erases a key. -/
inductive PagingAction (B : Type)
  | put (key data : Bulk)
  | erase (key : Bulk)
  | page (buffers : B)

/-- Another client does not use the empty key. -/
def PagingAction.KeyNotEmpty : PagingAction B → Prop
  | put key _ => key ≠ []
  | erase key => key ≠ []
  | page _ => True

/-- The client has not read a page yet. -/
def startPaging (α : Type) (store : MapState less noOverwrite) :
    PagingState less noOverwrite α :=
  { store := store, startKey := [], pages := [], finished := false }

/-- One action. A call that fails leaves the client where it was. -/
def pagingStep [IsStrictWeakOrder Bulk (keycmp less)]
    (L : ListCall (MapState less noOverwrite) B α) (count : ℕ)
    (s : PagingState less noOverwrite α) :
    PagingAction B → Option (PagingState less noOverwrite α)
  | .put key data => some { s with store := ((mapStore less noOverwrite).put s.store key data).2 }
  | .erase key => some { s with store := ((mapStore less noOverwrite).erase s.store key).2 }
  | .page buffers =>
      if s.finished = true ∨ L.size buffers ≠ count then none
      else do
        let (ret, batch) ← L.call s.store s.startKey buffers
        if ret = SdskvReturn.success.code then
          some
            { store := s.store
              startKey := (batch.getLast?.map L.key).getD s.startKey
              pages := s.pages ++ [(s.store, batch)]
              finished := decide (batch.length < count) }
        else some s

/-- The items that the client has read, in order. -/
def PagingState.items (s : PagingState less noOverwrite α) : List α := s.pages.flatMap Prod.snd

/-- The pages are right: the items increase strictly, each was bound when its page was
read, and after the last page a key that was present at every page has been read exactly
once; a key that was there from before the first page to after the last is one of these. A
key is present up to the equivalence of the order; if the very same key was stored at
every page, it is the one that was read. -/
structure PagesRight (key : α → Bulk) (bound : MapDataStore → α → Prop)
    (s : PagingState less noOverwrite α) : Prop where
  increasing : s.items.Pairwise fun x y => keycmp less (key x) (key y)
  wasBound : ∀ q ∈ s.pages, ∀ x ∈ q.2, bound q.1.1 x
  once : s.finished = true → ∀ k, (∀ q ∈ s.pages, q.1.1.exists k = true) →
    (s.items.filter fun x => decide (IncompRel (keycmp less) (key x) k)).length = 1
  onceKey : s.finished = true → ∀ k, (∀ q ∈ s.pages, k ∈ q.1.1.map.map Prod.fst) →
    (s.items.map key).count k = 1

/-- The buffers of a call fit. -/
def PagingAction.Fits (fits : MapState less noOverwrite → Bulk → B → Prop)
    (s : PagingState less noOverwrite α) : PagingAction B → Prop
  | .page b => fits s.store s.startKey b
  | _ => True

/-- The buffers hold the pairs that are listed from the start key on. -/
def PairsFitFrom (s : MapState less noOverwrite) (startKey : Bulk) (b : ListBuffers) : Prop :=
  ∀ listed, s.1.vlistKeyvals startKey b.keys.length [] = .pairs listed → PairsFit listed b

end Paging

section Pages

/-- The position of a scan that a start key stands for. -/
def position (startKey : Bulk) : Option Bulk :=
  if startKey = [] then none else some startKey

theorem page_eq_pageBeyond (lt : Bulk → Bulk → Prop) [DecidableRel lt]
    (m : List (Bulk × Bulk)) (startKey : Bulk) (count : ℕ) :
    page lt m startKey count [] = OrderedMap.pageBeyond lt (position startKey) count m := by
  by_cases hstart : startKey = []
  · simp [page, OrderedMap.pageBeyond, position, OrderedMap.Beyond, hstart]
  · simp [page, OrderedMap.pageBeyond, position, OrderedMap.Beyond, hstart]

/-- The last key of a page without empty keys is the next position. -/
theorem position_getLast {α : Type} {key : α → Bulk} {f : Bulk × Bulk → α}
    {P : List (Bulk × Bulk)} {startKey : Bulk} (hP : ∀ p ∈ P, p.1 ≠ [])
    (hf : ∀ p, key (f p) = p.1) :
    position (((P.map f).getLast?.map key).getD startKey) =
      OrderedMap.advance (position startKey) P := by
  rcases List.eq_nil_or_concat' P with rfl | ⟨init, z, rfl⟩
  · simp [OrderedMap.advance]
  · have hz : z.1 ≠ [] := hP z (by simp)
    simp [OrderedMap.advance, hf, position, hz]

end Pages

section Lists

variable {less : Option ComparatorFn} [IsStrictWeakOrder Bulk (keycmp less)]
  {noOverwrite : Bool} {B α : Type}

/-- Where the buffers fit, a call that succeeds lists, in the form `f`, the entries of a page of
the interface, and a call for fewer than `2 ^ 31` items returns. -/
structure ListCall.Lists (L : ListCall (MapState less noOverwrite) B α)
    (fits : MapState less noOverwrite → Bulk → B → Prop) (f : Bulk × Bulk → α) : Prop where
  batch_eq : ∀ s startKey b batch, fits s startKey b →
    L.call s startKey b = some (SdskvReturn.success.code, batch) →
    batch = (OrderedMap.pageBeyond (keycmp less) (position startKey) (L.size b) s.1.map).map f
  returns : ∀ s startKey b, fits s startKey b → L.size b < 2 ^ 31 →
    (L.call s startKey b).isSome
  key_eq : ∀ p, L.key (f p) = p.1

/-- Delivered keys are the items. -/
theorem items_of_delivered {listed : List Bulk} {r : ListKeysResult}
    (h : KeysDelivered listed r) : r.items = some listed := by
  have hread : ∀ (i : ℕ) (key : Bulk), listed[i]? = some key → ∃ x, (do
      let buffer ← r.keys[i]?
      let ksize ← r.ksizes[i]?
      some ((buffer.getD []).take ksize)) = some x ∧ id x = key := by
    intro i key hkey
    obtain ⟨hksize, buffer, hbuffer, hstart⟩ := h.keys i key hkey
    refine ⟨key, ?_, rfl⟩
    rw [hbuffer, hksize]
    exact congrArg some (List.prefix_iff_eq_take.1 hstart).symm
  obtain ⟨out, hout, hid⟩ := exists_mapM_range hread
  rw [List.map_id] at hid
  rw [ListKeysResult.items, h.count, hout, hid]

/-- A listing as documented, of pairs that fit, delivers the pairs. -/
theorem items_of_correct {listed : List (Bulk × Bulk)} {b : ListBuffers}
    {r : ListKeyvalsResult} (h : ListKeyvalsCorrect listed b r) (hfits : PairsFit listed b) :
    r.items = some listed := by
  have hread : ∀ (i : ℕ) (p : Bulk × Bulk), listed[i]? = some p → ∃ x, (do
      let key ← r.keys[i]?
      let ksize ← r.ksizes[i]?
      let value ← r.values[i]?
      let vsize ← r.vsizes[i]?
      some (key.take ksize, value.take vsize)) = some x ∧ id x = p := by
    intro i p hp
    obtain ⟨hksize, hvsize⟩ := h.sizes i p hp
    obtain ⟨⟨key, hkey, hkeyStart⟩, value, hvalue, hvalueStart⟩ := h.pairs hfits i p hp
    refine ⟨p, ?_, rfl⟩
    rw [hkey, hksize, hvalue, hvsize]
    exact congrArg some (Prod.ext (List.prefix_iff_eq_take.1 hkeyStart).symm
      (List.prefix_iff_eq_take.1 hvalueStart).symm)
  obtain ⟨out, hout, hid⟩ := exists_mapM_range hread
  rw [List.map_id] at hid
  rw [ListKeyvalsResult.items, h.count, hout, hid]

/-- Buffers whose number the counter of the client can hold are used, or taken for a request of
the sizes. -/
theorem KeySlots.usable_or_requesting {a : KeySlots} (hlt : a.slots.length < 2 ^ 31) :
    a.Usable ∨ a.Requesting := by
  by_contra hnot
  rw [not_or] at hnot
  obtain ⟨husable, hrequesting⟩ := hnot
  rw [Requesting, not_or] at hrequesting
  obtain ⟨hnull, hslots⟩ := hrequesting
  rw [List.take_of_length_le hlt.le] at hslots
  refine husable ⟨by simpa using hnull, hlt, fun slot hslot => ?_⟩
  rw [← Bool.not_eq_true]
  exact fun hsize => hslots ⟨slot, hslot, hsize⟩

/-- A call for fewer than `2 ^ 31` keys returns. -/
theorem exists_listKeysResult {σ : Type} {method : ListKeysMethod σ} {calls : ListKeysCalls}
    {dbs : Databases σ} {dbId : UInt64} {s : σ} {startKey keyPrefix : Bulk} {a : KeySlots}
    {keys listed : List Bulk} (hcalls : calls.Succeed) (hdb : dbs dbId = some s)
    (hlist : method.listKeys s startKey a.slots.length keyPrefix = some keys)
    (hlisted : keys.take a.slots.length = listed) (hlt : a.slots.length < 2 ^ 31) :
    ∃ r, sdskvListKeysWithPrefix method calls dbs dbId startKey keyPrefix a = some r := by
  have hside := KeySlots.usable_or_requesting hlt
  have hlt' : a.slots.length < 2 ^ 32 := by omega
  by_cases hexceeds : ItemExceeds listed (a.slots.map KeySlot.ksize)
  · exact ⟨_, sdskvListKeysWithPrefix_of_exceeds hcalls hdb hlist hlisted hside hlt' hexceeds⟩
  by_cases hnil : listed = []
  · subst hnil
    exact ⟨_, sdskvListKeysWithPrefix_of_nil hcalls hdb hlist hlisted hside⟩
  rcases hside with husable | hrequesting
  · exact ⟨_, sdskvListKeysWithPrefix_of_usable hcalls hdb hlist hlisted hnil husable hexceeds⟩
  · exact ⟨_, sdskvListKeysWithPrefix_of_requesting hcalls hdb hlist hlisted hnil hrequesting
      hlt' hexceeds⟩

variable {calls : ListKeysCalls} {dbs : Databases (MapState less noOverwrite)}
  {dbId : UInt64}

omit [IsStrictWeakOrder Bulk (keycmp less)] in
theorem take_pageBeyond (s : MapState less noOverwrite) (startKey : Bulk) (count : ℕ) :
    (OrderedMap.pageBeyond (keycmp less) (position startKey) count s.1.map).take count =
      OrderedMap.pageBeyond (keycmp less) (position startKey) count s.1.map :=
  List.take_of_length_le (OrderedMap.length_pageBeyond_le _ _ _)

/-- What the map database lists for the handler. -/
theorem mapStateListKeys_nil (s : MapState less noOverwrite) (startKey : Bulk) (count : ℕ) :
    ∃ keys, (mapStateListKeys less noOverwrite).listKeys s startKey count [] = some keys ∧
      keys.take count =
        (OrderedMap.pageBeyond (keycmp less) (position startKey) count s.1.map).map Prod.fst := by
  refine ⟨_, mapVlistKeys_nil s startKey count, ?_⟩
  rw [← map_fst_page, page_eq_pageBeyond, ← List.map_take, take_pageBeyond]

theorem listKeys_lists (hcalls : calls.Succeed) (hrefused : calls.refused ≠ hgSuccess) :
    (listKeys calls dbs dbId).Lists (fun _ _ _ => True) Prod.fst where
  batch_eq s startKey a batch _ hcall := by
    obtain ⟨keys, hlist, hlisted⟩ := mapStateListKeys_nil s startKey a.slots.length
    have hdb : Function.update dbs dbId (some s) dbId = some s := Function.update_self ..
    obtain ⟨r, hr, hcall⟩ := Option.bind_eq_some_iff.1 hcall
    split_ifs at hcall with hret
    · have hitems := items_of_delivered
        (delivered_of_success hcalls hrefused hdb hlist hlisted hr hret)
      rw [hitems, Option.map_some, Option.some.injEq, Prod.mk.injEq] at hcall
      exact hcall.2.symm
    · rw [Option.some.injEq, Prod.mk.injEq] at hcall
      exact absurd hcall.1 hret
  returns s startKey a _ hlt := by
    obtain ⟨keys, hlist, hlisted⟩ := mapStateListKeys_nil s startKey a.slots.length
    have hdb : Function.update dbs dbId (some s) dbId = some s := Function.update_self ..
    obtain ⟨r, hr⟩ := exists_listKeysResult hcalls hdb hlist hlisted hlt
    by_cases hret : r.ret = SdskvReturn.success.code
    · have hitems := items_of_delivered
        (delivered_of_success hcalls hrefused hdb hlist hlisted hr hret)
      simp [listKeys, hr, hret, hitems]
    · simp [listKeys, hr, hret]
  key_eq _ := rfl

theorem mapStore_listKeyvals_nil (s : MapState less noOverwrite) (startKey : Bulk)
    (count : ℕ) :
    (mapStore less noOverwrite).listKeyvals s startKey count [] =
      .pairs (OrderedMap.pageBeyond (keycmp less) (position startKey) count s.1.map) := by
  rw [mapStore_listsPrefix_nil less noOverwrite s startKey count, page_eq_pageBeyond]
  rfl

theorem listKeyvals_lists (hcalls : calls.Succeed) :
    (listKeyvals calls dbs dbId).Lists PairsFitFrom id where
  batch_eq s startKey b batch hfits hcall := by
    have hlist := mapStore_listKeyvals_nil s startKey b.keys.length
    have hfit := hfits _ hlist
    have htake := take_pageBeyond s startKey b.keys.length
    have hdb : Function.update dbs dbId (some s) dbId = some s := Function.update_self ..
    obtain ⟨r, hr, hcall⟩ := Option.bind_eq_some_iff.1 hcall
    -- the call has come to an end, so the counter of the handler can hold the number of buffers
    have hanswer := hr
    rw [sdskvListKeyvalsWithPrefix_of_pairs hcalls.1 hdb hlist, Option.map_eq_some_iff] at hanswer
    obtain ⟨answer, hanswer, -⟩ := hanswer
    obtain ⟨r', hr', hcorrect⟩ := listKeyvalsCorrect_of_fits hcalls.1 hdb hlist htake hfit
      (htake ▸ lt_of_listKeyvalsAnswer hanswer)
    cases hr.symm.trans hr'
    rw [if_pos (hcorrect.success hfit), items_of_correct hcorrect hfit, Option.map_some,
      Option.some.injEq, Prod.mk.injEq] at hcall
    rw [List.map_id]
    exact hcall.2.symm
  returns s startKey b hfits hlt := by
    have hlist := mapStore_listKeyvals_nil s startKey b.keys.length
    have hfit := hfits _ hlist
    have htake := take_pageBeyond s startKey b.keys.length
    have hdb : Function.update dbs dbId (some s) dbId = some s := Function.update_self ..
    have hsize : b.keys.length < 2 ^ 32 := lt_trans hlt (by decide)
    obtain ⟨r, hr, hcorrect⟩ := listKeyvalsCorrect_of_fits hcalls.1 hdb hlist htake hfit
      (Or.inr hsize)
    simp [listKeyvals, hr, hcorrect.success hfit, items_of_correct hcorrect hfit]
  key_eq _ := rfl

end Lists

section Invariant

variable {less : Option ComparatorFn} {noOverwrite : Bool} {B α : Type} {f : Bulk × Bulk → α}
  {count : ℕ}

/-- The pages read so far are a scan of the map, in the form `f`. -/
structure PagingInvariant (f : Bulk × Bulk → α) (count : ℕ)
    (s : PagingState less noOverwrite α)
    (scan : List (MapState less noOverwrite × List (Bulk × Bulk))) : Prop where
  keyNotEmpty : ∀ p ∈ s.store.1.map, p.1 ≠ []
  pages_eq : s.pages = scan.map (Prod.map id (List.map f))
  scanned : OrderedMap.Scanned (keycmp less) count (position s.startKey)
    (scan.map (Prod.map (fun t => t.1.map) id))
  complete : s.finished = true → ∀ k,
    (∀ q ∈ scan, ∃ p ∈ q.1.1.map, IncompRel (keycmp less) p.1 k) →
      ∃ p ∈ scan.flatMap Prod.snd, IncompRel (keycmp less) p.1 k

theorem MapState.sorted [IsStrictWeakOrder Bulk (keycmp less)]
    (s : MapState less noOverwrite) : OrderedMap.Sorted (keycmp less) s.1.map :=
  (mapStore_lawful less noOverwrite).sorted s

namespace PagingInvariant

variable {s : PagingState less noOverwrite α}
  {scan : List (MapState less noOverwrite × List (Bulk × Bulk))}

/-- The invariant does not depend on the database beyond its keys. -/
theorem setStore (h : PagingInvariant f count s scan) {store : MapState less noOverwrite}
    (hkey : ∀ p ∈ store.1.map, p.1 ≠ []) :
    PagingInvariant f count { s with store := store } scan :=
  { h with keyNotEmpty := hkey }

variable [IsStrictWeakOrder Bulk (keycmp less)]

theorem put (h : PagingInvariant f count s scan) {key : Bulk} (hkey : key ≠ [])
    (data : Bulk) :
    PagingInvariant f count
      { s with store := ((mapStore less noOverwrite).put s.store key data).2 } scan := by
  apply h.setStore
  intro p hp
  simp only [mapStore, MapDataStore.put_eq] at hp
  split_ifs at hp
  · exact h.keyNotEmpty p hp
  · rcases OrderedMap.mem_assign _ hp with rfl | hp | ⟨r, hr, hk⟩
    · exact hkey
    · exact h.keyNotEmpty p hp
    · simpa [hk] using h.keyNotEmpty r hr

theorem erase (h : PagingInvariant f count s scan) (key : Bulk) :
    PagingInvariant f count
      { s with store := ((mapStore less noOverwrite).erase s.store key).2 } scan := by
  apply h.setStore
  intro p hp
  exact h.keyNotEmpty p (List.mem_of_mem_filter hp)

/-- A page is the next page of the scan. -/
theorem page (h : PagingInvariant f count s scan) (hcount : 1 ≤ count) {key : α → Bulk}
    (hkey_eq : ∀ p, key (f p) = p.1) {P : List (Bulk × Bulk)}
    (hP : P = OrderedMap.pageBeyond (keycmp less) (position s.startKey) count s.store.1.map) :
    PagingInvariant f count
      { store := s.store
        startKey := ((P.map f).getLast?.map key).getD s.startKey
        pages := s.pages ++ [(s.store, P.map f)]
        finished := decide ((P.map f).length < count) } (scan ++ [(s.store, P)]) := by
  have hkey : ∀ p ∈ P, p.1 ≠ [] := by
    rw [hP]
    exact fun p hp => h.keyNotEmpty p ((OrderedMap.pageBeyond_sublist _ _ _).subset hp)
  have hscan : (scan ++ [(s.store, P)]).map (Prod.map (fun t => t.1.map) id) =
      scan.map (Prod.map (fun t => t.1.map) id) ++ [(s.store.1.map, P)] := by simp
  refine ⟨h.keyNotEmpty, ?_, ?_, ?_⟩
  · simp [h.pages_eq]
  · rw [hscan, position_getLast hkey hkey_eq, hP]
    exact h.scanned.snoc s.store.sorted
  · intro hshort k hk
    have hlength : P.length < count := by simpa using hshort
    have hall : ∀ q ∈ scan.map (Prod.map (fun t => t.1.map) id) ++ [(s.store.1.map, P)],
        ∃ p ∈ q.1, IncompRel (keycmp less) p.1 k := by
      rw [← hscan, List.forall_mem_map]
      exact hk
    rw [hP] at hall hlength
    have hcovers := h.scanned.covers_of_short hcount hlength hall
    rwa [← hP, ← hscan, List.flatMap_map] at hcovers

omit [IsStrictWeakOrder Bulk (keycmp less)] in
/-- The items are the entries of the scan. -/
theorem items_eq (h : PagingInvariant f count s scan) :
    s.items = (scan.flatMap Prod.snd).map f := by
  rw [PagingState.items, h.pages_eq, List.flatMap_map, List.map_flatMap]
  rfl

omit [IsStrictWeakOrder Bulk (keycmp less)] in
theorem page_sublist (h : PagingInvariant f count s scan)
    {q : MapState less noOverwrite × List (Bulk × Bulk)} (hq : q ∈ scan) :
    OrderedMap.Sorted (keycmp less) q.1.1.map ∧ q.2.Sublist q.1.1.map :=
  h.scanned.page_sublist (q.1.1.map, q.2) (List.mem_map.2 ⟨q, hq, rfl⟩)

theorem sorted (h : PagingInvariant f count s scan) :
    OrderedMap.Sorted (keycmp less) (scan.flatMap Prod.snd) := by
  have hsorted := h.scanned.sorted
  rwa [List.flatMap_map] at hsorted

/-- After the last page, a key that was stored at every page has been read. -/
theorem mem_keys (h : PagingInvariant f count s scan) (hfinished : s.finished = true)
    {k : Bulk} (hk : ∀ q ∈ scan, k ∈ q.1.1.map.map Prod.fst) :
    k ∈ (scan.flatMap Prod.snd).map Prod.fst := by
  have hstored : ∀ q ∈ scan, ∃ r ∈ q.1.1.map, r.1 = k := fun q hq => List.mem_map.1 (hk q hq)
  have hpresent : ∀ q ∈ scan, ∃ p ∈ q.1.1.map, IncompRel (keycmp less) p.1 k := by
    intro q hq
    obtain ⟨r, hr, rfl⟩ := hstored q hq
    exact ⟨r, hr, IncompRel.refl (keycmp less) r.1⟩
  obtain ⟨p, hp, hpk⟩ := h.complete hfinished k hpresent
  obtain ⟨q, hq, hpq⟩ := List.mem_flatMap.1 hp
  obtain ⟨hsorted, hsub⟩ := h.page_sublist hq
  obtain ⟨r, hr, rfl⟩ := hstored q hq
  -- the entry that was read and the entry with the key `k` are in one sorted map
  have heq : p = r := OrderedMap.eq_of_incompRel (keycmp less) hsorted (hsub.subset hpq) hr hpk
  exact List.mem_map.2 ⟨p, hp, by rw [heq]⟩

/-- What the invariant says about the pages. -/
theorem pagesRight (h : PagingInvariant f count s scan) {key : α → Bulk}
    (hkey_eq : ∀ p, key (f p) = p.1) {bound : MapDataStore → α → Prop}
    (hbound : ∀ store : MapState less noOverwrite, ∀ p ∈ store.1.map, bound store.1 (f p)) :
    PagesRight key bound s := by
  constructor
  case increasing =>
    rw [h.items_eq, List.pairwise_map]
    simp only [hkey_eq]
    exact h.sorted
  case wasBound =>
    rw [h.pages_eq, List.forall_mem_map]
    intro q hq x hx
    obtain ⟨p, hp, rfl⟩ := List.mem_map.1 hx
    exact hbound q.1 p ((h.page_sublist hq).2.subset hp)
  case once =>
    intro hfinished k hk
    rw [h.pages_eq, List.forall_mem_map] at hk
    have hpresent : ∀ q ∈ scan, ∃ p ∈ q.1.1.map, IncompRel (keycmp less) p.1 k := by
      intro q hq
      have hexists := (MapDataStore.exists_iff q.1.1 k).1 (hk q hq)
      rwa [q.1.2.1] at hexists
    rw [h.items_eq, List.filter_map, List.length_map]
    simp only [Function.comp_def, hkey_eq]
    exact OrderedMap.length_filter_incompRel h.sorted (h.complete hfinished k hpresent)
  case onceKey =>
    intro hfinished k hk
    rw [h.pages_eq, List.forall_mem_map] at hk
    have hkeys : s.items.map key = (scan.flatMap Prod.snd).map Prod.fst := by
      rw [h.items_eq, List.map_map]
      exact List.map_congr_left fun p _ => hkey_eq p
    have hnodup : ((scan.flatMap Prod.snd).map Prod.fst).Nodup :=
      OrderedMap.nodup_keys_of_sorted (keycmp less) h.sorted
    rw [hkeys]
    exact List.count_eq_one_of_mem hnodup (h.mem_keys hfinished hk)

end PagingInvariant

section Runs

variable [IsStrictWeakOrder Bulk (keycmp less)] {L : ListCall (MapState less noOverwrite) B α}
  {fits : MapState less noOverwrite → Bulk → B → Prop}

theorem pagingInvariant_step (hlists : L.Lists fits f) (hcount : 1 ≤ count)
    {s s' : PagingState less noOverwrite α} {a : PagingAction B}
    (h : ∃ scan, PagingInvariant f count s scan) (ha : a.KeyNotEmpty ∧ a.Fits fits s)
    (hstep : pagingStep L count s a = some s') : ∃ scan, PagingInvariant f count s' scan := by
  obtain ⟨scan, h⟩ := h
  cases a with
  | put key data =>
      cases hstep
      exact ⟨scan, h.put ha.1 data⟩
  | erase key =>
      cases hstep
      exact ⟨scan, h.erase key⟩
  | page b =>
      rw [pagingStep] at hstep
      split_ifs at hstep with hstop
      rw [not_or, not_not] at hstop
      obtain ⟨⟨ret, batch⟩, hcall, hstep⟩ := Option.bind_eq_some_iff.1 hstep
      by_cases hret : ret = SdskvReturn.success.code
      · subst hret
        have hbatch := hlists.batch_eq _ _ _ _ ha.2 hcall
        rw [hstop.2] at hbatch
        simp only [if_true, Option.some.injEq] at hstep
        rw [← hstep, hbatch]
        exact ⟨_, h.page hcount hlists.key_eq rfl⟩
      · simp only [if_neg hret, Option.some.injEq] at hstep
        exact ⟨scan, hstep ▸ h⟩

omit [IsStrictWeakOrder Bulk (keycmp less)] in
theorem pagingInvariant_start (f : Bulk × Bulk → α) (count : ℕ)
    {store : MapState less noOverwrite} (hstore : ∀ p ∈ store.1.map, p.1 ≠ []) :
    PagingInvariant f count (startPaging α store) [] where
  keyNotEmpty := hstore
  pages_eq := rfl
  scanned := OrderedMap.Scanned.nil
  complete := by simp [startPaging]

/-- As long as the client has not finished, its call for the next page returns. -/
theorem page_isSome (hlists : L.Lists fits f) (hlt : count < 2 ^ 31)
    {s : PagingState less noOverwrite α} (hfinished : s.finished = false) {b : B}
    (hsize : L.size b = count) (hfits : fits s.store s.startKey b) :
    (pagingStep L count s (.page b)).isSome := by
  obtain ⟨r, hr⟩ := Option.isSome_iff_exists.1
    (hlists.returns s.store s.startKey b hfits (hsize ▸ hlt))
  rw [pagingStep, if_neg (by simp [hfinished, hsize]), hr]
  dsimp only [Option.bind_eq_bind, Option.bind_some]
  split_ifs <;> rfl

/-- The pages of every run are a scan. -/
theorem pagingInvariant_of_run (hlists : L.Lists fits f) (hcount : 1 ≤ count)
    {store : MapState less noOverwrite} (hstore : ∀ p ∈ store.1.map, p.1 ≠ [])
    {as : List (PagingAction B)}
    (has : Transition.holdsAlong (pagingStep L count)
      (fun s a => a.KeyNotEmpty ∧ a.Fits fits s) (startPaging α store) as)
    {s : PagingState less noOverwrite α}
    (hrun : Transition.run? (pagingStep L count) (startPaging α store) as = some s) :
    ∃ scan, PagingInvariant f count s scan := by
  apply Transition.invariant_of_run _ _ has hrun
  · intro s a s' h ha hstep
    exact pagingInvariant_step hlists hcount h ha hstep
  · exact ⟨[], pagingInvariant_start f count hstore⟩

end Runs

end Invariant

section Main

variable {less : Option ComparatorFn} [IsStrictWeakOrder Bulk (keycmp less)]
  {noOverwrite : Bool} {calls : ListKeysCalls}

/-- A buffer of two bytes for the only key of a page. -/
def oneSlot : KeySlots := KeySlots.ofBuffers [[0, 0]] (by decide)

/-- The paging client of an example, on a provider with one database. -/
def pageOneKey : PagingState none false Bulk → PagingAction KeySlots →
    Option (PagingState none false Bulk) :=
  pagingStep (listKeys .succeeding (fun _ => none) 5) 1

/-- Another client erases the start key of the second page and puts a key behind it. The first
call has a buffer that is too small, so that it only reports the size of the key. -/
def erasedStartKey : List (PagingAction KeySlots) :=
  [.page oneByteSlot, .page oneSlot, .erase [1, 2], .put [3] [], .page oneSlot, .page oneSlot]

/-- With pages of one key, a stored empty key is the last key of the first page, and the client
starts again from the beginning. -/
theorem paging_emptyKey (n : ℕ) :
    Transition.run? pageOneKey (startPaging Bulk emptyAndByteKey)
        (List.replicate n (.page oneSlot)) =
      some
        { store := emptyAndByteKey
          startKey := []
          pages := List.replicate n (emptyAndByteKey, [[]])
          finished := false } := by
  have hpage : ∀ pages, pageOneKey
        { store := emptyAndByteKey, startKey := [], pages := pages, finished := false }
        (.page oneSlot) =
      some
        { store := emptyAndByteKey
          startKey := []
          pages := pages ++ [(emptyAndByteKey, [[]])]
          finished := false } := fun _ => rfl
  induction n with
  | zero => rfl
  | succ n ih =>
      rw [List.replicate_succ', Transition.run?_append, ih]
      simp [Transition.run?_cons, hpage, List.replicate_succ']

end Main

end Sdskv
