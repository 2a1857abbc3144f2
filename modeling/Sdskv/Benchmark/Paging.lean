import Sdskv.Benchmark.Batches
import Sdskv.Client.ProviderHandle
import Sdskv.Container.Countdown
import Sdskv.Datastore.PrefixScan
import Sdskv.Rpc.ListKeys

/-!
# The paging loops of the benchmark

`ListKeysBenchmark::execute` and `ListKeyValsBenchmark::execute` list a database by pages and
count down the number of generated entries by the number of keys that each page returns. The
number of keys in the database is smaller when a key was generated twice, and then an empty
page changes nothing.

The loop is written for any listing call. The calls are those of the client and of the handler
on one of the three backends, with buffers of the largest key and value size.
-/

namespace Sdskv

open Wire
open Loop (Run forLoop whileLoop)

section Loops

variable {β : Type}

/-- What a listing call leaves: the return value, the number of keys, the array of the key sizes
and the buffers of the batch. -/
structure PageResult (β : Type) where
  ret : Int
  count : ℕ
  ksizes : List ℕ
  buffers : List β

/-- The variables of `execute`, the vector of buffers, and the code of the exception that has
left the loop. -/
structure ListingState (β : Type) where
  remaining : ℕ
  k : ℕ
  startKey : Bulk
  buffers : List β
  thrown : Option Int

/-- `remaining != 0`, in a loop that no exception has left. -/
def ListingState.more (s : ListingState β) : Bool := decide (s.remaining ≠ 0 ∧ s.thrown = none)

/-- The loop that takes the addresses and the sizes of the buffers from the position `k` on. -/
def takeBuffers (buffers : List β) (k count : ℕ) : Run (List β) :=
  forLoop 32 count (fun i slots => buffers[advance32 i k]?.map fun x => slots ++ [x]) []

/-- The buffers from the position `k` on as the call has left them. -/
def putBuffers (buffers : List β) (k : ℕ) (slots : List β) : List β :=
  slots.zipIdx.foldl (fun buffers x => buffers.set (advance32 x.2 k) x.1) buffers

/-- `std::string((const char*)m_kptrs[count - 1], m_ksizes[count - 1])`; `none` for a read
outside of the buffer. -/
def PageResult.lastKey (keyBytes : β → Bulk) (r : PageResult β) : Option Bulk :=
  r.buffers[r.count - 1]?.bind fun x => r.ksizes[r.count - 1]?.bind fun ksize =>
    if ksize ≤ (keyBytes x).length then some ((keyBytes x).take ksize) else none

/-- An iteration of `execute`. The call is `none` when it does not return. -/
def pagingBody (batchSize : ℕ) (reuseBuffer : Bool) (keyBytes : β → Bulk)
    (call : Bulk → List β → Option (PageResult β)) (s : ListingState β) : Run (ListingState β) :=
  let count := min s.remaining batchSize
  (takeBuffers s.buffers s.k count).bind fun slots =>
    .ofOption <| (call s.startKey slots).bind fun r =>
      match checkRet r.ret with
      | some code => some { s with thrown := some code }
      | none =>
          (if r.count > 0 then r.lastKey keyBytes else some s.startKey).map fun startKey =>
            { remaining := s.remaining - r.count
              k := if reuseBuffer then s.k else advance32 s.k r.count
              startKey := startKey
              buffers := putBuffers s.buffers s.k r.buffers
              thrown := none }

theorem takeBuffers_eq_done {buffers : List β} {k count : ℕ} (hcount : count < 2 ^ 32)
    (hin : ∀ i < count, advance32 i k < buffers.length) :
    ∃ slots, takeBuffers buffers k count = .done slots ∧ slots.length = count ∧
      ∀ x ∈ slots, x ∈ buffers := by
  have hstep : ∀ i (slots : List β), i < count →
      (slots.length = i ∧ ∀ x ∈ slots, x ∈ buffers) →
      ∃ slots', (buffers[advance32 i k]?.map fun x => slots ++ [x]) = some slots' ∧
        slots'.length = i + 1 ∧ ∀ x ∈ slots', x ∈ buffers := by
    rintro i slots hi ⟨hlength, hmem⟩
    have hlt := hin i hi
    refine ⟨slots ++ [buffers[advance32 i k]], ?_, ?_, ?_⟩
    · rw [List.getElem?_eq_getElem hlt]
      rfl
    · rw [List.length_append, hlength, List.length_singleton]
    · intro x hx
      rcases List.mem_append.1 hx with hx | hx
      · exact hmem x hx
      · rw [List.mem_singleton.1 hx]
        exact List.getElem_mem hlt
  obtain ⟨slots, hthrough, hslots⟩ :=
    Loop.through_invariant _ _ hstep ⟨rfl, fun x hx => absurd hx List.not_mem_nil⟩
  refine ⟨slots, ?_, hslots⟩
  rw [takeBuffers, Loop.forLoop_of_lt hcount, hthrough]
  rfl

theorem length_putBuffers (buffers : List β) (k : ℕ) (slots : List β) :
    (putBuffers buffers k slots).length = buffers.length := by
  rw [putBuffers]
  induction slots.zipIdx generalizing buffers with
  | nil => rfl
  | cons x xs ih => rw [List.foldl_cons, ih, List.length_set]

/-- A written buffer is one of those that the call has left. -/
theorem mem_putBuffers {buffers : List β} {k : ℕ} {slots : List β} {x : β}
    (h : x ∈ putBuffers buffers k slots) : x ∈ buffers ∨ x ∈ slots := by
  have hset : ∀ (xs : List (β × ℕ)) (buffers : List β),
      x ∈ xs.foldl (fun buffers x => buffers.set (advance32 x.2 k) x.1) buffers →
        x ∈ buffers ∨ x ∈ xs.map Prod.fst := by
    intro xs
    induction xs with
    | nil => exact fun buffers h => Or.inl h
    | cons y xs ih =>
        intro buffers h
        rw [List.foldl_cons] at h
        rw [List.map_cons, List.mem_cons]
        rcases ih _ h with h | h
        · rcases List.mem_or_eq_of_mem_set h with h | h
          · exact Or.inl h
          · exact Or.inr (Or.inl h)
        · exact Or.inr (Or.inr h)
  rcases hset slots.zipIdx buffers h with h | h
  · exact Or.inl h
  · rw [List.zipIdx_map_fst] at h
    exact Or.inr h

/-- A call that gives the pages of `keys`, for at most `limit` buffers with enough room. -/
def GivesPages (call : Bulk → List β → Option (PageResult β)) (keyBytes : β → Bulk)
    (room : β → Prop) (limit : ℕ) (lt : Bulk → Bulk → Prop) [DecidableRel lt]
    (keys : List Bulk) : Prop :=
  ∀ startKey slots, slots ≠ [] → slots.length ≤ limit → (∀ x ∈ slots, room x) →
    ∃ r, call startKey slots = some r ∧ r.ret = SdskvReturn.success.code ∧
      (∀ x ∈ r.buffers, room x) ∧
      r.count = ((Countdown.after lt [] keys startKey).take slots.length).length ∧
      ∀ key ∈ ((Countdown.after lt [] keys startKey).take slots.length).getLast?,
        r.lastKey keyBytes = some key

/-- No exception was thrown, and the buffers are large and many enough for the entries that
remain of `n`. -/
structure Paging (room : β → Prop) (reuseBuffer : Bool) (n batchSize : ℕ)
    (s : ListingState β) : Prop where
  thrown : s.thrown = none
  remaining : s.remaining ≤ n
  length : s.buffers.length = if reuseBuffer then batchSize else n
  room : ∀ x ∈ s.buffers, room x
  k : if reuseBuffer then s.k = 0 else s.k + s.remaining ≤ n

variable {call : Bulk → List β → Option (PageResult β)} {keyBytes : β → Bulk} {room : β → Prop}
  {limit : ℕ} {lt : Bulk → Bulk → Prop} [DecidableRel lt] {keys : List Bulk}
  {reuseBuffer : Bool} {n batchSize : ℕ} {s : ListingState β}

/-- The buffers of the next batch are there. -/
theorem Paging.advance32_lt (hs : Paging room reuseBuffer n batchSize s) :
    ∀ i < min s.remaining batchSize, advance32 i s.k < s.buffers.length := by
  intro i hi
  have hk := hs.k
  refine lt_of_le_of_lt (Nat.mod_le _ _) ?_
  rw [hs.length]
  split at hk
  · rw [if_pos ‹_›]
    omega
  · rw [if_neg ‹_›]
    omega

/-- The state after a page of `count` keys. -/
theorem Paging.next (hs : Paging room reuseBuffer n batchSize s) {count : ℕ} {startKey : Bulk}
    {slots : List β} (hcount : count ≤ s.remaining) (hroom : ∀ x ∈ slots, room x) :
    Paging room reuseBuffer n batchSize
      { remaining := s.remaining - count
        k := if reuseBuffer then s.k else advance32 s.k count
        startKey := startKey
        buffers := putBuffers s.buffers s.k slots
        thrown := none } := by
  have hk := hs.k
  refine ⟨rfl, le_trans (Nat.sub_le _ _) hs.remaining, ?_, ?_, ?_⟩
  · rw [length_putBuffers, hs.length]
  · intro x hx
    rcases mem_putBuffers hx with hx | hx
    · exact hs.room x hx
    · exact hroom x hx
  · split at hk
    · rw [if_pos ‹_›, if_pos ‹_›]
      exact hk
    · rw [if_neg ‹_›, if_neg ‹_›]
      have hadvance : advance32 s.k count ≤ s.k + count := Nat.mod_le _ _
      simp only
      omega

/-- The next start key is the last key of the page, if it has one. -/
theorem startKey_of_page {r : PageResult β} {page : List Bulk} {startKey : Bulk}
    (hlast : ∀ key ∈ page.getLast?, r.lastKey keyBytes = some key) :
    (if page.length > 0 then r.lastKey keyBytes else some startKey) =
      some (page.getLast?.getD startKey) := by
  cases hget : page.getLast? with
  | none =>
      have hnil : page = [] := List.getLast?_eq_none_iff.1 hget
      rw [hnil, if_neg (by simp)]
      rfl
  | some key =>
      have hpos : page.length > 0 := by
        apply List.length_pos_iff.2
        intro hnil
        rw [hnil] at hget
        cases hget
      rw [if_pos hpos, hlast key hget]
      rfl

/-- An iteration is a page of the countdown. -/
theorem pagingBody_eq_done (hcall : GivesPages call keyBytes room limit lt keys)
    (hbatch : 1 ≤ batchSize) (hlt : batchSize < 2 ^ 32) (hlimit : min n batchSize ≤ limit)
    (hs : Paging room reuseBuffer n batchSize s) (hrem : s.remaining ≠ 0) :
    ∃ s', pagingBody batchSize reuseBuffer keyBytes call s = .done s' ∧
      Paging room reuseBuffer n batchSize s' ∧
      (s'.remaining, s'.startKey) =
        Countdown.countdown lt [] keys batchSize (s.remaining, s.startKey) := by
  have hremaining := hs.remaining
  obtain ⟨slots, htake, hlength, hmem⟩ := takeBuffers_eq_done
    (show min s.remaining batchSize < 2 ^ 32 by omega) hs.advance32_lt
  have hne : slots ≠ [] := by
    intro hnil
    rw [hnil, List.length_nil] at hlength
    omega
  obtain ⟨r, hr, hret, hroom, hcount, hlast⟩ :=
    hcall s.startKey slots hne (by omega) fun x hx => hs.room x (hmem x hx)
  rw [hlength] at hcount hlast
  set page := (Countdown.after lt [] keys s.startKey).take (min s.remaining batchSize) with hpage
  have hle : page.length ≤ s.remaining := by
    rw [hpage, List.length_take]
    exact le_trans (Nat.min_le_left _ _) (Nat.min_le_left _ _)
  refine ⟨_, ?_, hs.next hle hroom, rfl⟩
  simp only [pagingBody, htake, Run.bind, hr, Option.bind_some, hret, checkRet_success, hcount,
    startKey_of_page hlast, Option.map_some]
  rfl

/-- The loop ends exactly when the countdown by pages does. -/
theorem paging_ends_iff (hcall : GivesPages call keyBytes room limit lt keys)
    (hbatch : 1 ≤ batchSize) (hlt : batchSize < 2 ^ 32) (hlimit : min n batchSize ≤ limit)
    (hs : Paging room reuseBuffer n batchSize s) :
    (∃ fuel s', whileLoop ListingState.more (pagingBody batchSize reuseBuffer keyBytes call)
        fuel s = .done s') ↔
      ∃ i, ((Countdown.countdown lt [] keys batchSize)^[i] (s.remaining, s.startKey)).1 = 0 := by
  have hcond : ∀ t : ListingState β, Paging room reuseBuffer n batchSize t →
      t.more = decide ((t.remaining, t.startKey).1 ≠ 0) := by
    intro t ht
    simp [ListingState.more, ht.thrown]
  have hbody : ∀ t : ListingState β, Paging room reuseBuffer n batchSize t → t.more = true →
      ∃ t', pagingBody batchSize reuseBuffer keyBytes call t = .done t' ∧
        Paging room reuseBuffer n batchSize t' ∧ (t'.remaining, t'.startKey) =
          Countdown.countdown lt [] keys batchSize (t.remaining, t.startKey) := by
    intro t ht hmore
    have hrem : t.remaining ≠ 0 ∧ t.thrown = none := of_decide_eq_true hmore
    exact pagingBody_eq_done hcall hbatch hlt hlimit ht hrem.1
  have hends := Loop.exists_done_iff_iterate (fun t : ListingState β => (t.remaining, t.startKey))
    (Countdown.countdown lt [] keys batchSize) (fun q => decide (q.1 ≠ 0)) hcond hbody hs
  simpa using hends

end Loops

section Calls

variable {σ : Type}

/-- `list_keys` of the client into buffers. -/
def listKeysPage (method : ListKeysMethod σ) (calls : ListKeysCalls) (s : σ) (startKey : Bulk)
    (slots : List Bulk) : Option (PageResult Bulk) :=
  if h : slots.flatten.length < 2 ^ 64 then
    (sdskvListKeysWithPrefix method calls (oneDatabase s) 5 startKey []
        (KeySlots.ofBuffers slots h)).map fun r =>
      { ret := r.ret
        count := r.maxKeys
        ksizes := r.ksizes
        buffers := r.keys.map fun key => key.getD [] }
  else none

/-- `list_keyvals` of the client into pairs of buffers, from a database that is found. -/
def listKeyvalsPage (listKeyvals : Bulk → ℕ → Bulk → Listing) (calls : BulkCalls)
    (startKey : Bulk) (slots : List (Bulk × Bulk)) : Option (PageResult (Bulk × Bulk)) :=
  let keys := slots.map Prod.fst
  let values := slots.map Prod.snd
  (listKeyvalsReply calls (memoryOf keys values) (listKeyvals startKey keys.length [])).map
    fun r =>
      { ret := r.1.ret
        count := r.1.nkeys
        ksizes := r.2.ksizes
        buffers := (cutItems r.2.keys 0 (keys.map List.length)).zip
          (cutItems r.2.values 0 (values.map List.length)) }

/-- The last key of a page is read back from the buffers and the sizes. -/
theorem lastKey_of_fills {β : Type} {keyBytes : β → Bulk} {r : PageResult β}
    {items olds : List Bulk} (hlen : items.length ≤ olds.length)
    (hcount : r.count = items.length)
    (hsizes : ∀ (i : ℕ) (item : Bulk), items[i]? = some item →
      r.ksizes[i]? = some item.length)
    (hbuffers : r.buffers.map keyBytes = fillBuffers items olds) :
    ∀ key ∈ items.getLast?, r.lastKey keyBytes = some key := by
  intro key hkey
  have hget : items[items.length - 1]? = some key := by
    rw [← List.getLast?_eq_getElem?]
    exact hkey
  obtain ⟨b, hb, hprefix⟩ := prefix_fillBuffers hlen hget
  rw [← hbuffers, List.getElem?_map, Option.map_eq_some_iff] at hb
  obtain ⟨x, hx, rfl⟩ := hb
  rw [PageResult.lastKey, hcount, hx, hsizes _ _ hget]
  simp only [Option.bind_some, if_pos hprefix.length_le, ← List.prefix_iff_eq_take.1 hprefix]

/-- A database that lists the pages of the entries `m`. -/
structure ListsPages (method : ListKeysMethod σ)
    (listKeyvals : σ → Bulk → ℕ → Bulk → Listing) (s : σ) (lt : Bulk → Bulk → Prop)
    [DecidableRel lt] (m : List (Bulk × Bulk)) : Prop where
  listKeys : ∀ start count, 1 ≤ count →
    method.listKeys s start count [] = some ((page lt m start count []).map Prod.fst)
  listKeyvals : ∀ start count, 1 ≤ count →
    listKeyvals s start count [] = .pairs (page lt m start count [])

variable {method : ListKeysMethod σ} {listKeyvals : σ → Bulk → ℕ → Bulk → Listing}
  {calls : ListKeysCalls} {s : σ} {lt : Bulk → Bulk → Prop} [DecidableRel lt]
  {m : List (Bulk × Bulk)} {keyCapacity valCapacity limit : ℕ}

theorem after_map_fst (start : Bulk) :
    Countdown.after lt [] (m.map Prod.fst) start = keysAfter lt m start := by
  rw [Countdown.after, keysAfter, List.filter_map]
  rfl

/-- `list_keys` gives the pages of the keys. -/
theorem givesPages_listKeys (hcalls : calls.Succeed)
    (hpages : ListsPages method listKeyvals s lt m)
    (hkeys : ∀ p ∈ m, p.1.length ≤ keyCapacity) (hlt : limit < 2 ^ 32)
    (hint : limit < 2 ^ 31 ∨ keyCapacity = 0) (hbytes : limit * keyCapacity < 2 ^ 64) :
    GivesPages (listKeysPage method calls s) id (fun b => b.length = keyCapacity) limit lt
      (m.map Prod.fst) := by
  intro startKey slots hne hlimit hroom
  have hpos : 1 ≤ slots.length := List.length_pos_iff.2 hne
  have hflatten : slots.flatten.length < 2 ^ 64 := by
    rw [length_flatten_of_length hroom]
    exact lt_of_le_of_lt (Nat.mul_le_mul_right _ hlimit) hbytes
  have hlist := hpages.listKeys startKey slots.length hpos
  rw [map_fst_page] at hlist
  rw [after_map_fst]
  have hlisted : ∀ key ∈ (keysAfter lt m startKey).take slots.length,
      key.length ≤ keyCapacity := by
    intro key hkey
    obtain ⟨p, hp, rfl⟩ := List.mem_map.1 (List.mem_of_mem_take hkey)
    exact hkeys p (List.mem_of_mem_filter hp)
  obtain ⟨r, hr, hret, hcount, hsizes, hbuffers⟩ := sdskvListKeysWithPrefix_of_fits hcalls
    (show oneDatabase s 5 = some s from rfl) hflatten hlist hlisted hroom hne (by omega) (by omega)
  rw [List.take_take, Nat.min_self] at hcount hsizes hbuffers
  have hlen : ((keysAfter lt m startKey).take slots.length).length ≤ slots.length :=
    List.length_take_le _ _
  have hfilled : (r.keys.map fun key => key.getD []) =
      fillBuffers ((keysAfter lt m startKey).take slots.length) slots := by
    rw [hbuffers, List.map_map]
    exact List.map_id _
  refine ⟨_, by rw [listKeysPage, dif_pos hflatten, hr]; rfl, hret, ?_, hcount, ?_⟩
  · simp only [hfilled]
    exact length_of_mem_fillBuffers (itemsFit_of_length hlisted hroom) hroom
  · exact lastKey_of_fills hlen hcount hsizes (by simp only [hfilled, List.map_id])

/-- What `list_keyvals` leaves in pairs of buffers that the listed pairs fit into. -/
theorem exists_listKeyvalsPage (hcalls : calls.Succeed) {call : Bulk → ℕ → Bulk → Listing}
    {startKey : Bulk} {slots listed : List (Bulk × Bulk)}
    (hlist : call startKey slots.length [] = .pairs listed)
    (hroom : ∀ x ∈ slots, x.1.length = keyCapacity ∧ x.2.length = valCapacity)
    (hfits : ∀ p ∈ listed, p.1.length ≤ keyCapacity ∧ p.2.length ≤ valCapacity)
    (hlen : listed.length ≤ slots.length) (hlt : slots.length < 2 ^ 32)
    (hkeysBytes : slots.length * keyCapacity < 2 ^ 64)
    (hvalsBytes : slots.length * valCapacity < 2 ^ 64) :
    ∃ r, listKeyvalsPage call calls.toBulkCalls startKey slots = some r ∧
      r.ret = SdskvReturn.success.code ∧ r.count = listed.length ∧
      (∀ (i : ℕ) (p : Bulk × Bulk), listed[i]? = some p → r.ksizes[i]? = some p.1.length) ∧
      r.buffers = (fillBuffers (listed.map Prod.fst) (slots.map Prod.fst)).zip
        (fillBuffers (listed.map Prod.snd) (slots.map Prod.snd)) := by
  have hroomKeys : ∀ b ∈ slots.map Prod.fst, b.length = keyCapacity :=
    List.forall_mem_map.2 fun x hx => (hroom x hx).1
  have hroomVals : ∀ b ∈ slots.map Prod.snd, b.length = valCapacity :=
    List.forall_mem_map.2 fun x hx => (hroom x hx).2
  have hlenKeys : (slots.map Prod.fst).length = slots.length := List.length_map _
  have hlenVals : (slots.map Prod.snd).length = slots.length := List.length_map _
  have hflattenKeys : (slots.map Prod.fst).flatten.length < 2 ^ 64 := by
    rwa [length_flatten_of_length hroomKeys, hlenKeys]
  have hflattenVals : (slots.map Prod.snd).flatten.length < 2 ^ 64 := by
    rwa [length_flatten_of_length hroomVals, hlenVals]
  have hfitKeys : ItemsFit (listed.map Prod.fst) (slots.map Prod.fst) :=
    itemsFit_of_length (List.forall_mem_map.2 fun p hp => (hfits p hp).1) hroomKeys
  have hfitVals : ItemsFit (listed.map Prod.snd) (slots.map Prod.snd) :=
    itemsFit_of_length (List.forall_mem_map.2 fun p hp => (hfits p hp).2) hroomVals
  have htake : listed.take (slots.map Prod.fst).length = listed := by
    rw [hlenKeys]
    exact List.take_of_length_le hlen
  have hreply : listKeyvalsReply calls.toBulkCalls
      (memoryOf (slots.map Prod.fst) (slots.map Prod.snd))
      (call startKey (slots.map Prod.fst).length []) =
        listKeyvalsAnswer calls.toBulkCalls
          (memoryOf (slots.map Prod.fst) (slots.map Prod.snd)) listed := by
    rw [hlenKeys, hlist, listKeyvalsReply, hcalls.1.1]
  obtain ⟨out, memory, hanswer, hret, hcount, hsizes, hcutKeys, hcutVals⟩ :=
    listKeyvalsAnswer_of_fits hcalls.1 (hlenVals.trans hlenKeys.symm) hflattenKeys hflattenVals
      htake (Or.inr (by omega)) hfitKeys hfitVals
  refine ⟨_, by rw [listKeyvalsPage, hreply, hanswer]; rfl, hret, hcount, ?_, ?_⟩
  · exact fun i p hp => (hsizes i p hp).1
  · simp only [hcutKeys, hcutVals]

/-- The keys of the filled pairs of buffers. -/
theorem map_fst_zip_fillBuffers {slots listed : List (Bulk × Bulk)}
    (hlen : listed.length ≤ slots.length) :
    ((fillBuffers (listed.map Prod.fst) (slots.map Prod.fst)).zip
      (fillBuffers (listed.map Prod.snd) (slots.map Prod.snd))).map Prod.fst =
        fillBuffers (listed.map Prod.fst) (slots.map Prod.fst) := by
  apply List.map_fst_zip
  rw [length_fillBuffers (by simpa using hlen), length_fillBuffers (by simpa using hlen),
    List.length_map, List.length_map]

/-- The filled pairs of buffers have the sizes that they had. -/
theorem room_zip_fillBuffers {slots listed : List (Bulk × Bulk)}
    (hroom : ∀ x ∈ slots, x.1.length = keyCapacity ∧ x.2.length = valCapacity)
    (hfits : ∀ p ∈ listed, p.1.length ≤ keyCapacity ∧ p.2.length ≤ valCapacity) :
    ∀ x ∈ (fillBuffers (listed.map Prod.fst) (slots.map Prod.fst)).zip
        (fillBuffers (listed.map Prod.snd) (slots.map Prod.snd)),
      x.1.length = keyCapacity ∧ x.2.length = valCapacity := by
  have hroomKeys : ∀ b ∈ slots.map Prod.fst, b.length = keyCapacity :=
    List.forall_mem_map.2 fun x hx => (hroom x hx).1
  have hroomVals : ∀ b ∈ slots.map Prod.snd, b.length = valCapacity :=
    List.forall_mem_map.2 fun x hx => (hroom x hx).2
  intro x hx
  obtain ⟨hkey, hval⟩ := List.of_mem_zip hx
  constructor
  · exact length_of_mem_fillBuffers
      (itemsFit_of_length (List.forall_mem_map.2 fun p hp => (hfits p hp).1) hroomKeys)
      hroomKeys _ hkey
  · exact length_of_mem_fillBuffers
      (itemsFit_of_length (List.forall_mem_map.2 fun p hp => (hfits p hp).2) hroomVals)
      hroomVals _ hval

/-- `list_keyvals` gives the pages of the keys. -/
theorem givesPages_listKeyvals (hcalls : calls.Succeed)
    (hpages : ListsPages method listKeyvals s lt m)
    (hfits : ∀ p ∈ m, p.1.length ≤ keyCapacity ∧ p.2.length ≤ valCapacity)
    (hlt : limit < 2 ^ 32) (hkeysBytes : limit * keyCapacity < 2 ^ 64)
    (hvalsBytes : limit * valCapacity < 2 ^ 64) :
    GivesPages (listKeyvalsPage (listKeyvals s) calls.toBulkCalls) Prod.fst
      (fun x => x.1.length = keyCapacity ∧ x.2.length = valCapacity) limit lt
      (m.map Prod.fst) := by
  intro startKey slots hne hlimit hroom
  rw [after_map_fst, ← map_fst_page]
  set listed := page lt m startKey slots.length [] with hlisted
  have hfits' : ∀ p ∈ listed, p.1.length ≤ keyCapacity ∧ p.2.length ≤ valCapacity :=
    fun p hp => hfits p ((page_sublist _ _ _ _ _).subset hp)
  have hlen : listed.length ≤ slots.length := List.length_take_le _ _
  obtain ⟨r, hr, hret, hcount, hsizes, hbuffers⟩ := exists_listKeyvalsPage hcalls
    (hpages.listKeyvals startKey slots.length (List.length_pos_iff.2 hne)) hroom hfits' hlen
    (by omega) (lt_of_le_of_lt (Nat.mul_le_mul_right _ hlimit) hkeysBytes)
    (lt_of_le_of_lt (Nat.mul_le_mul_right _ hlimit) hvalsBytes)
  refine ⟨r, hr, hret, ?_, ?_, ?_⟩
  · rw [hbuffers]
    exact room_zip_fillBuffers hroom hfits'
  · rw [List.length_map]
    exact hcount
  · have hfilled : r.buffers.map Prod.fst =
        fillBuffers (listed.map Prod.fst) (slots.map Prod.fst) := by
      rw [hbuffers, map_fst_zip_fillBuffers hlen]
    refine lastKey_of_fills (by simpa using hlen) ?_ ?_ hfilled
    · rw [List.length_map]
      exact hcount
    · intro i key hkey
      rw [List.getElem?_map, Option.map_eq_some_iff] at hkey
      obtain ⟨p, hp, rfl⟩ := hkey
      exact hsizes i p hp

end Calls

section Databases

variable {δ ε : Type}

/-- A database of one of the backends that store entries, with the default order. -/
inductive ListedDatabase (δ ε : Type)
  | map (noOverwrite : Bool) (s : MapState none noOverwrite)
  | levelDB (s : LevelDBDataStore δ)
  | berkeleyDB (s : BerkeleyDBDataStore ε)

namespace ListedDatabase

variable (level : LevelDBIterators δ) (bdb : BerkeleyDbCursors ε)

/-- The entries, in order. -/
def entries : ListedDatabase δ ε → List (Bulk × Bulk)
  | map _ s => s.1.map
  | levelDB s => level.seekToFirst s.dbm
  | berkeleyDB s => bdb.seekToFirst s.dbm

/-- `list_keys`. -/
def listKeys : ListKeysMethod (ListedDatabase δ ε) where
  listKeys db start count keyPrefix :=
    match db with
    | map _ s => mapListKeys.listKeys s.1 start count keyPrefix
    | levelDB s => (levelDBListKeys level).listKeys s start count keyPrefix
    | berkeleyDB s => (berkeleyDBListKeys bdb).listKeys s start count keyPrefix
  listKeys_take {db _ _ _ _ _} h hpos hm := by
    cases db with
    | map _ s => exact mapListKeys.listKeys_take h hpos hm
    | levelDB s => exact (levelDBListKeys level).listKeys_take h hpos hm
    | berkeleyDB s => exact (berkeleyDBListKeys bdb).listKeys_take h hpos hm

/-- `list_keyvals`. -/
def listKeyvals (db : ListedDatabase δ ε) (start : Bulk) (count : ℕ) (keyPrefix : Bulk) :
    Listing :=
  match db with
  | map _ s => s.1.vlistKeyvals start count keyPrefix
  | levelDB s => .pairs (s.vlistKeyvals level start count keyPrefix)
  | berkeleyDB s => .pairs (s.vlistKeyvals bdb start count keyPrefix)

variable {level bdb} {viewL : δ → Bulk → Option Bulk} {viewB : ε → Bulk → Option Bulk}

theorem listsPages_map (noOverwrite : Bool) (s : MapState none noOverwrite) :
    ListsPages (listKeys level bdb) (listKeyvals level bdb) (map noOverwrite s) (keycmp none)
      s.1.map where
  listKeys start count _ := by
    rw [map_fst_page]
    exact mapVlistKeys_nil s start count
  listKeyvals start count _ := mapStore_listsPrefix_nil none noOverwrite s start count

theorem listsPages_levelDB (I : level.toIterators.Spec stringLess viewL)
    (s : LevelDBDataStore δ) :
    ListsPages (listKeys level bdb) (listKeyvals level bdb) (levelDB s) stringLess
      (level.seekToFirst s.dbm) where
  listKeys start count _ := by
    refine congrArg some ?_
    rw [LevelDBDataStore.vlistKeys]
    exact levelDB_scanLoop_eq_page I s start count (fun p _ => Nat.zero_le _) Prod.fst
  listKeyvals start count _ := by
    refine congrArg Listing.pairs ?_
    rw [LevelDBDataStore.vlistKeyvals, levelDB_scanLoop_eq_page I s start count
      (fun p _ => Nat.zero_le _), List.map_id']

theorem listsPages_berkeleyDB (I : bdb.toIterators.Spec stringLess viewB)
    (s : BerkeleyDBDataStore ε) :
    ListsPages (listKeys level bdb) (listKeyvals level bdb) (berkeleyDB s) stringLess
      (berkeleyDBListed bdb s) where
  listKeys start count hcount := by
    refine congrArg some ?_
    rw [BerkeleyDBDataStore.vlistKeys]
    exact berkeleyDB_scan_eq_page I s start hcount (fun p _ => Nat.zero_le _) Prod.fst
  listKeyvals start count hcount := by
    refine congrArg Listing.pairs ?_
    rw [BerkeleyDBDataStore.vlistKeyvals, berkeleyDB_scan_eq_page I s start hcount
      (fun p _ => Nat.zero_le _), List.map_id']

/-- Whether a countdown from the number of `keys` reaches zero on this backend. An empty key
that ends a page takes the reader back to the beginning; a cursor never lists one. -/
def Exhausts : ListedDatabase δ ε → List Bulk → ℕ → Prop
  | berkeleyDB _, keys, _ => keys.Nodup ∧ [] ∉ keys
  | _, keys, batchSize =>
      keys.Nodup ∨ [] ∈ keys ∧ (batchSize = 1 ∨ ∀ key ∈ keys, key = [])

end ListedDatabase

/-- The members of the two benchmarks after `setup`: the generated keys, the largest sizes that
a key and a value can have, and that of the batches. The buffers lie in memory. -/
structure PagingMembers where
  keys : List Bulk
  batchSize : UInt32
  reuseBuffer : Bool
  keyCapacity : ℕ
  valCapacity : ℕ
  length_le : ∀ key ∈ keys, key.length ≤ keyCapacity
  keys_lt : (if reuseBuffer then batchSize.toNat else keys.length) * keyCapacity < 2 ^ 64
  vals_lt : (if reuseBuffer then batchSize.toNat else keys.length) * valCapacity < 2 ^ 64

/-- `ListKeysBenchmark` and `ListKeyValsBenchmark`. -/
inductive PagingBenchmark
  | listKeys
  | listKeyvals
  deriving DecidableEq

namespace PagingMembers

variable (b : PagingMembers)

/-- The number of buffers. -/
def numBuffers : ℕ := if b.reuseBuffer then b.batchSize.toNat else b.keys.length

/-- The beginning of `execute`, with buffers that are all like `buffer`. -/
def initial {β : Type} (buffer : β) : ListingState β where
  remaining := b.keys.length
  k := 0
  startKey := []
  buffers := List.replicate b.numBuffers buffer
  thrown := none

/-- `execute`. -/
def execute {β : Type} (keyBytes : β → Bulk) (call : Bulk → List β → Option (PageResult β))
    (buffer : β) (fuel : ℕ) : Run (ListingState β) :=
  whileLoop ListingState.more (pagingBody b.batchSize.toNat b.reuseBuffer keyBytes call) fuel
    (b.initial buffer)

/-- `m_keys_buffer[i]`. -/
def keyBuffer : Bulk := List.replicate b.keyCapacity 0

/-- `m_vals_buffer[i]`. -/
def valBuffer : Bulk := List.replicate b.valCapacity 0

/-- The entries have exactly the generated keys, and values of the generated sizes. -/
structure HeldBy (m : List (Bulk × Bulk)) : Prop where
  mem : ∀ key, key ∈ b.keys ↔ key ∈ m.map Prod.fst
  length_le : ∀ p ∈ m, p.2.length ≤ b.valCapacity

end PagingMembers

/-- The loop of the benchmark comes to its end on the database. -/
def PagingBenchmark.Terminates (level : LevelDBIterators δ) (bdb : BerkeleyDbCursors ε)
    (calls : ListKeysCalls) (b : PagingMembers) (db : ListedDatabase δ ε) :
    PagingBenchmark → Prop
  | listKeys => ∃ fuel s, b.execute id
      (listKeysPage (ListedDatabase.listKeys level bdb) calls db) b.keyBuffer fuel = .done s
  | listKeyvals => ∃ fuel s, b.execute Prod.fst
      (listKeyvalsPage (db.listKeyvals level bdb) calls.toBulkCalls)
      (b.keyBuffer, b.valBuffer) fuel = .done s

end Databases

section Termination

variable {δ ε : Type} {level : LevelDBIterators δ} {bdb : BerkeleyDbCursors ε}
  {calls : ListKeysCalls} {b : PagingMembers} {db : ListedDatabase δ ε}
  {lt : Bulk → Bulk → Prop} [DecidableRel lt] {m : List (Bulk × Bulk)}
  {viewL : δ → Bulk → Option Bulk} {viewB : ε → Bulk → Option Bulk}

theorem PagingMembers.HeldBy.fits (h : b.HeldBy m) :
    ∀ p ∈ m, p.1.length ≤ b.keyCapacity ∧ p.2.length ≤ b.valCapacity := by
  intro p hp
  exact ⟨b.length_le _ ((h.mem p.1).2 (List.mem_map_of_mem hp)), h.length_le p hp⟩

theorem min_le_numBuffers :
    min b.keys.length b.batchSize.toNat ≤ b.numBuffers := by
  rw [PagingMembers.numBuffers]
  split_ifs <;> omega

theorem paging_initial {β : Type} {room : β → Prop} {buffer : β} (hroom : room buffer) :
    Paging room b.reuseBuffer b.keys.length b.batchSize.toNat (b.initial buffer) where
  thrown := rfl
  remaining := Nat.le_refl _
  length := List.length_replicate
  room x hx := by
    rw [List.eq_of_mem_replicate hx]
    exact hroom
  k := by
    split_ifs
    · rfl
    · exact Nat.le_of_eq (Nat.zero_add _)

/-- A listing of sorted entries counts down to zero exactly when there are as many entries as
generated keys, or when the reader comes back to the beginning. -/
theorem terminates_iff_of_listsPages [IsStrictOrder Bulk lt] (hcalls : calls.Succeed)
    (benchmark : PagingBenchmark) (hbatch : 1 ≤ b.batchSize.toNat)
    (hpages : ListsPages (ListedDatabase.listKeys level bdb)
      (ListedDatabase.listKeyvals level bdb) db lt m)
    (hsorted : OrderedMap.Sorted lt m) (hleast : ∀ key, key ≠ [] → lt [] key)
    (hfits : ∀ p ∈ m, p.1.length ≤ b.keyCapacity ∧ p.2.length ≤ b.valCapacity)
    (hlen : m.length ≤ b.keys.length)
    (hint : benchmark = .listKeys →
      min b.keys.length b.batchSize.toNat < 2 ^ 31 ∨ b.keyCapacity = 0) :
    benchmark.Terminates level bdb calls b db ↔
      m.length = b.keys.length ∨
        Countdown.Returns [] (m.map Prod.fst) b.batchSize.toNat := by
  have hlt : b.batchSize.toNat < 2 ^ 32 := b.batchSize.toNat_lt
  have hbytes : ∀ {capacity : ℕ}, b.numBuffers * capacity < 2 ^ 64 →
      min b.keys.length b.batchSize.toNat * capacity < 2 ^ 64 :=
    lt_of_le_of_lt (Nat.mul_le_mul_right _ min_le_numBuffers)
  have hpairwise : (m.map Prod.fst).Pairwise lt := List.pairwise_map.2 hsorted
  have hcountdown := Countdown.ends_iff hpairwise (fun key _ hne => hleast key hne)
    (n := b.keys.length) (by rwa [List.length_map]) hbatch
  rw [List.length_map] at hcountdown
  rw [← hcountdown]
  cases benchmark with
  | listKeys =>
      have hcall := givesPages_listKeys hcalls hpages (fun p hp => (hfits p hp).1)
        (show min b.keys.length b.batchSize.toNat < 2 ^ 32 by omega) (hint rfl)
        (hbytes b.keys_lt)
      exact paging_ends_iff hcall hbatch hlt (Nat.le_refl _)
        (paging_initial List.length_replicate)
  | listKeyvals =>
      have hcall := givesPages_listKeyvals hcalls hpages hfits
        (show min b.keys.length b.batchSize.toNat < 2 ^ 32 by omega) (hbytes b.keys_lt)
        (hbytes b.vals_lt)
      exact paging_ends_iff hcall hbatch hlt (Nat.le_refl _)
        (paging_initial ⟨List.length_replicate, List.length_replicate⟩)

/-- The counter of the client overflows with the first page. -/
theorem not_terminates_of_many (hge : 2 ^ 31 ≤ min b.keys.length b.batchSize.toNat)
    (hcapacity : b.keyCapacity ≠ 0) :
    ¬ PagingBenchmark.listKeys.Terminates level bdb calls b db := by
  have hlt : b.batchSize.toNat < 2 ^ 32 := b.batchSize.toNat_lt
  have hbuffers := min_le_numBuffers (b := b)
  have hin : ∀ i < min b.keys.length b.batchSize.toNat,
      advance32 i 0 < (List.replicate b.numBuffers b.keyBuffer).length := by
    intro i hi
    have hle : advance32 i 0 ≤ i := Nat.mod_le _ _
    rw [List.length_replicate]
    omega
  obtain ⟨slots, htake, hlength, hmem⟩ := takeBuffers_eq_done
    (show min b.keys.length b.batchSize.toNat < 2 ^ 32 by omega) hin
  have hslots : ∀ x ∈ slots, x.length = b.keyCapacity := by
    intro x hx
    rw [List.eq_of_mem_replicate (hmem x hx)]
    exact List.length_replicate
  have hflatten : slots.flatten.length < 2 ^ 64 := by
    rw [length_flatten_of_length hslots, hlength]
    exact lt_of_le_of_lt (Nat.mul_le_mul_right _ hbuffers) b.keys_lt
  have hcall : listKeysPage (ListedDatabase.listKeys level bdb) calls db [] slots = none := by
    rw [listKeysPage, dif_pos hflatten]
    exact congrArg _ (sdskvListKeysWithPrefix_of_many (b :=
      { buffers := slots
        ne_nil := fun x hx hnil => hcapacity (by rw [← hslots x hx, hnil]; rfl)
        lt := hflatten }) (by rw [hlength]; exact hge))
  rintro ⟨fuel, s, hdone⟩
  refine Loop.whileLoop_ne_done (I := (· = b.initial b.keyBuffer)) ?_ rfl fuel s hdone
  rintro t rfl
  refine ⟨decide_eq_true ⟨show b.keys.length ≠ 0 by omega, rfl⟩, fun t' hbody => ?_⟩
  simp only [pagingBody, PagingMembers.initial, htake, Run.bind, hcall] at hbody
  cases hbody

section Counting

variable {items keys : List Bulk}

/-- Entries with distinct keys among the generated ones are not more than these, and as many
exactly when they have all of them. -/
theorem length_entries {entries : List (Bulk × Bulk)} (hnodup : (entries.map Prod.fst).Nodup)
    (hsub : entries.map Prod.fst ⊆ keys) :
    entries.length ≤ keys.length ∧
      (entries.length = keys.length ↔ (entries.map Prod.fst).Perm keys) := by
  have hsubperm := List.subperm_of_subset hnodup hsub
  rw [← List.length_map Prod.fst]
  refine ⟨hsubperm.length_le, ?_, List.Perm.length_eq⟩
  intro hlength
  exact hsubperm.perm_of_length_le (Nat.le_of_eq hlength.symm)

theorem perm_iff_nodup (hnodup : items.Nodup) (hmem : ∀ key, key ∈ keys ↔ key ∈ items) :
    items.Perm keys ↔ keys.Nodup := by
  constructor
  · intro hperm
    exact hperm.nodup_iff.1 hnodup
  · intro hkeys
    exact (List.perm_ext_iff_of_nodup hnodup hkeys).2 fun key => (hmem key).symm

/-- The items are the generated keys but an empty one. -/
theorem perm_iff_nodup_and_nil (hnodup : items.Nodup)
    (hmem : ∀ key, key ∈ items ↔ key ∈ keys ∧ key ≠ []) :
    items.Perm keys ↔ keys.Nodup ∧ [] ∉ keys := by
  constructor
  · intro hperm
    refine ⟨hperm.nodup_iff.1 hnodup, fun hnil => ?_⟩
    exact ((hmem []).1 (hperm.mem_iff.2 hnil)).2 rfl
  · rintro ⟨hkeys, hnil⟩
    refine (List.perm_ext_iff_of_nodup hnodup hkeys).2 fun key => ?_
    rw [hmem]
    exact and_iff_left_of_imp fun hkey heq => hnil (heq ▸ hkey)

/-- A page ends with the beginning when the generated keys have an empty one, and it is the
only one or a page of its own. -/
theorem returns_iff (hnodup : items.Nodup) (hmem : ∀ key, key ∈ keys ↔ key ∈ items)
    (batchSize : ℕ) :
    Countdown.Returns [] items batchSize ↔
      [] ∈ keys ∧ (batchSize = 1 ∨ ∀ key ∈ keys, key = []) := by
  rw [Countdown.Returns, hmem]
  refine and_congr_right fun hnil => or_congr_right ?_
  constructor
  · rintro rfl key hkey
    exact List.mem_singleton.1 ((hmem key).1 hkey)
  · intro hkeys
    have hall : ∀ key ∈ items, key = [] := fun key hkey => hkeys key ((hmem key).2 hkey)
    have hreplicate := List.eq_replicate_of_mem hall
    have hone : items.length ≤ 1 := by
      rw [hreplicate, List.nodup_replicate] at hnodup
      exact hnodup
    have hpos : 0 < items.length := List.length_pos_of_mem hnil
    rw [hreplicate, show items.length = 1 by omega]
    rfl

end Counting

omit [DecidableRel lt] in
theorem nodup_map_fst [IsStrictOrder Bulk lt] (hsorted : OrderedMap.Sorted lt m) :
    (m.map Prod.fst).Nodup := by
  refine List.Pairwise.imp ?_ (List.pairwise_map.2 hsorted)
  rintro key _ hlt rfl
  exact irrefl_of lt key hlt

/-- The case of a backend that lists all its entries. -/
theorem terminates_iff_of_mem [IsStrictOrder Bulk lt] (hcalls : calls.Succeed)
    (benchmark : PagingBenchmark) (hbatch : 1 ≤ b.batchSize.toNat)
    (hpages : ListsPages (ListedDatabase.listKeys level bdb)
      (ListedDatabase.listKeyvals level bdb) db lt m)
    (hsorted : OrderedMap.Sorted lt m) (hleast : ∀ key, key ≠ [] → lt [] key)
    (hheld : b.HeldBy m)
    (hint : benchmark = .listKeys →
      min b.keys.length b.batchSize.toNat < 2 ^ 31 ∨ b.keyCapacity = 0) :
    benchmark.Terminates level bdb calls b db ↔
      b.keys.Nodup ∨ [] ∈ b.keys ∧ (b.batchSize.toNat = 1 ∨ ∀ key ∈ b.keys, key = []) := by
  have hnodup := nodup_map_fst hsorted
  obtain ⟨hlen, hall⟩ := length_entries hnodup fun key hkey => (hheld.mem key).2 hkey
  rw [terminates_iff_of_listsPages hcalls benchmark hbatch hpages hsorted hleast hheld.fits hlen
    hint, hall, perm_iff_nodup hnodup hheld.mem, returns_iff hnodup hheld.mem]

/-- The case of the backend whose cursor skips an empty key. -/
theorem terminates_iff_of_mem_ne_nil (hbdb : bdb.toIterators.Spec stringLess viewB)
    (hcalls : calls.Succeed) (benchmark : PagingBenchmark) (hbatch : 1 ≤ b.batchSize.toNat)
    (s : BerkeleyDBDataStore ε) (hheld : b.HeldBy (bdb.seekToFirst s.dbm))
    (hint : benchmark = .listKeys →
      min b.keys.length b.batchSize.toNat < 2 ^ 31 ∨ b.keyCapacity = 0) :
    benchmark.Terminates level bdb calls b (.berkeleyDB s) ↔ b.keys.Nodup ∧ [] ∉ b.keys := by
  have hsorted : OrderedMap.Sorted stringLess (berkeleyDBListed bdb s) :=
    (hbdb.sorted s.dbm).sublist List.filter_sublist
  have hmem : ∀ key, key ∈ (berkeleyDBListed bdb s).map Prod.fst ↔
      key ∈ b.keys ∧ key ≠ [] := by
    intro key
    rw [hheld.mem, List.mem_map, List.mem_map]
    constructor
    · rintro ⟨p, hp, rfl⟩
      obtain ⟨hp, hne⟩ := List.mem_filter.1 hp
      exact ⟨⟨p, hp, rfl⟩, of_decide_eq_true hne⟩
    · rintro ⟨⟨p, hp, rfl⟩, hne⟩
      exact ⟨p, List.mem_filter.2 ⟨hp, decide_eq_true hne⟩, rfl⟩
  have hnodup := nodup_map_fst hsorted
  obtain ⟨hlen, hall⟩ := length_entries hnodup fun key hkey => ((hmem key).1 hkey).1
  have hreturns : ¬ Countdown.Returns [] ((berkeleyDBListed bdb s).map Prod.fst)
      b.batchSize.toNat := fun h => ((hmem []).1 h.1).2 rfl
  rw [terminates_iff_of_listsPages hcalls benchmark hbatch
    (ListedDatabase.listsPages_berkeleyDB hbdb s) hsorted (fun key hne => lex_nil_of_ne hne)
    (fun p hp => hheld.fits p (List.mem_of_mem_filter hp)) hlen hint, or_iff_left hreturns, hall,
    perm_iff_nodup_and_nil hnodup hmem]

/-- The loops end exactly when the generated keys are distinct, or when the reader comes back
to the beginning with every page; and the counter of `list_keys` has to hold the number of
buffers, unless they are 0-sized. -/
theorem terminates_iff (hlevel : level.toIterators.Spec stringLess viewL)
    (hbdb : bdb.toIterators.Spec stringLess viewB) (hcalls : calls.Succeed)
    (benchmark : PagingBenchmark) (b : PagingMembers) (hbatch : 1 ≤ b.batchSize.toNat)
    (db : ListedDatabase δ ε) (hdb : b.HeldBy (db.entries level bdb)) :
    benchmark.Terminates level bdb calls b db ↔
      (benchmark = .listKeys →
        min b.keys.length b.batchSize.toNat < 2 ^ 31 ∨ b.keyCapacity = 0) ∧
      db.Exhausts b.keys b.batchSize.toNat := by
  by_cases hint : benchmark = .listKeys →
      min b.keys.length b.batchSize.toNat < 2 ^ 31 ∨ b.keyCapacity = 0
  · rw [and_iff_right hint]
    cases db with
    | map noOverwrite s =>
        exact terminates_iff_of_mem hcalls benchmark hbatch
          (ListedDatabase.listsPages_map noOverwrite s)
          ((mapStore_lawful none noOverwrite).sorted s) (fun key hne => lex_nil_of_ne hne) hdb hint
    | levelDB s =>
        exact terminates_iff_of_mem hcalls benchmark hbatch
          (ListedDatabase.listsPages_levelDB hlevel s) (hlevel.sorted s.dbm)
          (fun key hne => lex_nil_of_ne hne) hdb hint
    | berkeleyDB s => exact terminates_iff_of_mem_ne_nil hbdb hcalls benchmark hbatch s hdb hint
  · refine iff_of_false ?_ fun h => hint h.1
    obtain ⟨rfl, hmany⟩ := Classical.not_imp.1 hint
    obtain ⟨hge, hcapacity⟩ := not_or.1 hmany
    exact not_terminates_of_many (Nat.le_of_not_lt hge) hcapacity

/-- Two generated keys of one byte, in batches of two. -/
def pagedKeys (x y : UInt8) : PagingMembers where
  keys := [[x], [y]]
  batchSize := 2
  reuseBuffer := false
  keyCapacity := 1
  valCapacity := 1
  length_le := by simp
  keys_lt := by simp
  vals_lt := by simp

/-- The map database with the given entries. -/
def mapHolding (m : List (Bulk × Bulk)) :
    ListedDatabase (List (Bulk × Bulk)) (List (Bulk × Bulk)) :=
  .map false (mapOfEntries m)

theorem terminates_pagedKeys :
    PagingBenchmark.listKeys.Terminates (orderedLevelDBIterators stringLess)
        (orderedBerkeleyDbCursors stringLess) .succeeding (pagedKeys 1 2)
        (mapHolding [([1], [7]), ([2], [8])]) ∧
      PagingBenchmark.listKeyvals.Terminates (orderedLevelDBIterators stringLess)
        (orderedBerkeleyDbCursors stringLess) .succeeding (pagedKeys 1 2)
        (mapHolding [([1], [7]), ([2], [8])]) := by
  have hlevel : (orderedLevelDBIterators stringLess).toIterators.Spec stringLess
      (OrderedMap.lookup stringLess) := orderedIterators_spec stringLess
  have hbdb : (orderedBerkeleyDbCursors stringLess).toIterators.Spec stringLess
      (OrderedMap.lookup stringLess) := orderedIterators_spec stringLess
  have hheld : (pagedKeys 1 2).HeldBy ((mapHolding [([1], [7]), ([2], [8])]).entries
      (orderedLevelDBIterators stringLess) (orderedBerkeleyDbCursors stringLess)) :=
    ⟨fun _ => Iff.rfl, by decide⟩
  have hends : (mapHolding [([1], [7]), ([2], [8])]).Exhausts (pagedKeys 1 2).keys 2 :=
    Or.inl (by decide)
  constructor
  · exact (terminates_iff hlevel hbdb ListKeysCalls.succeed_succeeding .listKeys
      (pagedKeys 1 2) (by decide) _ hheld).2 ⟨fun _ => Or.inl (by decide), hends⟩
  · exact (terminates_iff hlevel hbdb ListKeysCalls.succeed_succeeding .listKeyvals
      (pagedKeys 1 2) (by decide) _ hheld).2 ⟨fun h => (by cases h), hends⟩

/-- A key was generated twice: after it has been listed, all pages are empty. -/
theorem not_terminates_pagedKeys :
    (pagedKeys 1 1).HeldBy ((mapHolding [([1], [7])]).entries
        (orderedLevelDBIterators stringLess) (orderedBerkeleyDbCursors stringLess)) ∧
      ¬ PagingBenchmark.listKeys.Terminates (orderedLevelDBIterators stringLess)
        (orderedBerkeleyDbCursors stringLess) .succeeding (pagedKeys 1 1)
        (mapHolding [([1], [7])]) := by
  have hheld : (pagedKeys 1 1).HeldBy (mapOfEntries [([1], [7])]).1.map := by
    refine ⟨fun key => ?_, by decide⟩
    show key ∈ [[1], [1]] ↔ key ∈ [[1]]
    simp
  have hsorted := (mapStore_lawful none false).sorted (mapOfEntries [([1], [7])])
  refine ⟨hheld, fun hends => ?_⟩
  have hnodup := (terminates_iff_of_mem ListKeysCalls.succeed_succeeding .listKeys (by decide)
    (ListedDatabase.listsPages_map false (mapOfEntries [([1], [7])])) hsorted
    (fun key hne => lex_nil_of_ne hne) hheld (fun _ => Or.inl (by decide))).1 hends
  exact absurd hnodup (by decide)

end Termination

end Sdskv
