import Sdskv.Datastore.ListKeys
import Sdskv.Rpc.ListKeyvals

/-!
# Listing keys into the memory of a client

The client exposes its array of sizes, and its buffers for the keys unless one of them is
NULL or 0-sized: then it takes the call for a request of the sizes. The handler replaces the
sizes by those of the listed keys, and pushes the keys when all of them fit.

The handler does not know what the client takes the call for. It pushes keys that fit even
when the client has exposed no memory for them, and then the call fails. So the sizes that a
failed call has reported cannot be used as they are if one of the keys is empty.
-/

namespace Sdskv

open Wire

/-- `list_keys` of a backend; `none` is a call that does not return. A smaller count gives
the first of the keys. -/
structure ListKeysMethod (σ : Type) where
  listKeys : σ → Bulk → ℕ → Bulk → Option (List Bulk)
  listKeys_take : ∀ {s : σ} {startKey : Bulk} {count : ℕ} {keyPrefix : Bulk} {keys : List Bulk}
    {m : ℕ}, listKeys s startKey count keyPrefix = some keys → 1 ≤ m → m ≤ keys.length →
      listKeys s startKey m keyPrefix = some (keys.take m)

/-- The calls of the handler: those of a batched request, and the `margo_bulk_create` that
exposes the listed keys. -/
structure ListKeysCalls extends BulkCalls where
  expose : ℕ

/-- All calls of the handler succeed. -/
def ListKeysCalls.Succeed (calls : ListKeysCalls) : Prop :=
  calls.toBulkCalls.Succeed ∧ calls.expose = hgSuccess

/-- Calls that succeed, with the answer to a transfer outside the exposed memory. -/
def ListKeysCalls.succeeding : ListKeysCalls :=
  { BulkCalls.succeeding with expose := hgSuccess }

theorem ListKeysCalls.succeed_succeeding : ListKeysCalls.succeeding.Succeed :=
  ⟨BulkCalls.succeed_succeeding, rfl⟩

/-- The memory that a client exposes to a listing of keys; `keys` is `none` for
`HG_BULK_NULL`. -/
structure KeysMemory where
  ksizes : List ℕ
  keys : Option Bulk

/-- `list_keys_in_t`; `max_keys` is the length of the array of sizes. -/
structure ListKeysIn where
  dbId : UInt64
  startKey : Bulk
  keyPrefix : Bulk
  memory : KeysMemory

/-- `list_keys_out_t`. -/
structure ListKeysOut where
  nkeys : ℕ
  ret : Int

/-- `sdskv_list_keys_ult` on the keys that the database has listed; `none` when a loop does
not end. A transfer to `HG_BULK_NULL` fails as one outside of the memory. -/
def listKeysAnswer (calls : ListKeysCalls) (memory : KeysMemory) (keys : List Bulk) :
    Option (ListKeysOut × KeysMemory) :=
  let maxKeys := memory.ksizes.length
  let numKeys := min keys.length maxKeys
  if numKeys = 0 then some ({ nkeys := 0, ret := SdskvReturn.success.code }, memory)
  else do
    let is ← Loop.indices 32 numKeys
    let rest ← Loop.indicesFrom 32 (numKeys % 2 ^ 32) maxKeys
    let listed := keys.take numKeys
    let ksizes := actualSizes listed is rest memory.ksizes
    if calls.push ≠ hgSuccess then
      some ({ nkeys := numKeys, ret := makeHgError calls.push }, memory)
    else
      let memory' := { memory with ksizes := ksizes.1 }
      if ksizes.2 then
        some ({ nkeys := numKeys, ret := SdskvReturn.errSize.code }, memory')
      else if calls.expose ≠ hgSuccess then
        some ({ nkeys := numKeys, ret := makeHgError calls.expose }, memory')
      else
        match pushItems calls.refused listed memory.ksizes is 0 0 (memory.keys.getD []) with
        | (some hret, pushed) =>
            some ({ nkeys := numKeys, ret := makeHgError hret },
              { memory' with keys := memory.keys.map fun _ => pushed })
        | (none, pushed) =>
            some ({ nkeys := numKeys, ret := SdskvReturn.success.code },
              { memory' with keys := memory.keys.map fun _ => pushed })

/-- `sdskv_list_keys_ult`; `none` when it does not come to its answer. -/
def sdskvListKeysUlt {σ : Type} (method : ListKeysMethod σ) (calls : ListKeysCalls)
    (dbs : Databases σ) (input : ListKeysIn) : Option (ListKeysOut × KeysMemory) :=
  match dbs input.dbId with
  | none => some ({ nkeys := 0, ret := SdskvReturn.errUnknownDb.code }, input.memory)
  | some s =>
      match firstFailure calls.before with
      | some hret => some ({ nkeys := 0, ret := makeHgError hret }, input.memory)
      | none => do
          let keys ← method.listKeys s input.startKey input.memory.ksizes.length input.keyPrefix
          listKeysAnswer calls input.memory keys

/-- An entry of the arrays `keys` and `ksizes`: the buffer, unless it is NULL, and its
size. -/
structure KeySlot where
  buffer : Option Bulk
  ksize : ℕ
  length_buffer : ∀ b, buffer = some b → b.length = ksize

namespace KeySlot

/-- `keys[i] == NULL || ksizes[i] == 0`. -/
def requestsSize (slot : KeySlot) : Bool := slot.buffer.isNone || slot.ksize == 0

/-- The bytes that the entry has room for. -/
def bytes (slot : KeySlot) : Bulk := slot.buffer.getD []

/-- An entry with a buffer. -/
def ofBuffer (b : Bulk) : KeySlot where
  buffer := some b
  ksize := b.length
  length_buffer _ h := by rw [Option.some.inj h]

/-- A NULL buffer of an announced size. -/
def ofNull (ksize : ℕ) : KeySlot where
  buffer := none
  ksize := ksize
  length_buffer _ h := by cases h

end KeySlot

/-- The arrays `keys` and `ksizes` of a client; `null` tells that `keys` is NULL, and then
there is no buffer. The buffers lie in its memory. -/
structure KeySlots where
  slots : List KeySlot
  null : Bool
  buffer_of_null : null = true → ∀ slot ∈ slots, slot.buffer = none
  bytes_lt : (slots.map KeySlot.bytes).flatten.length < 2 ^ 64

/-- The loop of the client over its buffers from position `i` on, up to one that is NULL or
0-sized; `none` when the counter, an `int`, overflows. -/
def requestingLoop : ℕ → List KeySlot → Option Bool
  | _, [] => some false
  | i, slot :: slots =>
      if slot.requestsSize then some true
      else if i + 1 < 2 ^ 31 then requestingLoop (i + 1) slots
      else none

/-- The variable `requesting_sizes` of the client. -/
def KeySlots.requestingSizes (a : KeySlots) : Option Bool :=
  if a.null then some true else requestingLoop 0 a.slots

/-- What a client sees of a listing: the return value, the number of keys, the sizes and its
buffers. -/
structure ListKeysResult where
  ret : Int
  maxKeys : ℕ
  ksizes : List ℕ
  keys : List (Option Bulk)

/-- What the client finds in its memory after the answer. -/
def KeySlots.result (a : KeySlots) (out : ListKeysOut) (memory : KeysMemory) :
    ListKeysResult where
  ret := out.ret
  maxKeys := out.nkeys
  ksizes := memory.ksizes
  keys := match memory.keys with
    | none => a.slots.map KeySlot.buffer
    | some keys => (cutItems keys 0 (a.slots.map KeySlot.ksize)).map some

/-- `sdskv_list_keys_with_prefix`, when the calls of the client succeed. -/
def sdskvListKeysWithPrefix {σ : Type} (method : ListKeysMethod σ) (calls : ListKeysCalls)
    (dbs : Databases σ) (dbId : UInt64) (startKey keyPrefix : Bulk) (a : KeySlots) :
    Option ListKeysResult :=
  let ksizes := a.slots.map KeySlot.ksize
  if a.slots.length = 0 then
    some
      { ret := SdskvReturn.success.code
        maxKeys := 0
        ksizes := ksizes
        keys := a.slots.map KeySlot.buffer }
  else do
    let requestingSizes ← a.requestingSizes
    let exposed := if requestingSizes then none else some (a.slots.map KeySlot.bytes).flatten
    let (out, memory) ← sdskvListKeysUlt method calls dbs
      { dbId := dbId
        startKey := startKey
        keyPrefix := keyPrefix
        memory := { ksizes := ksizes, keys := exposed } }
    some (a.result out memory)

section Backends

/-- The map backend. -/
def mapListKeys : ListKeysMethod MapDataStore where
  listKeys s startKey count keyPrefix := s.vlistKeys startKey count keyPrefix
  listKeys_take h _ hm := MapDataStore.vlistKeysLoop_take h (Nat.zero_le _) hm

/-- The LevelDB backend. -/
def levelDBListKeys {δ : Type} (db : LevelDBIterators δ) :
    ListKeysMethod (LevelDBDataStore δ) where
  listKeys s startKey count keyPrefix := some (s.vlistKeys db startKey count keyPrefix)
  listKeys_take h _ hm := by
    cases h
    exact congrArg some (LevelDBDataStore.scanLoop_take Prod.fst (Nat.zero_le _) hm)

/-- The BerkeleyDB backend, which takes the first key without looking at the count. -/
def berkeleyDBListKeys {δ : Type} (db : BerkeleyDbCursors δ) :
    ListKeysMethod (BerkeleyDBDataStore δ) where
  listKeys s startKey count keyPrefix := some (s.vlistKeys db startKey count keyPrefix)
  listKeys_take {s startKey count keyPrefix keys m} h hpos hm := by
    cases h
    simp only [BerkeleyDBDataStore.vlistKeys] at hm ⊢
    congr 1
    generalize s.cursorFrom db startKey = it at hm ⊢
    cases it with
    | nil => exact List.take_nil.symm
    | cons p it =>
        simp only [BerkeleyDBDataStore.scan] at hm ⊢
        have hfirst : (if memcmp keyPrefix p.1 keyPrefix.length = 0 then [p.1] else []).length
            ≤ m := by
          split_ifs
          · exact hpos
          · exact Nat.zero_le m
        by_cases hstart : p.1 ≠ startKey
        · simp only [if_pos hstart] at hm ⊢
          exact BerkeleyDBDataStore.scanLoop_take Prod.fst hfirst hm
        · simp only [if_neg hstart] at hm ⊢
          exact BerkeleyDBDataStore.scanLoop_take Prod.fst (Nat.zero_le m) hm

end Backends

section Requesting

/-- The client takes the call for a request of the sizes. -/
def KeySlots.Requesting (a : KeySlots) : Prop :=
  a.null = true ∨ ∃ slot ∈ a.slots.take (2 ^ 31), slot.requestsSize = true

/-- The client exposes its buffers. -/
def KeySlots.Usable (a : KeySlots) : Prop :=
  a.null = false ∧ a.slots.length < 2 ^ 31 ∧ ∀ slot ∈ a.slots, slot.requestsSize = false

/-- The loop stops at an entry that is NULL or 0-sized, if the counter gets there. -/
theorem requestingLoop_eq_true_iff {i : ℕ} (hi : i < 2 ^ 31) {slots : List KeySlot} :
    requestingLoop i slots = some true ↔
      ∃ slot ∈ slots.take (2 ^ 31 - i), slot.requestsSize = true := by
  induction slots generalizing i with
  | nil => simp [requestingLoop]
  | cons slot slots ih =>
      rw [requestingLoop, show 2 ^ 31 - i = 2 ^ 31 - (i + 1) + 1 by omega, List.take_succ_cons]
      by_cases hslot : slot.requestsSize = true
      · simp [hslot]
      · rw [if_neg hslot]
        by_cases hnext : i + 1 < 2 ^ 31
        · rw [if_pos hnext, ih hnext]
          simp [hslot]
        · rw [if_neg hnext, show 2 ^ 31 - (i + 1) = 0 by omega]
          simp [hslot]

theorem requestingLoop_eq_false_iff {i : ℕ} (hi : i < 2 ^ 31) {slots : List KeySlot} :
    requestingLoop i slots = some false ↔
      i + slots.length < 2 ^ 31 ∧ ∀ slot ∈ slots, slot.requestsSize = false := by
  induction slots generalizing i with
  | nil => exact iff_of_true rfl ⟨hi, by simp⟩
  | cons slot slots ih =>
      rw [requestingLoop, List.length_cons, List.forall_mem_cons]
      by_cases hslot : slot.requestsSize = true
      · simp [hslot]
      · rw [if_neg hslot]
        rw [Bool.not_eq_true] at hslot
        by_cases hnext : i + 1 < 2 ^ 31
        · rw [if_pos hnext, ih hnext, Nat.add_right_comm, Nat.add_assoc]
          simp [hslot]
        · rw [if_neg hnext]
          refine iff_of_false (by simp) fun h => ?_
          omega

variable {a : KeySlots}

theorem KeySlots.requestingSizes_eq_true_iff :
    a.requestingSizes = some true ↔ a.Requesting := by
  rw [requestingSizes, Requesting]
  by_cases hnull : a.null = true
  · simp [hnull]
  · rw [if_neg hnull, requestingLoop_eq_true_iff (by omega), Nat.sub_zero]
    simp [hnull]

theorem KeySlots.requestingSizes_eq_false_iff :
    a.requestingSizes = some false ↔ a.Usable := by
  rw [requestingSizes, Usable]
  by_cases hnull : a.null = true
  · simp [hnull]
  · rw [if_neg hnull, requestingLoop_eq_false_iff (by omega), Nat.zero_add]
    simp [hnull]

theorem KeySlot.length_bytes_le (slot : KeySlot) : slot.bytes.length ≤ slot.ksize := by
  cases hbuffer : slot.buffer with
  | none => simp [bytes, hbuffer]
  | some b => simp [bytes, hbuffer, slot.length_buffer b hbuffer]

theorem KeySlot.length_bytes {slot : KeySlot} (h : slot.requestsSize = false) :
    slot.buffer = some slot.bytes ∧ slot.bytes.length = slot.ksize := by
  cases hbuffer : slot.buffer with
  | none => simp [requestsSize, hbuffer] at h
  | some b => simp [bytes, hbuffer, slot.length_buffer b hbuffer]

/-- The buffers that the client exposes have the announced sizes. -/
theorem KeySlots.Usable.ksizes (h : a.Usable) :
    a.slots.map KeySlot.ksize = (a.slots.map KeySlot.bytes).map List.length := by
  rw [List.map_map]
  apply List.map_congr_left
  intro slot hslot
  exact (KeySlot.length_bytes (h.2.2 slot hslot)).2.symm

theorem KeySlots.Usable.buffers (h : a.Usable) :
    a.slots.map KeySlot.buffer = (a.slots.map KeySlot.bytes).map some := by
  rw [List.map_map]
  apply List.map_congr_left
  intro slot hslot
  exact (KeySlot.length_bytes (h.2.2 slot hslot)).1

end Requesting

section Sizes

/-- An item is larger than its announced size. -/
def ItemExceeds (items : List Bulk) (sizes : List ℕ) : Prop :=
  ∃ (i : ℕ) (item : Bulk) (size : ℕ), items[i]? = some item ∧ sizes[i]? = some size ∧
    size < item.length

/-- The sizes that the handler sends back. -/
def reportedSizes (items : List Bulk) (maxKeys : ℕ) : List ℕ :=
  items.map List.length ++ List.replicate (maxKeys - items.length) 0

theorem itemsFit_iff {items olds : List Bulk} :
    ItemsFit items olds ↔ ¬ ItemExceeds items (olds.map List.length) := by
  constructor
  · rintro hfits ⟨i, item, size, hitem, hsize, hlt⟩
    rw [List.getElem?_map, Option.map_eq_some_iff] at hsize
    obtain ⟨old, hold, rfl⟩ := hsize
    exact absurd (hfits i item old hitem hold) (by omega)
  · intro hnot i item old hitem hold
    by_contra hlt
    exact hnot ⟨i, item, old.length, hitem, by rw [List.getElem?_map, hold]; rfl, by omega⟩

theorem length_foldl_set {α : Type*} (f : ℕ → α) (is : List ℕ) (l : List α) :
    (is.foldl (fun l i => l.set i (f i)) l).length = l.length := by
  induction is generalizing l with
  | nil => rfl
  | cons i is ih => rw [List.foldl_cons, ih, List.length_set]

theorem fst_actualSizes_eq {items : List Bulk} {sizes : List ℕ}
    (hlen : items.length ≤ sizes.length) :
    (actualSizes items (List.range items.length)
      (List.range' items.length (sizes.length - items.length)) sizes).1 =
      reportedSizes items sizes.length := by
  apply List.ext_getElem?
  intro j
  rw [fst_actualSizes, getElem?_foldl_set (fun _ => 0), getElem?_foldl_set, length_foldl_set,
    reportedSizes]
  simp only [List.mem_range'_1, List.mem_range]
  by_cases hj : j < items.length
  · rw [if_neg (by omega), if_pos (by omega), List.getElem?_append_left (by simpa using hj),
      List.getElem?_map, List.getElem?_eq_getElem hj, List.getD_eq_getElem?_getD,
      List.getElem?_eq_getElem hj]
    rfl
  · rw [List.getElem?_append_right (by rw [List.length_map]; omega), List.getElem?_replicate,
      List.length_map]
    by_cases hmax : j < sizes.length
    · rw [if_pos (by omega), if_pos (by omega)]
    · rw [if_neg (by omega), if_neg (by omega), if_neg (by omega),
        List.getElem?_eq_none (by omega)]

/-- The loop over distinct positions compares with the sizes that the client announced. -/
theorem snd_foldl_actualSizes {items : List Bulk} {js : List ℕ} (hjs : js.Nodup)
    (t : List ℕ × Bool) :
    (js.foldl (fun (t : List ℕ × Bool) i =>
        (t.1.set i (items.getD i []).length,
          t.2 || decide ((items.getD i []).length > t.1.getD i 0))) t).2 =
      (t.2 || js.any fun j => decide ((items.getD j []).length > t.1.getD j 0)) := by
  induction js generalizing t with
  | nil => simp
  | cons j js ih =>
      rw [List.nodup_cons] at hjs
      rw [List.foldl_cons, ih hjs.2, List.any_cons, Bool.or_assoc]
      have hrest : (js.any fun i => decide ((items.getD i []).length >
            (t.1.set j (items.getD j []).length).getD i 0)) =
          js.any fun i => decide ((items.getD i []).length > t.1.getD i 0) := by
        rw [Bool.eq_iff_iff, List.any_eq_true, List.any_eq_true]
        apply exists_congr
        intro i
        apply and_congr_right
        intro hi
        have hne : j ≠ i := fun h => hjs.1 (h ▸ hi)
        have hsize : (t.1.set j (items.getD j []).length).getD i 0 = t.1.getD i 0 := by
          simp only [List.getD_eq_getElem?_getD, List.getElem?_set_ne hne]
        rw [hsize]
      rw [hrest]

theorem snd_actualSizes_iff {items : List Bulk} {sizes : List ℕ}
    (hlen : items.length ≤ sizes.length) (rest : List ℕ) :
    (actualSizes items (List.range items.length) rest sizes).2 = true ↔
      ItemExceeds items sizes := by
  rw [actualSizes]
  simp only
  rw [snd_foldl_actualSizes List.nodup_range, Bool.false_or, List.any_eq_true]
  constructor
  · rintro ⟨i, hi, hlt⟩
    have hi := List.mem_range.1 hi
    have hitem := List.getElem?_eq_getElem hi
    have hsize := List.getElem?_eq_getElem (show i < sizes.length by omega)
    rw [decide_eq_true_eq, List.getD_eq_getElem?_getD, List.getD_eq_getElem?_getD, hitem,
      hsize] at hlt
    exact ⟨i, _, _, hitem, hsize, hlt⟩
  · rintro ⟨i, item, size, hitem, hsize, hlt⟩
    refine ⟨i, List.mem_range.2 (List.getElem?_eq_some_iff.1 hitem).1, ?_⟩
    rw [decide_eq_true_eq, List.getD_eq_getElem?_getD, List.getD_eq_getElem?_getD, hitem, hsize]
    exact hlt

end Sizes

section Answer

/-- Without exposed memory, the first key that is not empty cannot be pushed. -/
theorem pushItems_null (refused : ℕ) (sizes : List ℕ) {before : List Bulk}
    (hbefore : ∀ item ∈ before, item = []) (items : List Bulk) (remoteOffset : ℕ) :
    pushItems refused (before ++ items) sizes (List.range' before.length items.length)
        remoteOffset 0 [] =
      (if ∀ item ∈ items, item = [] then none else some refused, []) := by
  induction items generalizing before remoteOffset with
  | nil => simp [pushItems]
  | cons item items ih =>
      have hitem : (before ++ item :: items).getD before.length [] = item := by
        simp [List.getD_eq_getElem?_getD]
      rw [List.length_cons, List.range'_succ, pushItems]
      simp only [hitem]
      by_cases hnil : item = []
      · subst hnil
        have hsplit : before ++ [] :: items = (before ++ [[]]) ++ items := by simp
        have hbefore' : ∀ item ∈ before ++ [[]], item = [] := by
          intro item hitem
          rcases List.mem_append.1 hitem with h | h
          · exact hbefore item h
          · exact List.mem_singleton.1 h
        have hrest := ih hbefore' ((remoteOffset + sizes.getD before.length 0) % 2 ^ 64)
        rw [List.length_append, List.length_singleton, ← hsplit] at hrest
        simp only [List.length_nil, gt_iff_lt, Nat.lt_irrefl, if_false, Nat.add_zero,
          Nat.zero_mod, hrest, List.forall_mem_cons, true_and]
      · have hpos : item.length > 0 := List.length_pos_iff.2 hnil
        have hflat : before.flatten = [] := List.flatten_eq_nil_iff.2 hbefore
        have hdata : ((before ++ item :: items).flatten.drop 0).take item.length = item := by
          rw [List.drop_zero, List.flatten_append, hflat, List.nil_append, List.flatten_cons,
            List.take_left]
        have hwrite : writeBytes [] remoteOffset item = none := by
          by_contra hwrite
          rcases writeBytes_ne_none_iff.1 hwrite with h | h
          · exact hnil h
          · rw [List.length_nil] at h
            omega
        rw [if_pos hpos, hdata, hwrite, if_neg fun h => hnil (h item List.mem_cons_self)]

variable {calls : ListKeysCalls} {memory : KeysMemory} {keys listed : List Bulk}

theorem listKeysAnswer_of_nil (hlisted : keys.take memory.ksizes.length = []) :
    listKeysAnswer calls memory keys =
      some ({ nkeys := 0, ret := SdskvReturn.success.code }, memory) := by
  have hcount := congrArg List.length hlisted
  rw [List.length_take, List.length_nil, Nat.min_comm] at hcount
  rw [listKeysAnswer, if_pos hcount]

/-- The loop that clears the other sizes does not end if the counter cannot hold their
number. -/
theorem listKeysAnswer_of_ge (hlisted : keys.take memory.ksizes.length = listed)
    (hne : listed ≠ []) (hge : 2 ^ 32 ≤ memory.ksizes.length) :
    listKeysAnswer calls memory keys = none := by
  have hcount : min keys.length memory.ksizes.length = listed.length := by
    rw [← hlisted, List.length_take, Nat.min_comm]
  have hpos : listed.length ≠ 0 := fun h => hne (List.length_eq_zero_iff.1 h)
  have hrest : Loop.indicesFrom 32 (listed.length % 2 ^ 32) memory.ksizes.length = none :=
    if_neg (by omega)
  rw [listKeysAnswer]
  simp only [hcount, if_neg hpos, hrest]
  cases Loop.indices 32 listed.length with
  | none => rfl
  | some is => rfl

/-- The answer on the listed keys, when the counter can hold the number of sizes. -/
theorem listKeysAnswer_of_lt (hcalls : calls.Succeed)
    (hlisted : keys.take memory.ksizes.length = listed) (hne : listed ≠ [])
    (hlt : memory.ksizes.length < 2 ^ 32) :
    listKeysAnswer calls memory keys =
      let memory' := { memory with ksizes := reportedSizes listed memory.ksizes.length }
      if (actualSizes listed (List.range listed.length)
          (List.range' listed.length (memory.ksizes.length - listed.length))
          memory.ksizes).2 then
        some ({ nkeys := listed.length, ret := SdskvReturn.errSize.code }, memory')
      else
        match pushItems calls.refused listed memory.ksizes (List.range listed.length) 0 0
            (memory.keys.getD []) with
        | (some hret, pushed) =>
            some ({ nkeys := listed.length, ret := makeHgError hret },
              { memory' with keys := memory.keys.map fun _ => pushed })
        | (none, pushed) =>
            some ({ nkeys := listed.length, ret := SdskvReturn.success.code },
              { memory' with keys := memory.keys.map fun _ => pushed }) := by
  have hcount : min keys.length memory.ksizes.length = listed.length := by
    rw [← hlisted, List.length_take, Nat.min_comm]
  have hpos : listed.length ≠ 0 := fun h => hne (List.length_eq_zero_iff.1 h)
  have htake : keys.take listed.length = listed := by
    rw [← hcount]
    exact (List.take_eq_take_iff.2 (by omega)).trans hlisted
  have hmod : listed.length % 2 ^ 32 = listed.length := Nat.mod_eq_of_lt (by omega)
  have hindices : Loop.indices 32 listed.length = some (List.range listed.length) :=
    if_pos (by omega)
  have hrest : Loop.indicesFrom 32 listed.length memory.ksizes.length =
      some (List.range' listed.length (memory.ksizes.length - listed.length)) := if_pos hlt
  rw [listKeysAnswer]
  simp only [hcount, if_neg hpos, hmod, hindices, hrest, htake, hcalls.1.2, hcalls.2, ne_eq,
    not_true_eq_false, if_false, Option.bind_eq_bind, Option.bind_some,
    fst_actualSizes_eq (show listed.length ≤ memory.ksizes.length by omega)]

theorem length_le_of_take {n : ℕ} (hlisted : keys.take n = listed) : listed.length ≤ n := by
  rw [← hlisted, List.length_take]
  omega

theorem ItemExceeds.ne_nil {sizes : List ℕ} (h : ItemExceeds listed sizes) : listed ≠ [] := by
  rintro rfl
  obtain ⟨i, item, size, hitem, -⟩ := h
  cases hitem

/-- A key is too large: the handler sends the sizes and an error. -/
theorem listKeysAnswer_of_exceeds (hcalls : calls.Succeed)
    (hlisted : keys.take memory.ksizes.length = listed)
    (hlt : memory.ksizes.length < 2 ^ 32) (hexceeds : ItemExceeds listed memory.ksizes) :
    listKeysAnswer calls memory keys =
      some ({ nkeys := listed.length, ret := SdskvReturn.errSize.code },
        { memory with ksizes := reportedSizes listed memory.ksizes.length }) := by
  rw [listKeysAnswer_of_lt hcalls hlisted hexceeds.ne_nil hlt]
  exact if_pos ((snd_actualSizes_iff (length_le_of_take hlisted) _).2 hexceeds)

/-- All keys fit: the handler sends the sizes and pushes the keys. -/
theorem listKeysAnswer_of_fits (hcalls : calls.Succeed)
    (hlisted : keys.take memory.ksizes.length = listed) (hne : listed ≠ [])
    (hlt : memory.ksizes.length < 2 ^ 32) (hfits : ¬ ItemExceeds listed memory.ksizes)
    {failure : Option ℕ} {pushed : Bulk}
    (hpush : pushItems calls.refused listed memory.ksizes (List.range listed.length) 0 0
      (memory.keys.getD []) = (failure, pushed)) :
    listKeysAnswer calls memory keys =
      some ({ nkeys := listed.length
              ret := (failure.map makeHgError).getD SdskvReturn.success.code },
        { ksizes := reportedSizes listed memory.ksizes.length
          keys := memory.keys.map fun _ => pushed }) := by
  have hsmall := mt (snd_actualSizes_iff (length_le_of_take hlisted)
    (List.range' listed.length (memory.ksizes.length - listed.length))).1 hfits
  rw [listKeysAnswer_of_lt hcalls hlisted hne hlt]
  simp only [if_neg hsmall, hpush]
  cases failure with
  | none => rfl
  | some hret => rfl

end Answer

section Client

variable {σ : Type} {method : ListKeysMethod σ} {calls : ListKeysCalls} {dbs : Databases σ}
  {dbId : UInt64} {s : σ} {startKey keyPrefix : Bulk} {a : KeySlots} {keys listed : List Bulk}

/-- The memory that the client exposes. -/
def KeySlots.memory (a : KeySlots) (requestingSizes : Bool) : KeysMemory :=
  { ksizes := a.slots.map KeySlot.ksize
    keys := if requestingSizes then none else some (a.slots.map KeySlot.bytes).flatten }

@[simp] theorem KeySlots.length_memory (a : KeySlots) (r : Bool) :
    (a.memory r).ksizes.length = a.slots.length := by
  rw [memory, List.length_map]

/-- The client sees its own buffers where nothing has been pushed. -/
theorem KeySlots.result_memory {r : Bool} (hr : a.requestingSizes = some r) (out : ListKeysOut)
    (ksizes : List ℕ) :
    a.result out { a.memory r with ksizes := ksizes } =
      { ret := out.ret
        maxKeys := out.nkeys
        ksizes := ksizes
        keys := a.slots.map KeySlot.buffer } := by
  cases r with
  | true => rfl
  | false =>
      have husable := requestingSizes_eq_false_iff.1 hr
      have hcut : cutItems (a.slots.map KeySlot.bytes).flatten 0 (a.slots.map KeySlot.ksize) =
          a.slots.map KeySlot.bytes := by
        rw [husable.ksizes]
        apply cutItems_of_drop
        rw [List.drop_zero, List.append_nil]
      simp only [result, memory, Bool.false_eq_true, if_false, hcut, husable.buffers]

/-- The call on the keys that the database lists. -/
theorem sdskvListKeysWithPrefix_eq (hcalls : calls.Succeed) (hdb : dbs dbId = some s)
    (hlist : method.listKeys s startKey a.slots.length keyPrefix = some keys)
    (hslots : a.slots ≠ []) :
    sdskvListKeysWithPrefix method calls dbs dbId startKey keyPrefix a =
      a.requestingSizes.bind fun r =>
        (listKeysAnswer calls (a.memory r) keys).map fun t => a.result t.1 t.2 := by
  have hpos : ¬ a.slots.length = 0 := fun h => hslots (List.length_eq_zero_iff.1 h)
  rw [sdskvListKeysWithPrefix, if_neg hpos]
  cases a.requestingSizes with
  | none => rfl
  | some r =>
      simp only [sdskvListKeysUlt, hdb, hcalls.1.1, List.length_map, hlist, Option.bind_eq_bind,
        Option.bind_some, KeySlots.memory]
      cases listKeysAnswer calls _ keys with
      | none => rfl
      | some t => rfl

theorem requestingSizes_eq_none (husable : ¬ a.Usable) (hrequesting : ¬ a.Requesting) :
    a.slots ≠ [] ∧ a.requestingSizes = none := by
  constructor
  · intro hslots
    cases hnull : a.null with
    | true => exact hrequesting (Or.inl hnull)
    | false => exact husable ⟨hnull, by simp [hslots], by simp [hslots]⟩
  · cases hr : a.requestingSizes with
    | none => rfl
    | some r =>
        cases r with
        | true => exact absurd (KeySlots.requestingSizes_eq_true_iff.1 hr) hrequesting
        | false => exact absurd (KeySlots.requestingSizes_eq_false_iff.1 hr) husable

theorem exists_requestingSizes (h : a.Usable ∨ a.Requesting) :
    ∃ r, a.requestingSizes = some r := by
  rcases h with h | h
  · exact ⟨false, KeySlots.requestingSizes_eq_false_iff.2 h⟩
  · exact ⟨true, KeySlots.requestingSizes_eq_true_iff.2 h⟩

/-- The counter of the client overflows. -/
theorem sdskvListKeysWithPrefix_of_overflow (husable : ¬ a.Usable)
    (hrequesting : ¬ a.Requesting) :
    sdskvListKeysWithPrefix method calls dbs dbId startKey keyPrefix a = none := by
  obtain ⟨hslots, hnone⟩ := requestingSizes_eq_none husable hrequesting
  have hpos : ¬ a.slots.length = 0 := fun h => hslots (List.length_eq_zero_iff.1 h)
  rw [sdskvListKeysWithPrefix, if_neg hpos, hnone]
  rfl

theorem slots_ne_nil (hlisted : keys.take a.slots.length = listed) (hne : listed ≠ []) :
    a.slots ≠ [] := by
  rintro hslots
  rw [hslots, List.length_nil, List.take_zero] at hlisted
  exact hne hlisted.symm

/-- A loop of the handler does not end. -/
theorem sdskvListKeysWithPrefix_of_ge (hcalls : calls.Succeed) (hdb : dbs dbId = some s)
    (hlist : method.listKeys s startKey a.slots.length keyPrefix = some keys)
    (hlisted : keys.take a.slots.length = listed) (hne : listed ≠ [])
    (hge : 2 ^ 32 ≤ a.slots.length) :
    sdskvListKeysWithPrefix method calls dbs dbId startKey keyPrefix a = none := by
  rw [sdskvListKeysWithPrefix_eq hcalls hdb hlist (slots_ne_nil hlisted hne)]
  cases a.requestingSizes with
  | none => rfl
  | some r =>
      rw [Option.bind_some, listKeysAnswer_of_ge (by rwa [KeySlots.length_memory]) hne
        (by rwa [KeySlots.length_memory])]
      rfl

/-- Nothing is listed. -/
theorem sdskvListKeysWithPrefix_of_nil (hcalls : calls.Succeed) (hdb : dbs dbId = some s)
    (hlist : method.listKeys s startKey a.slots.length keyPrefix = some keys)
    (hlisted : keys.take a.slots.length = []) (h : a.Usable ∨ a.Requesting) :
    sdskvListKeysWithPrefix method calls dbs dbId startKey keyPrefix a =
      some
        { ret := SdskvReturn.success.code
          maxKeys := 0
          ksizes := a.slots.map KeySlot.ksize
          keys := a.slots.map KeySlot.buffer } := by
  by_cases hslots : a.slots = []
  · have hzero : a.slots.length = 0 := List.length_eq_zero_iff.2 hslots
    rw [sdskvListKeysWithPrefix, if_pos hzero]
  · obtain ⟨r, hr⟩ := exists_requestingSizes h
    rw [sdskvListKeysWithPrefix_eq hcalls hdb hlist hslots, hr, Option.bind_some,
      listKeysAnswer_of_nil (by rwa [KeySlots.length_memory]), Option.map_some]
    exact congrArg some (KeySlots.result_memory hr _ (a.memory r).ksizes)

/-- A key does not fit: the call reports the sizes. -/
theorem sdskvListKeysWithPrefix_of_exceeds (hcalls : calls.Succeed) (hdb : dbs dbId = some s)
    (hlist : method.listKeys s startKey a.slots.length keyPrefix = some keys)
    (hlisted : keys.take a.slots.length = listed) (h : a.Usable ∨ a.Requesting)
    (hlt : a.slots.length < 2 ^ 32) (hexceeds : ItemExceeds listed (a.slots.map KeySlot.ksize)) :
    sdskvListKeysWithPrefix method calls dbs dbId startKey keyPrefix a =
      some
        { ret := SdskvReturn.errSize.code
          maxKeys := listed.length
          ksizes := reportedSizes listed a.slots.length
          keys := a.slots.map KeySlot.buffer } := by
  obtain ⟨r, hr⟩ := exists_requestingSizes h
  rw [sdskvListKeysWithPrefix_eq hcalls hdb hlist (slots_ne_nil hlisted hexceeds.ne_nil), hr,
    Option.bind_some, listKeysAnswer_of_exceeds hcalls (by rwa [KeySlots.length_memory])
      (by rwa [KeySlots.length_memory]) hexceeds, Option.map_some, KeySlots.length_memory]
  exact congrArg some (KeySlots.result_memory hr _ _)

/-- The keys fit, and the client has exposed its buffers: they are filled. -/
theorem sdskvListKeysWithPrefix_of_usable (hcalls : calls.Succeed) (hdb : dbs dbId = some s)
    (hlist : method.listKeys s startKey a.slots.length keyPrefix = some keys)
    (hlisted : keys.take a.slots.length = listed) (hne : listed ≠ []) (h : a.Usable)
    (hfits : ¬ ItemExceeds listed (a.slots.map KeySlot.ksize)) :
    sdskvListKeysWithPrefix method calls dbs dbId startKey keyPrefix a =
      some
        { ret := SdskvReturn.success.code
          maxKeys := listed.length
          ksizes := reportedSizes listed a.slots.length
          keys := (fillBuffers listed (a.slots.map KeySlot.bytes)).map some } := by
  have hlt : a.slots.length < 2 ^ 32 := by
    have hint := h.2.1
    omega
  have hr := KeySlots.requestingSizes_eq_false_iff.2 h
  have hlen : listed.length ≤ (a.slots.map KeySlot.bytes).length := by
    rw [List.length_map]
    exact length_le_of_take hlisted
  have hitems : ItemsFit listed (a.slots.map KeySlot.bytes) := by
    rw [itemsFit_iff, ← h.ksizes]
    exact hfits
  have hpush := pushItems_eq_fillBuffers calls.refused hlen hitems a.bytes_lt
  have hcut := cutItems_fillBuffers hlen hitems
  rw [← h.ksizes] at hpush hcut
  rw [sdskvListKeysWithPrefix_eq hcalls hdb hlist (slots_ne_nil hlisted hne), hr,
    Option.bind_some, listKeysAnswer_of_fits hcalls (by rwa [KeySlots.length_memory]) hne
      (by rwa [KeySlots.length_memory]) hfits hpush, Option.map_some, KeySlots.length_memory]
  simp only [KeySlots.result, KeySlots.memory, Bool.false_eq_true, if_false, Option.map_some,
    Option.map_none, Option.getD_none, hcut]

/-- The keys fit, but the client has exposed no memory: only empty keys are no error. -/
theorem sdskvListKeysWithPrefix_of_requesting (hcalls : calls.Succeed)
    (hdb : dbs dbId = some s)
    (hlist : method.listKeys s startKey a.slots.length keyPrefix = some keys)
    (hlisted : keys.take a.slots.length = listed) (hne : listed ≠ []) (h : a.Requesting)
    (hlt : a.slots.length < 2 ^ 32) (hfits : ¬ ItemExceeds listed (a.slots.map KeySlot.ksize)) :
    sdskvListKeysWithPrefix method calls dbs dbId startKey keyPrefix a =
      some
        { ret := if ∀ key ∈ listed, key = [] then SdskvReturn.success.code
            else makeHgError calls.refused
          maxKeys := listed.length
          ksizes := reportedSizes listed a.slots.length
          keys := a.slots.map KeySlot.buffer } := by
  have hr := KeySlots.requestingSizes_eq_true_iff.2 h
  have hpush := pushItems_null calls.refused (a.slots.map KeySlot.ksize)
    (show ∀ item ∈ ([] : List Bulk), item = [] by simp) listed 0
  rw [List.nil_append, List.length_nil, ← List.range_eq_range'] at hpush
  rw [sdskvListKeysWithPrefix_eq hcalls hdb hlist (slots_ne_nil hlisted hne), hr,
    Option.bind_some, listKeysAnswer_of_fits hcalls (by rwa [KeySlots.length_memory]) hne
      (by rwa [KeySlots.length_memory]) hfits hpush, Option.map_some, KeySlots.length_memory]
  by_cases hempty : ∀ key ∈ listed, key = []
  · simp only [if_pos hempty]
    rfl
  · simp only [if_neg hempty]
    rfl

end Client

section Buffers

/-- The buffers of a client for keys: none of them is NULL or empty, and they lie in its
memory. -/
structure KeyBuffers where
  buffers : List Bulk
  ne_nil : ∀ b ∈ buffers, b ≠ []
  lt : buffers.flatten.length < 2 ^ 64

theorem map_bytes_ofBuffer (buffers : List Bulk) :
    (buffers.map KeySlot.ofBuffer).map KeySlot.bytes = buffers := by
  rw [List.map_map]
  exact List.map_id' buffers

theorem map_ksize_ofBuffer (buffers : List Bulk) :
    (buffers.map KeySlot.ofBuffer).map KeySlot.ksize = buffers.map List.length := by
  rw [List.map_map]
  rfl

/-- Buffers as the entries of the arrays. -/
def KeySlots.ofBuffers (buffers : List Bulk) (hlt : buffers.flatten.length < 2 ^ 64) :
    KeySlots where
  slots := buffers.map KeySlot.ofBuffer
  null := false
  buffer_of_null h := by cases h
  bytes_lt := by rwa [map_bytes_ofBuffer]

/-- The arrays `keys` and `ksizes`. -/
def KeyBuffers.slots (b : KeyBuffers) : KeySlots := KeySlots.ofBuffers b.buffers b.lt

theorem KeySlot.requestsSize_ofBuffer (b : Bulk) :
    (KeySlot.ofBuffer b).requestsSize = true ↔ b = [] := by
  simp [requestsSize, ofBuffer]

theorem KeySlots.usable_ofBuffers {buffers : List Bulk}
    {hlt : buffers.flatten.length < 2 ^ 64} :
    (ofBuffers buffers hlt).Usable ↔ buffers.length < 2 ^ 31 ∧ ∀ b ∈ buffers, b ≠ [] := by
  have hslot : ∀ b, (KeySlot.ofBuffer b).requestsSize = false ↔ b ≠ [] := by
    intro b
    rw [← Bool.not_eq_true, KeySlot.requestsSize_ofBuffer]
  simp [Usable, ofBuffers, hslot]

theorem KeyBuffers.not_requesting (b : KeyBuffers) : ¬ b.slots.Requesting := by
  rintro (hnull | ⟨slot, hslot, hrequests⟩)
  · cases hnull
  · obtain ⟨buffer, hbuffer, rfl⟩ := List.mem_map.1 (List.mem_of_mem_take hslot)
    exact b.ne_nil buffer hbuffer ((KeySlot.requestsSize_ofBuffer buffer).1 hrequests)

end Buffers

section Main

variable {σ : Type} {method : ListKeysMethod σ} {calls : ListKeysCalls} {dbs : Databases σ}
  {dbId : UInt64} {s : σ} {startKey keyPrefix : Bulk} {keys : List Bulk}

/-- What the documentation of the listing says: the buffers hold the keys and are otherwise as
they were, or a key does not fit, and then the sizes are reported and the buffers are left
alone. -/
structure ListKeysCorrect (listed buffers : List Bulk) (result : ListKeysResult) : Prop where
  count : result.maxKeys = listed.length
  success : ItemsFit listed buffers → result.ret = SdskvReturn.success.code
  ksizes : ItemsFit listed buffers → ∀ (i : ℕ) (key : Bulk), listed[i]? = some key →
    result.ksizes[i]? = some key.length
  keys : ItemsFit listed buffers → result.keys = (fillBuffers listed buffers).map some
  err : ¬ ItemsFit listed buffers → result.ret = SdskvReturn.errSize.code
  reported : ¬ ItemsFit listed buffers → result.ksizes =
    listed.map List.length ++ List.replicate (buffers.length - listed.length) 0
  untouched : ¬ ItemsFit listed buffers → result.keys = buffers.map some

/-- A listing of keys that fit. -/
theorem ListKeysCorrect.of_fits {listed buffers : List Bulk} {result : ListKeysResult}
    (hfits : ItemsFit listed buffers) (hcount : result.maxKeys = listed.length)
    (hret : result.ret = SdskvReturn.success.code)
    (hksizes : ∀ (i : ℕ) (key : Bulk), listed[i]? = some key →
      result.ksizes[i]? = some key.length)
    (hkeys : result.keys = (fillBuffers listed buffers).map some) :
    ListKeysCorrect listed buffers result where
  count := hcount
  success _ := hret
  ksizes _ := hksizes
  keys _ := hkeys
  err h := absurd hfits h
  reported h := absurd hfits h
  untouched h := absurd hfits h

/-- A listing with a key that does not fit. -/
theorem ListKeysCorrect.of_exceeds {listed buffers : List Bulk} {result : ListKeysResult}
    (hnot : ¬ ItemsFit listed buffers) (hcount : result.maxKeys = listed.length)
    (hret : result.ret = SdskvReturn.errSize.code)
    (hksizes : result.ksizes =
      listed.map List.length ++ List.replicate (buffers.length - listed.length) 0)
    (hkeys : result.keys = buffers.map some) : ListKeysCorrect listed buffers result where
  count := hcount
  success h := absurd h hnot
  ksizes h := absurd h hnot
  keys h := absurd h hnot
  err _ := hret
  reported _ := hksizes
  untouched _ := hkeys

theorem getElem?_reportedSizes {listed : List Bulk} (n : ℕ) {i : ℕ} {key : Bulk}
    (hkey : listed[i]? = some key) : (reportedSizes listed n)[i]? = some key.length := by
  have hi : i < (listed.map List.length).length := by
    rw [List.length_map]
    exact (List.getElem?_eq_some_iff.1 hkey).1
  rw [reportedSizes, List.getElem?_append_left hi, List.getElem?_map, hkey]
  rfl

/-- A listing into buffers that can all be used is as documented if the counter of the client
can hold their number. -/
theorem listKeysCorrect_of_lt (hcalls : calls.Succeed) (hdb : dbs dbId = some s)
    {b : KeyBuffers}
    (hlist : method.listKeys s startKey b.buffers.length keyPrefix = some keys)
    (hlt : b.buffers.length < 2 ^ 31) :
    ∃ result,
      sdskvListKeysWithPrefix method calls dbs dbId startKey keyPrefix b.slots = some result ∧
        ListKeysCorrect (keys.take b.buffers.length) b.buffers result := by
  have husable : b.slots.Usable := KeySlots.usable_ofBuffers.2 ⟨hlt, b.ne_nil⟩
  have hlength : b.slots.slots.length = b.buffers.length := List.length_map _
  have hbytes : b.slots.slots.map KeySlot.bytes = b.buffers := map_bytes_ofBuffer b.buffers
  have hksizes : b.slots.slots.map KeySlot.ksize = b.buffers.map List.length :=
    map_ksize_ofBuffer b.buffers
  have hbuffers : b.slots.slots.map KeySlot.buffer = b.buffers.map some := by
    rw [husable.buffers, hbytes]
  rw [← hlength] at hlist
  generalize hlisted : keys.take b.buffers.length = listed
  rw [← hlength] at hlisted
  by_cases hfits : ItemsFit listed b.buffers
  · have hnot : ¬ ItemExceeds listed (b.slots.slots.map KeySlot.ksize) := by
      rw [hksizes]
      exact itemsFit_iff.1 hfits
    by_cases hnil : listed = []
    · subst hnil
      rw [sdskvListKeysWithPrefix_of_nil hcalls hdb hlist hlisted (Or.inl husable)]
      refine ⟨_, rfl, .of_fits hfits rfl rfl ?_ hbuffers⟩
      intro i key hkey
      cases hkey
    · rw [sdskvListKeysWithPrefix_of_usable hcalls hdb hlist hlisted hnil husable hnot]
      refine ⟨_, rfl, .of_fits hfits rfl rfl ?_ ?_⟩
      · exact fun i key hkey => getElem?_reportedSizes _ hkey
      · rw [hbytes]
  · have hexceeds : ItemExceeds listed (b.slots.slots.map KeySlot.ksize) := by
      rw [hksizes]
      exact not_not.1 (mt itemsFit_iff.2 hfits)
    rw [sdskvListKeysWithPrefix_of_exceeds hcalls hdb hlist hlisted (Or.inl husable)
      (by omega) hexceeds]
    refine ⟨_, rfl, .of_exceeds hfits rfl rfl ?_ hbuffers⟩
    rw [hlength]
    rfl

/-- The listing of empty keys into 0-sized buffers: the client takes the call for a request of
the sizes. -/
theorem sdskvListKeysWithPrefix_of_empty (hcalls : calls.Succeed) (hdb : dbs dbId = some s)
    {slots : List Bulk} (hbytes : slots.flatten.length < 2 ^ 64)
    (hlist : method.listKeys s startKey slots.length keyPrefix = some keys)
    (hkeys : ∀ key ∈ keys.take slots.length, key = []) (hslots : ∀ b ∈ slots, b = [])
    (hne : slots ≠ []) (hlt : slots.length < 2 ^ 32) :
    ∃ r, sdskvListKeysWithPrefix method calls dbs dbId startKey keyPrefix
        (KeySlots.ofBuffers slots hbytes) = some r ∧
      r.ret = SdskvReturn.success.code ∧
      r.maxKeys = (keys.take slots.length).length ∧
      (∀ (i : ℕ) (key : Bulk), (keys.take slots.length)[i]? = some key →
        r.ksizes[i]? = some key.length) ∧
      r.keys = slots.map some := by
  have hlength : (KeySlots.ofBuffers slots hbytes).slots.length = slots.length :=
    List.length_map _
  have hksizes : (KeySlots.ofBuffers slots hbytes).slots.map KeySlot.ksize =
      slots.map List.length := map_ksize_ofBuffer slots
  have hbuffers : (KeySlots.ofBuffers slots hbytes).slots.map KeySlot.buffer =
      slots.map some := List.map_map
  have hrequesting : (KeySlots.ofBuffers slots hbytes).Requesting := by
    obtain ⟨b, rest, rfl⟩ := List.exists_cons_of_ne_nil hne
    refine Or.inr ⟨KeySlot.ofBuffer b, List.mem_cons_self, ?_⟩
    rw [KeySlot.requestsSize_ofBuffer]
    exact hslots b List.mem_cons_self
  have hfits : ItemsFit (keys.take slots.length) slots :=
    itemsFit_of_length (fun key hkey => (congrArg List.length (hkeys key hkey)).le)
      fun b hb => congrArg List.length (hslots b hb)
  have hnot : ¬ ItemExceeds (keys.take slots.length)
      ((KeySlots.ofBuffers slots hbytes).slots.map KeySlot.ksize) := by
    rw [hksizes]
    exact itemsFit_iff.1 hfits
  rw [← hbuffers]
  rw [← hlength] at hlist hlt
  by_cases hnil : keys.take slots.length = []
  · refine ⟨_, sdskvListKeysWithPrefix_of_nil hcalls hdb hlist (by rw [hlength, hnil])
      (Or.inr hrequesting), rfl, ?_, ?_, rfl⟩
    · rw [hnil]
      rfl
    · intro i key hkey
      rw [hnil] at hkey
      cases hkey
  · refine ⟨_, sdskvListKeysWithPrefix_of_requesting hcalls hdb hlist (by rw [hlength]) hnil
      hrequesting hlt hnot, if_pos hkeys, rfl, ?_, rfl⟩
    exact fun i key hkey => getElem?_reportedSizes _ hkey

/-- Keys that fit are listed, with buffers of any size. -/
theorem sdskvListKeysWithPrefix_of_fits (hcalls : calls.Succeed) (hdb : dbs dbId = some s)
    {keyCapacity : ℕ} {slots : List Bulk} (hbytes : slots.flatten.length < 2 ^ 64)
    (hlist : method.listKeys s startKey slots.length keyPrefix = some keys)
    (hkeys : ∀ key ∈ keys, key.length ≤ keyCapacity)
    (hslots : ∀ b ∈ slots, b.length = keyCapacity) (hne : slots ≠ [])
    (hlt : slots.length < 2 ^ 32) (hint : slots.length < 2 ^ 31 ∨ keyCapacity = 0) :
    ∃ r, sdskvListKeysWithPrefix method calls dbs dbId startKey keyPrefix
        (KeySlots.ofBuffers slots hbytes) = some r ∧
      r.ret = SdskvReturn.success.code ∧
      r.maxKeys = (keys.take slots.length).length ∧
      (∀ (i : ℕ) (key : Bulk), (keys.take slots.length)[i]? = some key →
        r.ksizes[i]? = some key.length) ∧
      r.keys = (fillBuffers (keys.take slots.length) slots).map some := by
  have hlisted : ∀ key ∈ keys.take slots.length, key.length ≤ keyCapacity :=
    fun key hkey => hkeys key (List.mem_of_mem_take hkey)
  by_cases hzero : keyCapacity = 0
  · have hempty : ∀ key ∈ keys.take slots.length, key = [] := fun key hkey =>
      List.eq_nil_of_length_eq_zero (by have hle := hlisted key hkey; omega)
    rw [fillBuffers_of_nil (List.length_take_le _ _) hempty]
    exact sdskvListKeysWithPrefix_of_empty hcalls hdb hbytes hlist hempty
      (fun b hb => List.eq_nil_of_length_eq_zero (by rw [hslots b hb, hzero])) hne hlt
  · have hfits := itemsFit_of_length hlisted hslots
    obtain ⟨r, hr, hcorrect⟩ := listKeysCorrect_of_lt (b :=
      { buffers := slots
        ne_nil := fun b hb hnil => hzero (by rw [← hslots b hb, hnil]; rfl)
        lt := hbytes }) hcalls hdb hlist (hint.resolve_right hzero)
    exact ⟨r, hr, hcorrect.success hfits, hcorrect.count, hcorrect.ksizes hfits,
      hcorrect.keys hfits⟩

/-- With more buffers than its counter can hold, the client does not come to its call. -/
theorem sdskvListKeysWithPrefix_of_many {b : KeyBuffers} (hge : 2 ^ 31 ≤ b.buffers.length) :
    sdskvListKeysWithPrefix method calls dbs dbId startKey keyPrefix b.slots = none := by
  apply sdskvListKeysWithPrefix_of_overflow _ b.not_requesting
  intro husable
  have hlt := (KeySlots.usable_ofBuffers.1 husable).1
  omega

/-- A listing into buffers that can all be used is as documented exactly when the counter of
the client can hold their number. -/
theorem listKeysCorrect_iff (hcalls : calls.Succeed) (hdb : dbs dbId = some s)
    (b : KeyBuffers)
    (hlist : method.listKeys s startKey b.buffers.length keyPrefix = some keys) :
    (∃ result,
      sdskvListKeysWithPrefix method calls dbs dbId startKey keyPrefix b.slots = some result ∧
        ListKeysCorrect (keys.take b.buffers.length) b.buffers result) ↔
      b.buffers.length < 2 ^ 31 := by
  constructor
  · rintro ⟨result, hresult, -⟩
    by_contra hge
    rw [sdskvListKeysWithPrefix_of_many (by omega)] at hresult
    cases hresult
  · exact listKeysCorrect_of_lt hcalls hdb hlist

/-- Two buffers of two bytes. -/
def twoByteBuffers : KeyBuffers where
  buffers := [[0, 0], [0, 0]]
  ne_nil := by simp
  lt := by simp

theorem listKeysCorrect_byteKey :
    ∃ result,
      sdskvListKeysWithPrefix mapListKeys .succeeding
        (oneDatabase (singleEntry false [1] [2]).1) 5 [] [] twoByteBuffers.slots = some result ∧
      ListKeysCorrect [[1]] [[0, 0], [0, 0]] result := by
  have hdb : oneDatabase (singleEntry false [1] [2]).1 5 = some (singleEntry false [1] [2]).1 :=
    rfl
  have hlist : mapListKeys.listKeys (singleEntry false [1] [2]).1 [] 2 [] = some [[1]] := rfl
  exact (listKeysCorrect_iff ListKeysCalls.succeed_succeeding hdb twoByteBuffers hlist).2
    (by decide)

/-- As many buffers of one byte as an `int` cannot count. -/
def manyBuffers : KeyBuffers where
  buffers := List.replicate (2 ^ 31) [0]
  ne_nil b hb := by
    rw [List.eq_of_mem_replicate hb]
    simp
  lt := by
    rw [List.length_flatten, List.map_replicate, List.sum_replicate_nat]
    decide

/-- The counter overflows, although the only key would fit. -/
theorem not_listKeysCorrect_manyBuffers :
    mapListKeys.listKeys (singleEntry false [1] [2]).1 [] (2 ^ 31) [] = some [[1]] ∧
    ¬ ∃ result,
      sdskvListKeysWithPrefix mapListKeys .succeeding
        (oneDatabase (singleEntry false [1] [2]).1) 5 [] [] manyBuffers.slots = some result ∧
      ListKeysCorrect [[1]] manyBuffers.buffers result := by
  refine ⟨rfl, ?_⟩
  rintro ⟨result, hresult, -⟩
  have hlength : manyBuffers.buffers.length = 2 ^ 31 := List.length_replicate
  rw [sdskvListKeysWithPrefix_of_many (Nat.le_of_eq hlength.symm)] at hresult
  cases hresult

end Main

end Sdskv
