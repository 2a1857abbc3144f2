import Sdskv.Client.ListKeys
import Sdskv.Rpc.ListKeyvals

/-!
# Listing pairs into objects of the client

`client::list_keyvals` lists pairs into the objects of two vectors. It makes a second request when
the first is answered with `SDSKV_ERR_SIZE`, but `sdskv_list_keyvals_ult` never answers so: its
return value is set to success after the pairs were pushed. An item that is larger than its object
is pushed over the objects behind it, which get their own items afterwards. So the object has the
first bytes of the item, and the resize makes up for the others with zeros.
-/

namespace Sdskv

open Wire

/-- An item that went through a buffer of `size` bytes and has been resized to its length. -/
def cutToBuffer (size : ℕ) (item : Bulk) : Bulk :=
  item.take size ++ List.replicate (item.length - size) 0

/-- The pushes of the items, each to the place of its buffer, stay inside of the exposed memory. -/
def PushedInside (total : ℕ) : ℕ → List Bulk → List ℕ → Prop
  | offset, item :: items, size :: sizes =>
      (item = [] ∨ offset + item.length ≤ total) ∧
        PushedInside total (offset + size) items sizes
  | _, _, _ => True

section Push

theorem cutToBuffer_eq_iff (size : ℕ) (item : Bulk) :
    cutToBuffer size item = item ↔ ∀ b ∈ item.drop size, b = 0 := by
  have hzeros : cutToBuffer size item = item ↔
      List.replicate (item.length - size) 0 = item.drop size := by
    have hcancel := List.append_cancel_left_eq (item.take size)
      (List.replicate (item.length - size) 0) (item.drop size)
    rw [List.take_append_drop] at hcancel
    exact Iff.of_eq hcancel
  rw [hzeros, eq_comm, List.eq_replicate_iff, List.length_drop]
  exact and_iff_right rfl

/-- A buffer of `size` bytes that begins with what fits of an item, resized to its length. -/
theorem ValueObject.content_withBuffer_cutToBuffer (v : ValueObject) {b item : Bulk}
    (hstart : item.take b.length <+: b) :
    ((v.withBuffer (some b)).resize item.length).content = cutToBuffer b.length item := by
  have htake : b.take item.length = item.take b.length := by
    obtain ⟨rest, hrest⟩ := hstart
    by_cases hle : item.length ≤ b.length
    · rw [List.take_of_length_le hle] at hrest ⊢
      rw [← hrest, List.take_left]
    · have hfull : (item.take b.length).length = b.length := by
        rw [List.length_take]
        omega
      have hb : item.take b.length = b := List.IsPrefix.eq_of_length ⟨rest, hrest⟩ hfull
      rw [hb, List.take_of_length_le (by omega)]
  simp only [withBuffer, allocated, resize, htake, cutToBuffer]

/-- One iteration of the loop that pushes the items. -/
theorem pushItems_cons (refused : ℕ) {before after : List Bulk} {sizes rest : List ℕ}
    (hlen : before.length = sizes.length) {item : Bulk} {size : ℕ}
    (hsizes : (sizes ++ [size]).sum < 2 ^ 64) (hitems : (before ++ [item]).flatten.length < 2 ^ 64)
    (memory : Bulk) :
    pushItems refused (before ++ item :: after) (sizes ++ size :: rest)
        (List.range' before.length (item :: after).length) sizes.sum before.flatten.length memory =
      match writeBytes memory sizes.sum item with
      | none => (some refused, memory)
      | some memory =>
          pushItems refused (before ++ [item] ++ after) (sizes ++ [size] ++ rest)
            (List.range' (before ++ [item]).length after.length) (sizes ++ [size]).sum
            (before ++ [item]).flatten.length memory := by
  have hitem : (before ++ item :: after).getD before.length [] = item := by
    simp [List.getD_eq_getElem?_getD]
  have hsize : (sizes ++ size :: rest).getD before.length 0 = size := by
    simp [List.getD_eq_getElem?_getD, hlen]
  have hremote : (sizes.sum + size) % 2 ^ 64 = (sizes ++ [size]).sum := by
    rw [List.sum_append, List.sum_singleton] at hsizes ⊢
    exact Nat.mod_eq_of_lt hsizes
  have hlocal : (before.flatten.length + item.length) % 2 ^ 64 =
      (before ++ [item]).flatten.length := by
    rw [List.flatten_append, List.length_append, List.flatten_singleton] at hitems ⊢
    exact Nat.mod_eq_of_lt hitems
  have hdata : ((before ++ item :: after).flatten.drop before.flatten.length).take item.length =
      item := by
    rw [List.flatten_append, List.drop_left, List.flatten_cons, List.take_left]
  rw [List.length_cons, List.range'_succ, pushItems]
  simp only [hitem, hsize, hremote, hlocal, hdata, List.append_assoc, List.singleton_append,
    List.length_append, List.length_singleton]
  by_cases hpos : item.length > 0
  · refine (if_pos hpos).trans ?_
    cases writeBytes memory sizes.sum item <;> rfl
  · have hnil : item = [] := List.length_eq_zero_iff.1 (by omega)
    subst hnil
    rw [if_neg hpos, writeBytes_nil]

/-- Pushes that stay inside leave in each buffer what fits of its item, and nothing changes in
front of them. -/
theorem pushItems_inside (refused : ℕ) {before items : List Bulk} {sizes rest : List ℕ}
    (hlen : before.length = sizes.length) {memory : Bulk}
    (hsizes : (sizes ++ rest).sum ≤ memory.length) (hlt : memory.length < 2 ^ 64)
    (hitems : (before ++ items).flatten.length < 2 ^ 64) (hrest : items.length ≤ rest.length)
    (hinside : PushedInside memory.length sizes.sum items rest) :
    ∃ memory', pushItems refused (before ++ items) (sizes ++ rest)
          (List.range' before.length items.length) sizes.sum before.flatten.length memory =
        (none, memory') ∧
      memory'.take sizes.sum = memory.take sizes.sum ∧
      ∀ (i : ℕ) (item : Bulk) (size : ℕ), items[i]? = some item → rest[i]? = some size →
        ∃ b, (cutItems memory' sizes.sum rest)[i]? = some b ∧ b.length = size ∧
          item.take size <+: b := by
  induction items generalizing before sizes rest memory with
  | nil => exact ⟨memory, rfl, rfl, fun i item size hitem => by cases hitem⟩
  | cons item items ih =>
      cases rest with
      | nil => simp at hrest
      | cons size rest =>
          obtain ⟨hroom, hinside⟩ := hinside
          have hsum : (sizes ++ [size]).sum = sizes.sum + size := by simp
          have hsizes' : (sizes ++ [size] ++ rest).sum ≤ memory.length := by simpa using hsizes
          have hend : sizes.sum + size ≤ memory.length := by
            rw [List.sum_append, hsum] at hsizes'
            omega
          have hitems' : (before ++ [item] ++ items).flatten.length < 2 ^ 64 := by
            simpa using hitems
          have hitem : (before ++ [item]).flatten.length < 2 ^ 64 := by
            rw [List.flatten_append, List.length_append] at hitems'
            omega
          obtain ⟨written, hwrite⟩ :=
            Option.ne_none_iff_exists'.1 (writeBytes_ne_none_iff.2 hroom)
          have hlength := length_writeBytes hwrite
          have hlen' : (before ++ [item]).length = (sizes ++ [size]).length := by simpa using hlen
          have hwritten : (sizes ++ [size] ++ rest).sum ≤ written.length := by rwa [hlength]
          have hinside' : PushedInside written.length (sizes ++ [size]).sum items rest := by
            rwa [hlength, hsum]
          obtain ⟨memory', hpush, htake, hcut⟩ := ih hlen' hwritten (by rwa [hlength]) hitems'
            (by simpa using hrest) hinside'
          refine ⟨memory', ?_, ?_, ?_⟩
          · rw [pushItems_cons refused hlen (by omega) hitem, hwrite]
            exact hpush
          · have hfront := congrArg (List.take sizes.sum) htake
            rw [List.take_take, List.take_take, hsum, Nat.min_eq_left (by omega)] at hfront
            rw [hfront, take_writeBytes hwrite le_rfl]
          · intro i item' size' hitem' hsize'
            cases i with
            | zero =>
                cases hitem'
                cases hsize'
                -- the later pushes keep the buffer of the first item
                rw [hsum] at htake
                have hbuffer : (memory'.drop sizes.sum).take size =
                    (written.drop sizes.sum).take size := by
                  rw [List.take_drop, htake, ← List.take_drop]
                have hfull : ((written.drop sizes.sum).take size).length = size := by
                  rw [List.length_take, List.length_drop]
                  omega
                refine ⟨_, rfl, by rw [hbuffer, hfull], ?_⟩
                obtain ⟨tail, htail⟩ := prefix_drop_writeBytes hwrite (by omega)
                rw [hbuffer, ← htail, List.take_append]
                exact List.prefix_append _ _
            | succ i =>
                rw [hsum] at hcut
                exact hcut i item' size' hitem' hsize'

/-- A push that does not stay inside fails. -/
theorem pushItems_outside (refused : ℕ) {before items : List Bulk} {sizes rest : List ℕ}
    (hlen : before.length = sizes.length) {memory : Bulk}
    (hsizes : (sizes ++ rest).sum ≤ memory.length) (hlt : memory.length < 2 ^ 64)
    (hitems : (before ++ items).flatten.length < 2 ^ 64)
    (hinside : ¬ PushedInside memory.length sizes.sum items rest) :
    ∃ memory', pushItems refused (before ++ items) (sizes ++ rest)
        (List.range' before.length items.length) sizes.sum before.flatten.length memory =
      (some refused, memory') := by
  induction items generalizing before sizes rest memory with
  | nil => exact absurd trivial hinside
  | cons item items ih =>
      cases rest with
      | nil => exact absurd trivial hinside
      | cons size rest =>
          have hsum : (sizes ++ [size]).sum = sizes.sum + size := by simp
          have hsizes' : (sizes ++ [size] ++ rest).sum ≤ memory.length := by simpa using hsizes
          have hitems' : (before ++ [item] ++ items).flatten.length < 2 ^ 64 := by
            simpa using hitems
          have hsize : (sizes ++ [size]).sum < 2 ^ 64 := by
            rw [List.sum_append] at hsizes'
            omega
          have hitem : (before ++ [item]).flatten.length < 2 ^ 64 := by
            rw [List.flatten_append, List.length_append] at hitems'
            omega
          rw [pushItems_cons refused hlen hsize hitem]
          cases hwrite : writeBytes memory sizes.sum item with
          | none => exact ⟨memory, rfl⟩
          | some written =>
              have hlength := length_writeBytes hwrite
              have hroom : item = [] ∨ sizes.sum + item.length ≤ memory.length := by
                rw [← writeBytes_ne_none_iff, hwrite]
                exact Option.some_ne_none written
              apply ih (by simpa using hlen) (by rwa [hlength]) (by rwa [hlength]) hitems'
              rw [hlength, hsum]
              exact fun hrest => hinside ⟨hroom, hrest⟩

end Push

/-- The pushes of the listed keys and values stay inside of the exposed memory. -/
def PairsInside (listed : List (Bulk × Bulk)) (buffers : ListBuffers) : Prop :=
  PushedInside buffers.keys.flatten.length 0 (listed.map Prod.fst)
      (buffers.keys.map List.length) ∧
    PushedInside buffers.values.flatten.length 0 (listed.map Prod.snd)
      (buffers.values.map List.length)

/-- The buffers begin with what fits of their items. -/
def HoldCut (items olds buffers : List Bulk) : Prop :=
  ∀ (i : ℕ) (item old : Bulk), items[i]? = some item → olds[i]? = some old →
    ∃ b, buffers[i]? = some b ∧ b.length = old.length ∧ item.take old.length <+: b

section Answer

variable {calls : BulkCalls} {buffers : ListBuffers} {keyvals listed : List (Bulk × Bulk)}

theorem holdCut_cutItems (refused : ℕ) {items olds : List Bulk}
    (hlen : items.length ≤ olds.length) (hlt : olds.flatten.length < 2 ^ 64)
    (hitems : items.flatten.length < 2 ^ 64)
    (hinside : PushedInside olds.flatten.length 0 items (olds.map List.length)) :
    ∃ memory, pushItems refused items (olds.map List.length) (List.range items.length) 0 0
        olds.flatten = (none, memory) ∧
      HoldCut items olds (cutItems memory 0 (olds.map List.length)) := by
  have hnil : ([] : List Bulk).length = ([] : List ℕ).length := rfl
  obtain ⟨memory, hpush, -, hcut⟩ := pushItems_inside refused hnil
    (by rw [List.nil_append, ← List.length_flatten]) hlt (by simpa using hitems)
    (by simpa using hlen) (by simpa using hinside)
  rw [List.range_eq_range']
  refine ⟨memory, hpush, ?_⟩
  intro i item old hitem hold
  exact hcut i item old.length hitem (by rw [List.getElem?_map, hold]; rfl)

theorem pushItems_fails (refused : ℕ) {items olds : List Bulk}
    (hlt : olds.flatten.length < 2 ^ 64) (hitems : items.flatten.length < 2 ^ 64)
    (hinside : ¬ PushedInside olds.flatten.length 0 items (olds.map List.length)) :
    ∃ memory, pushItems refused items (olds.map List.length) (List.range items.length) 0 0
      olds.flatten = (some refused, memory) := by
  have hnil : ([] : List Bulk).length = ([] : List ℕ).length := rfl
  rw [List.range_eq_range']
  exact pushItems_outside refused hnil
    (by rw [List.nil_append, ← List.length_flatten]) hlt (by simpa using hitems)
    (by simpa using hinside)

/-- An empty listing leaves the memory alone. -/
theorem listKeyvalsAnswer_of_nil (hlisted : keyvals.take buffers.keys.length = []) :
    listKeyvalsAnswer calls buffers.memory keyvals =
      some ({ nkeys := 0, ret := SdskvReturn.success.code }, buffers.memory) := by
  have hmax : buffers.memory.ksizes.length = buffers.keys.length := List.length_map _
  have hcount := congrArg List.length hlisted
  rw [List.length_take, List.length_nil, Nat.min_comm] at hcount
  rw [listKeyvalsAnswer, hmax, hcount, if_pos rfl]

theorem length_listed_le (hlisted : keyvals.take buffers.keys.length = listed) :
    listed.length ≤ buffers.keys.length := by
  rw [← hlisted, List.length_take]
  omega

/-- What the handler answers when the pushes stay inside. -/
theorem listKeyvalsAnswer_inside (hcalls : calls.Succeed)
    (hlisted : keyvals.take buffers.keys.length = listed)
    (hends : listed = [] ∨ buffers.keys.length < 2 ^ 32)
    (hkeys : (listed.map Prod.fst).flatten.length < 2 ^ 64)
    (hvalues : (listed.map Prod.snd).flatten.length < 2 ^ 64)
    (hinside : PairsInside listed buffers) :
    ∃ out memory, listKeyvalsAnswer calls buffers.memory keyvals = some (out, memory) ∧
      out.ret = SdskvReturn.success.code ∧ out.nkeys = listed.length ∧
      (∀ (i : ℕ) (p : Bulk × Bulk), listed[i]? = some p →
        memory.ksizes[i]? = some p.1.length ∧ memory.vsizes[i]? = some p.2.length) ∧
      HoldCut (listed.map Prod.fst) buffers.keys
        (cutItems memory.keys 0 (buffers.keys.map List.length)) ∧
      HoldCut (listed.map Prod.snd) buffers.values
        (cutItems memory.values 0 (buffers.values.map List.length)) := by
  by_cases hnil : listed = []
  · subst hnil
    refine ⟨_, _, listKeyvalsAnswer_of_nil hlisted, rfl, rfl, ?_, ?_, ?_⟩
    · intro i p hp
      cases hp
    · intro i item old hitem
      cases hitem
    · intro i item old hitem
      cases hitem
  have hmax : buffers.memory.ksizes.length = buffers.keys.length := List.length_map _
  have hmax' : buffers.memory.vsizes.length = buffers.keys.length :=
    (List.length_map _).trans buffers.length_values
  have hlen := length_listed_le hlisted
  obtain ⟨rest, out, hrest, hcount, hanswer⟩ := listKeyvalsAnswer_of_lt hcalls
    (by rw [hmax, hlisted]) hnil (by rw [hmax]; exact hends.resolve_left hnil)
  obtain ⟨pushed, hpush, hcut⟩ := holdCut_cutItems calls.refused
    (by rwa [List.length_map]) buffers.keys_lt hkeys hinside.1
  obtain ⟨pushed', hpush', hcut'⟩ := holdCut_cutItems calls.refused
    (by rwa [List.length_map, buffers.length_values]) buffers.values_lt hvalues hinside.2
  rw [List.length_map] at hpush hpush'
  rw [hanswer, pushKeyvals_of_pushed hpush hpush']
  refine ⟨_, _, rfl, rfl, hcount, ?_, hcut, hcut'⟩
  intro i p hp
  constructor
  · exact getElem?_actualSizes (List.length_map _) (by rwa [hmax]) rest
      (by rw [List.getElem?_map, hp]; rfl) hrest
  · exact getElem?_actualSizes (List.length_map _) (by rwa [hmax']) rest
      (by rw [List.getElem?_map, hp]; rfl) hrest

/-- What it answers when one of them does not. -/
theorem listKeyvalsAnswer_outside (hcalls : calls.Succeed)
    (hlisted : keyvals.take buffers.keys.length = listed)
    (hends : listed = [] ∨ buffers.keys.length < 2 ^ 32)
    (hkeys : (listed.map Prod.fst).flatten.length < 2 ^ 64)
    (hvalues : (listed.map Prod.snd).flatten.length < 2 ^ 64)
    (hinside : ¬ PairsInside listed buffers) :
    ∃ out memory, listKeyvalsAnswer calls buffers.memory keyvals = some (out, memory) ∧
      out.ret = makeHgError calls.refused := by
  by_cases hnil : listed = []
  · subst hnil
    exact absurd ⟨trivial, trivial⟩ hinside
  have hmax : buffers.memory.ksizes.length = buffers.keys.length := List.length_map _
  have hlen := length_listed_le hlisted
  obtain ⟨rest, out, hrest, hcount, hanswer⟩ := listKeyvalsAnswer_of_lt hcalls
    (by rw [hmax, hlisted]) hnil (by rw [hmax]; exact hends.resolve_left hnil)
  rw [hanswer]
  by_cases hfirst : PushedInside buffers.keys.flatten.length 0 (listed.map Prod.fst)
      (buffers.keys.map List.length)
  · obtain ⟨pushed, hpush, -⟩ := holdCut_cutItems calls.refused
      (by rwa [List.length_map]) buffers.keys_lt hkeys hfirst
    obtain ⟨pushed', hpush'⟩ := pushItems_fails calls.refused buffers.values_lt hvalues
      fun hsecond => hinside ⟨hfirst, hsecond⟩
    rw [List.length_map] at hpush hpush'
    refine ⟨_, _, rfl, ?_⟩
    simp only [ListBuffers.memory, hpush, hpush']
  · obtain ⟨pushed, hpush⟩ := pushItems_fails calls.refused buffers.keys_lt hkeys hfirst
    rw [List.length_map] at hpush
    refine ⟨_, _, rfl, ?_⟩
    simp only [ListBuffers.memory, hpush]

end Answer

section Client

/-- The first objects of the two vectors as buffers; `none` if one of them is empty, or they do not
fit in memory. -/
def objectBuffers (keys values : List ValueObject) : Option ListBuffers :=
  let maxKeys := min keys.length values.length
  let kdata := (keys.take maxKeys).map ValueObject.content
  let vdata := (values.take maxKeys).map ValueObject.content
  if h : (∀ b ∈ kdata, b ≠ []) ∧ (∀ b ∈ vdata, b ≠ []) ∧ kdata.flatten.length < 2 ^ 64 ∧
      vdata.flatten.length < 2 ^ 64 then
    some
      { keys := kdata
        values := vdata
        length_values := by simp [kdata, vdata, maxKeys]
        keys_ne_nil := h.1
        values_ne_nil := h.2.1
        keys_lt := h.2.2.1
        values_lt := h.2.2.2 }
  else none

/-- The first `n` objects with their buffers, resized; `none` is an access outside of a vector. -/
def filledObjects (objs : List ValueObject) (n : ℕ) (buffers : List Bulk) (sizes : List ℕ) :
    Option (List ValueObject) :=
  (List.range n).mapM fun i => do
    let v ← objs[i]?
    let buffer ← buffers[i]?
    let size ← sizes[i]?
    some ((v.withBuffer (some buffer)).resize size)

/-- The two vectors after a listing. -/
def filledPairs (keys values : List ValueObject) (r : ListKeyvalsResult) :
    Option (List ValueObject × List ValueObject) := do
  let keys ← filledObjects keys r.maxKeys r.keys r.ksizes
  let values ← filledObjects values r.maxKeys r.values r.vsizes
  some (keys, values)

variable {σ : Type} (ds : AbstractDataStore σ) (calls : BulkCalls) (dbs : Databases σ)
  (dbId : UInt64) (startKey keyPrefix : Bulk)

/-- `client::list_keyvals`; `dbs'` are the databases at the second request, and an exception
carries the error code. `none` is a call that does not end, or an access outside of a vector. -/
def clientListKeyvals (calls' : BulkCalls) (dbs' : Databases σ) (keys values : List ValueObject) :
    Option (Except Int (List ValueObject × List ValueObject)) := do
  let buffers ← objectBuffers keys values
  let r ← sdskvListKeyvalsWithPrefix ds calls dbs dbId startKey keyPrefix buffers
  if r.ret = SdskvReturn.success.code then (filledPairs keys values r).map .ok
  else if r.ret = SdskvReturn.errSize.code then
    let (keys, values) ← filledPairs keys values r
    let buffers ← objectBuffers keys values
    let r ← sdskvListKeyvalsWithPrefix ds calls' dbs' dbId startKey keyPrefix buffers
    if r.ret = SdskvReturn.success.code then (filledPairs keys values r).map .ok
    else some (.error r.ret)
  else some (.error r.ret)

end Client

section Main

theorem objectBuffers_eq_some {keys values : List ValueObject} {buffers : ListBuffers}
    (h : objectBuffers keys values = some buffers) :
    buffers.keys = (keys.take (min keys.length values.length)).map ValueObject.content ∧
      buffers.values = (values.take (min keys.length values.length)).map ValueObject.content := by
  simp only [objectBuffers] at h
  split_ifs at h
  cases h
  exact ⟨rfl, rfl⟩

/-- Buffers that hold what fits of the items become objects with the cut items. -/
theorem filledObjects_of_holdCut {objs : List ValueObject} {n : ℕ} {items buffers : List Bulk}
    {sizes : List ℕ} (hlen : items.length ≤ n) (hn : n ≤ objs.length)
    (hcut : HoldCut items ((objs.take n).map ValueObject.content) buffers)
    (hsizes : ∀ (i : ℕ) (item : Bulk), items[i]? = some item → sizes[i]? = some item.length) :
    ∃ out, filledObjects objs items.length buffers sizes = some out ∧
      out.map ValueObject.content =
        List.zipWith cutToBuffer (objs.map fun v => v.content.length) items := by
  have hlength : (List.zipWith cutToBuffer (objs.map fun v => v.content.length) items).length =
      items.length := by
    rw [List.length_zipWith, List.length_map]
    omega
  rw [filledObjects, ← hlength]
  apply exists_mapM_range
  intro i cut hi
  obtain ⟨capacity, item, hcapacity, hitem, rfl⟩ := List.getElem?_zipWith_eq_some.1 hi
  rw [List.getElem?_map, Option.map_eq_some_iff] at hcapacity
  obtain ⟨v, hv, rfl⟩ := hcapacity
  have hlt : i < n := (List.getElem?_eq_some_iff.1 hitem).1.trans_le hlen
  obtain ⟨b, hb, hfull, hstart⟩ := hcut i item v.content hitem
    (by rw [List.getElem?_map, List.getElem?_take_of_lt hlt, hv]; rfl)
  rw [← hfull] at hstart ⊢
  refine ⟨_, ?_, v.content_withBuffer_cutToBuffer hstart⟩
  rw [hv, hb, hsizes i item hitem]
  rfl

theorem zipWith_cutToBuffer_eq_iff {capacities : List ℕ} {items : List Bulk}
    (hlen : items.length ≤ capacities.length) :
    List.zipWith cutToBuffer capacities items = items ↔
      ∀ q ∈ capacities.zip items, ∀ b ∈ q.2.drop q.1, b = 0 := by
  induction items generalizing capacities with
  | nil => simp
  | cons item items ih =>
      cases capacities with
      | nil => simp at hlen
      | cons capacity capacities =>
          rw [List.zipWith_cons_cons, List.cons.injEq, cutToBuffer_eq_iff,
            ih (by simpa using hlen), List.zip_cons_cons, List.forall_mem_cons]

variable {σ : Type} {ds : AbstractDataStore σ} {calls : BulkCalls} {dbs : Databases σ}
  {dbId : UInt64} {s : σ} {startKey keyPrefix : Bulk} {keys values : List ValueObject}
  {buffers : ListBuffers} {keyvals listed : List (Bulk × Bulk)}

/-- Nothing but zeros is cut off the listed keys and values. -/
def CutsZeros (keys values : List ValueObject) (listed : List (Bulk × Bulk)) : Prop :=
  (∀ q ∈ (keys.map fun v => v.content.length).zip (listed.map Prod.fst),
      ∀ b ∈ q.2.drop q.1, b = 0) ∧
    ∀ q ∈ (values.map fun v => v.content.length).zip (listed.map Prod.snd),
      ∀ b ∈ q.2.drop q.1, b = 0

/-- The vectors after a listing whose answer is known. -/
theorem filledPairs_of_answer (hbuffers : objectBuffers keys values = some buffers)
    {r : ListKeyvalsResult} (hlen : listed.length ≤ min keys.length values.length)
    (hcount : r.maxKeys = listed.length)
    (hsizes : ∀ (i : ℕ) (p : Bulk × Bulk), listed[i]? = some p →
      r.ksizes[i]? = some p.1.length ∧ r.vsizes[i]? = some p.2.length)
    (hkeys : HoldCut (listed.map Prod.fst) buffers.keys r.keys)
    (hvalues : HoldCut (listed.map Prod.snd) buffers.values r.values) :
    ∃ out, filledPairs keys values r = some out ∧
      out.1.map ValueObject.content =
        List.zipWith cutToBuffer (keys.map fun v => v.content.length) (listed.map Prod.fst) ∧
      out.2.map ValueObject.content =
        List.zipWith cutToBuffer (values.map fun v => v.content.length) (listed.map Prod.snd) := by
  obtain ⟨hkdata, hvdata⟩ := objectBuffers_eq_some hbuffers
  rw [hkdata] at hkeys
  rw [hvdata] at hvalues
  have hksizes : ∀ (i : ℕ) (key : Bulk), (listed.map Prod.fst)[i]? = some key →
      r.ksizes[i]? = some key.length := by
    intro i key hkey
    rw [List.getElem?_map, Option.map_eq_some_iff] at hkey
    obtain ⟨p, hp, rfl⟩ := hkey
    exact (hsizes i p hp).1
  have hvsizes : ∀ (i : ℕ) (value : Bulk), (listed.map Prod.snd)[i]? = some value →
      r.vsizes[i]? = some value.length := by
    intro i value hvalue
    rw [List.getElem?_map, Option.map_eq_some_iff] at hvalue
    obtain ⟨p, hp, rfl⟩ := hvalue
    exact (hsizes i p hp).2
  obtain ⟨keysOut, hkeysOut, hkeysContent⟩ := filledObjects_of_holdCut
    (by rwa [List.length_map]) (Nat.min_le_left _ _) hkeys hksizes
  obtain ⟨valuesOut, hvaluesOut, hvaluesContent⟩ := filledObjects_of_holdCut
    (by rwa [List.length_map]) (Nat.min_le_right _ _) hvalues hvsizes
  rw [List.length_map] at hkeysOut hvaluesOut
  refine ⟨(keysOut, valuesOut), ?_, hkeysContent, hvaluesContent⟩
  rw [filledPairs, hcount, hkeysOut, hvaluesOut]
  rfl

/-- Two objects of one byte. -/
def byteObjects : List ValueObject := [ValueObject.allocated [0], ValueObject.allocated [0]]

end Main

end Sdskv
