import Mathlib.Algebra.Order.BigOperators.Group.List
import Sdskv.Rpc.Backends
import Sdskv.Rpc.Multi

/-!
# The values of `sdskv_get_multi`

The client exposes a region with an array of the sizes that it has allocated. The handler
replaces each of them by the size of the value, or by zero when there is none or it is too
large, and packs the values behind the array; the client unpacks them with the sizes that
come back. So what the handler leaves is again an array of sizes in front of items of these
sizes, and the two offsets stay in step.
-/

namespace Sdskv

open Wire

/-- The memory of a client for one value: a buffer, and the size that it announces. -/
structure ValueSlot where
  buffer : Bulk
  vsize : ℕ
  vsize_le : vsize ≤ buffer.length
  vsize_lt : vsize < 2 ^ 64

/-- What a client sees of a `get_multi`: the return value, the contents of its buffers, the
sizes, and the size of the region that it has exposed for the values. -/
structure GetMultiResult where
  ret : Int
  values : List Bulk
  vsizes : List ℕ
  valsBulkSize : ℕ

/-- The input of `sdskv_get_multi` for the keys and buffers of its arrays; `none` when the
counter of the client overflows. -/
def getMultiIn (dbId : UInt64) (items : List (KvData × ValueSlot)) : Option GetMultiIn := do
  let keysIn ← multiKeysIn dbId (items.map Prod.fst)
  let vsizes := items.map fun q => q.2.vsize
  let size ← signedSum vsizes
  let valsBulkSize := (size + sizesBytes items.length) % 2 ^ 64
  let is ← Loop.signedIndices 32 items.length
  let valsBuffer ← Loop.through (fun i buffer => writeWord buffer (8 * i) (vsizes.getD i 0)) is
    (List.replicate valsBulkSize 0)
  some { keysIn with valsBulkHandle := [valsBuffer], valsBulkSize := valsBulkSize }

/-- The iteration of `sdskv_get_multi` over the values that have come back. -/
def unpackValue (i : ℕ) (value : Bulk) (t : List Bulk × List ℕ) :
    Option (List Bulk × List ℕ) := do
  let buffer ← t.1[i]?
  let buffer ← writeBytes buffer 0 value
  if i < t.2.length then some (t.1.set i buffer, t.2.set i value.length) else none

/-- `sdskv_get_multi`, when the calls of the client succeed. -/
def sdskvGetMulti {σ : Type} (ds : DatastoreReads σ) (calls : BulkCalls) (fuel : ℕ)
    (dbs : Databases σ) (dbId : UInt64) (items : List (KvData × ValueSlot)) :
    Loop.Run (GetMultiResult × Databases σ) :=
  let values := items.map fun q => q.2.buffer
  let vsizes := items.map fun q => q.2.vsize
  match getMultiIn dbId items with
  | none => .fault
  | some input =>
      (sdskvGetMultiUlt ds calls fuel dbs input).bind fun (out, dbs') =>
        if out.ret ≠ SdskvReturn.success.code then
          .done ({ ret := out.ret, values := values, vsizes := vsizes,
                   valsBulkSize := input.valsBulkSize }, dbs')
        else
          let valsBuffer := out.push ++ input.valsBulkHandle.flatten.drop out.push.length
          match Loop.signedIndices 32 items.length with
          | none => .fault
          | some is =>
              .ofOption ((Loop.through
                  (walkPacked valsBuffer (sizesBytes items.length) unpackValue) is
                  (0, values, vsizes)).map fun t =>
                ({ ret := out.ret, values := t.2.1, vsizes := t.2.2,
                   valsBulkSize := input.valsBulkSize }, dbs'))

/-- The value that the handler packs for a key. -/
def fittedValue (contents : Bulk → Option Bulk) (key : Bulk) (vsize : ℕ) : Bulk :=
  match contents key with
  | some w => if w.length ≤ vsize then w else []
  | none => []

theorem length_fittedValue_le (contents : Bulk → Option Bulk) (key : Bulk) (vsize : ℕ) :
    (fittedValue contents key vsize).length ≤ vsize := by
  unfold fittedValue
  split
  · split_ifs with h
    · exact h
    · exact Nat.zero_le vsize
  · exact Nat.zero_le vsize

section Server

variable {σ : Type} {ds : DatastoreReads σ} {view : σ → Bulk → Option Bulk}

/-- The handler packs the fitted value, whichever branch it takes. -/
theorem getMultiAct_eq (h : ServesReads ds view) (packed i : ℕ) (key : Bulk) (s : σ)
    (vals : Bulk) (offset : ℕ) :
    getMultiAct ds packed i key (s, vals, offset) =
      (readWord vals (8 * i)).bind fun vsize =>
        (writeWord vals (8 * i) (fittedValue (view s) key vsize).length).bind fun vals₁ =>
          (writeBytes vals₁ (packed + offset) (fittedValue (view s) key vsize)).bind
            fun vals₂ =>
              (readWord vals₂ (8 * i)).map fun advance =>
                ((ds.get s key).2, vals₂, offset + advance) := by
  rw [getMultiAct]
  cases hword : readWord vals (8 * i) with
  | none => rfl
  | some vsize =>
      -- no bytes are copied when there is no value that fits
      have hnone : fittedValue (view s) key vsize = [] →
          ((writeWord vals (8 * i) 0).bind fun vals₁ =>
            some ((ds.get s key).2, vals₁, offset)) =
          (writeWord vals (8 * i) (fittedValue (view s) key vsize).length).bind fun vals₁ =>
            (writeBytes vals₁ (packed + offset) (fittedValue (view s) key vsize)).bind
              fun vals₂ => (readWord vals₂ (8 * i)).map fun advance =>
                ((ds.get s key).2, vals₂, offset + advance) := by
        intro hfitted
        rw [hfitted, List.length_nil]
        cases hwrite : writeWord vals (8 * i) 0 with
        | none => rfl
        | some vals₁ =>
            simp only [Option.bind_some, writeBytes_nil,
              readWord_writeWord hwrite (by decide), Option.map_some, Nat.add_zero]
      obtain ⟨hget, -⟩ := h.get s key
      simp only [Option.bind_eq_bind, Option.bind_some]
      cases hdb : ds.get s key with
      | mk value s' =>
          rw [hdb] at hget hnone
          cases value with
          | none =>
              apply hnone
              rw [fittedValue, ← hget]
          | some w =>
              by_cases hlarge : w.length > vsize
              · simp only [if_pos hlarge]
                apply hnone
                rw [fittedValue, ← hget]
                exact if_neg (by omega)
              · have hfitted : fittedValue (view s) key vsize = w := by
                  rw [fittedValue, ← hget]
                  exact if_pos (by omega)
                simp only [if_neg hlarge, hfitted, Option.map_eq_bind, Function.comp_def]
/-- One iteration packs the value of a key behind those that are already there. -/
theorem getMultiAct_packed (h : ServesReads ds view) (s : σ) (key : Bulk) (before : List Bulk)
    {vsize : ℕ} (hvsize : vsize < 2 ^ 64) (after : List ℕ) {rest : Bulk}
    (hroom : vsize ≤ rest.length) {n : ℕ} (hn : n = before.length + 1 + after.length) :
    getMultiAct ds (8 * n) before.length key
        (s, arrayBytes 8 (before.map List.length ++ vsize :: after) ++ (before.flatten ++ rest),
          before.flatten.length) =
      some ((ds.get s key).2,
        arrayBytes 8 ((before ++ [fittedValue (view s) key vsize]).map List.length ++ after) ++
          ((before ++ [fittedValue (view s) key vsize]).flatten ++
            rest.drop (fittedValue (view s) key vsize).length),
        (before ++ [fittedValue (view s) key vsize]).flatten.length) := by
  have hread : ∀ v, v < 2 ^ 64 → ∀ tail,
      readWord (arrayBytes 8 (before.map List.length ++ v :: after) ++ tail)
        (8 * before.length) = some v := by
    intro v hv tail
    have h := readWord_arrayBytes (before.map List.length) after hv tail
    rwa [List.length_map] at h
  have hwrite : ∀ v tail,
      writeWord (arrayBytes 8 (before.map List.length ++ vsize :: after) ++ tail)
        (8 * before.length) v =
      some (arrayBytes 8 (before.map List.length ++ v :: after) ++ tail) := by
    intro v tail
    have h := writeWord_arrayBytes (before.map List.length) after vsize v tail
    rwa [List.length_map] at h
  have hfits : (fittedValue (view s) key vsize).length ≤ vsize :=
    length_fittedValue_le (view s) key vsize
  rw [getMultiAct_eq h, hread vsize hvsize, Option.bind_some, hwrite, Option.bind_some]
  generalize fittedValue (view s) key vsize = w at hfits
  have hlen : (rest.take w.length).length = w.length := by
    rw [List.length_take]
    omega
  have hoffset : 8 * n + before.flatten.length =
      (arrayBytes 8 (before.map List.length ++ w.length :: after) ++
        before.flatten).length := by
    rw [List.length_append, length_arrayBytes, List.length_append, List.length_map,
      List.length_cons, hn]
    omega
  have hcopy := writeBytes_append (rest.drop w.length) hoffset hlen
  rw [List.append_assoc _ (rest.take w.length), List.take_append_drop,
    List.append_assoc] at hcopy
  have hmap : (before ++ [w]).map List.length ++ after =
      before.map List.length ++ w.length :: after := by simp
  have hflatten : (before ++ [w]).flatten ++ rest.drop w.length =
      before.flatten ++ w ++ rest.drop w.length := by simp
  rw [hcopy, Option.bind_some, hmap, hflatten, List.append_assoc _ before.flatten,
    List.append_assoc _ (before.flatten ++ w), hread w.length (by omega)]
  simp

/-- The loop of the handler leaves the sizes and the values of all keys. -/
theorem forItems_getMultiAct (h : ServesReads ds view) {contents : Bulk → Option Bulk}
    (items : List (Bulk × ℕ)) (hlt : ∀ q ∈ items, q.2 < 2 ^ 64) {s : σ} (hs : view s = contents)
    (before : List Bulk) {rest : Bulk} (hroom : (items.map Prod.snd).sum ≤ rest.length) {n : ℕ}
    (hn : n = before.length + items.length) :
    ∃ s' rest', forItems (getMultiAct ds (8 * n)) before.length (items.map Prod.fst)
        (s, arrayBytes 8 (before.map List.length ++ items.map Prod.snd) ++
          (before.flatten ++ rest), before.flatten.length) =
      some (s', packItems (before ++ items.map fun q => fittedValue contents q.1 q.2) ++ rest',
        (before ++ items.map fun q => fittedValue contents q.1 q.2).flatten.length) := by
  induction items generalizing s before rest with
  | nil =>
      refine ⟨s, rest, ?_⟩
      simp [forItems, packItems]
  | cons q items ih =>
      rw [List.map_cons, List.sum_cons] at hroom
      have hstep := getMultiAct_packed h s q.1 before (hlt q List.mem_cons_self)
        (items.map Prod.snd) (show q.2 ≤ rest.length by omega) (n := n) (by
          rw [hn, List.length_cons, List.length_map]
          omega)
      rw [hs] at hstep
      have hfitted := length_fittedValue_le contents q.1 q.2
      obtain ⟨s', rest', hrest⟩ := ih (fun q' hq' => hlt q' (List.mem_cons_of_mem q hq'))
        ((h.get s q.1).2.trans hs) (before ++ [fittedValue contents q.1 q.2])
        (show _ ≤ (rest.drop (fittedValue contents q.1 q.2).length).length by
          rw [List.length_drop]; omega)
        (by rw [hn, List.length_append, List.length_cons, List.length_singleton]; omega)
      refine ⟨s', rest', ?_⟩
      rw [List.map_cons, List.map_cons, List.map_cons, forItems, hstep, Option.bind_some]
      simpa using hrest

end Server

section Client

variable (dbId : UInt64) (items : List (KvData × ValueSlot))

/-- The size of the region that a client exposes for the values. -/
def valsBytes : ℕ := 8 * items.length + (items.map fun q => q.2.vsize).sum

/-- The region that a client exposes for the values, with the sizes that it has allocated. -/
def valsRegion : Bulk :=
  arrayBytes 8 (items.map fun q => q.2.vsize) ++
    List.replicate (items.map fun q => q.2.vsize).sum 0

/-- The loop that stores the sizes in front of a buffer. -/
theorem through_writeWord (sizes : List ℕ) (m : ℕ) :
    Loop.through (fun i buffer => writeWord buffer (8 * i) (sizes.getD i 0))
        (List.range sizes.length) (List.replicate (8 * sizes.length + m) 0) =
      some (arrayBytes 8 sizes ++ List.replicate m 0) := by
  obtain ⟨buffer, hthrough, hbuffer⟩ := Loop.through_invariant
    (fun i buffer => writeWord buffer (8 * i) (sizes.getD i 0)) (n := sizes.length)
    (fun i buffer => buffer = arrayBytes 8 (sizes.take i ++
      List.replicate (sizes.length - i) 0) ++ List.replicate m 0)
    (fun i buffer hi hbuffer => by
      have hzeros : List.replicate (sizes.length - i) 0 =
          0 :: List.replicate (sizes.length - (i + 1)) 0 := by
        rw [← List.replicate_succ]
        congr 1
        omega
      have hwrite := writeWord_arrayBytes (sizes.take i)
        (List.replicate (sizes.length - (i + 1)) 0) 0 (sizes.getD i 0) (List.replicate m 0)
      rw [List.length_take, Nat.min_eq_left (by omega)] at hwrite
      have htake : sizes.take (i + 1) = sizes.take i ++ [sizes.getD i 0] := by
        rw [List.take_add_one]
        simp [hi]
      refine ⟨_, by rw [hbuffer, hzeros]; exact hwrite, ?_⟩
      rw [htake, List.append_assoc, List.singleton_append])
    (t := List.replicate (8 * sizes.length + m) 0)
    (by rw [List.take_zero, List.nil_append, Nat.sub_zero, arrayBytes_replicate_zero,
          List.replicate_add])
  rw [hthrough, hbuffer]
  simp

variable {items} in
/-- The client builds its input when its counter can hold the number of segments. -/
theorem getMultiIn_eq_some_iff {input : GetMultiIn} (hvals : valsBytes items < 2 ^ 64) :
    getMultiIn dbId items = some input ↔ ∃ keysIn,
      multiKeysIn dbId (items.map Prod.fst) = some keysIn ∧
        input = { keysIn with valsBulkHandle := [valsRegion items],
                              valsBulkSize := valsBytes items } := by
  rw [getMultiIn, Option.bind_eq_bind, Option.bind_eq_some_iff]
  apply exists_congr
  intro keysIn
  apply and_congr_right
  intro hkeys
  have hlt := (multiKeysIn_eq_some_iff.1 hkeys).1
  rw [List.length_map] at hlt
  have hsum : signedSum (items.map fun q => q.2.vsize) =
      some (items.map fun q => q.2.vsize).sum := by
    apply signedSum_eq_some_iff.2
    rw [List.length_map]
    exact ⟨by omega, by rw [Nat.mod_eq_of_lt (by unfold valsBytes at hvals; omega)]⟩
  have hsize : ((items.map fun q => q.2.vsize).sum + sizesBytes items.length) % 2 ^ 64 =
      8 * items.length + (items.map fun q => q.2.vsize).sum := by
    rw [valsBytes] at hvals
    rw [sizesBytes_of_lt (by omega), Nat.add_comm, Nat.mod_eq_of_lt hvals]
  have hindices : Loop.signedIndices 32 items.length = some (List.range items.length) :=
    Loop.signedIndices_eq_some_iff.2 ⟨by omega, rfl⟩
  have hstore := through_writeWord (items.map fun q => q.2.vsize)
    (items.map fun q => q.2.vsize).sum
  rw [List.length_map] at hstore
  simp only [hsum, hsize, hindices, hstore, Option.bind_eq_bind, Option.bind_some,
    Option.some.injEq]
  exact eq_comm

theorem receive_getMultiIn {calls : BulkCalls} (hcalls : calls.Succeed)
    {keysIn : KeysIn}
    (hkeys : multiKeysIn dbId (items.map Prod.fst) = some keysIn) :
    GetMultiIn.receive calls { keysIn with valsBulkHandle := [valsRegion items],
                                           valsBulkSize := valsBytes items } =
      .ok (keysBuffer (items.map Prod.fst), valsRegion items) := by
  have hreceive := receive_multiKeysIn hcalls hkeys
  rw [KeysIn.receive, BulkCalls.receive, hcalls.1] at hreceive
  obtain ⟨hlt, rfl⟩ := multiKeysIn_eq_some_iff.1 hkeys
  rw [List.length_map] at hlt
  have hsizes : sizesBytes items.length = 8 * items.length := sizesBytes_of_lt (by omega)
  have hlen : (arrayBytes 8 (items.map fun q => q.2.vsize)).length = 8 * items.length := by
    rw [length_arrayBytes, List.length_map]
  have hpull : calls.pull [valsRegion items] (sizesBytes items.length)
      (List.replicate (valsBytes items) 0) = .ok (valsRegion items) := by
    have hfits : 8 * items.length ≤ [valsRegion items].flatten.length ∧
        8 * items.length ≤ (List.replicate (valsBytes items) (0 : UInt8)).length := by
      rw [List.length_replicate, valsBytes]
      simp only [List.flatten_cons, List.flatten_nil, List.append_nil, valsRegion,
        List.length_append, hlen]
      omega
    rw [BulkCalls.pull, hsizes, if_pos hfits, bulkPull]
    simp only [List.flatten_cons, List.flatten_nil, List.append_nil, valsRegion,
      List.drop_replicate, List.take_left' hlen, valsBytes, Nat.add_sub_cancel_left]
  rw [GetMultiIn.receive, BulkCalls.receive, hcalls.1]
  simp only [hreceive, List.length_map, hpull, bind, Except.bind]

/-- The client finds each value in its turn and copies it to the start of its buffer. -/
theorem forItems_unpackValue (items : List (Bulk × ValueSlot))
    (hfits : ∀ q ∈ items, q.1.length ≤ q.2.vsize) (values : List Bulk) (vsizes : List ℕ)
    (hlen : vsizes.length = values.length) :
    forItems unpackValue values.length (items.map Prod.fst)
        (values ++ items.map fun q => q.2.buffer, vsizes ++ items.map fun q => q.2.vsize) =
      some (values ++ items.map fun q => q.1 ++ q.2.buffer.drop q.1.length,
        vsizes ++ items.map fun q => q.1.length) := by
  induction items generalizing values vsizes with
  | nil => rfl
  | cons q items ih =>
      have hcopy : writeBytes q.2.buffer 0 q.1 = some (q.1 ++ q.2.buffer.drop q.1.length) := by
        have hroom := (hfits q List.mem_cons_self).trans q.2.vsize_le
        rw [writeBytes, if_pos (Or.inr (by omega))]
        simp
      have hact : unpackValue values.length q.1
          (values ++ (q :: items).map fun q => q.2.buffer,
            vsizes ++ (q :: items).map fun q => q.2.vsize) =
          some (values ++ [q.1 ++ q.2.buffer.drop q.1.length] ++
              items.map fun q => q.2.buffer,
            vsizes ++ [q.1.length] ++ items.map fun q => q.2.vsize) := by
        have hset : ∀ l : List ℕ, (vsizes ++ q.2.vsize :: l).set values.length q.1.length =
            vsizes ++ q.1.length :: l := by
          intro l
          rw [← hlen]
          simp
        simp [unpackValue, hcopy, hset, hlen]
      have hrest := ih (fun q' hq' => hfits q' (List.mem_cons_of_mem q hq'))
        (values ++ [q.1 ++ q.2.buffer.drop q.1.length]) (vsizes ++ [q.1.length])
        (by simp [hlen])
      rw [List.map_cons, forItems, hact, Option.bind_some]
      simpa using hrest

end Client

section Main

variable {σ : Type} {ds : DatastoreReads σ} {view : σ → Bulk → Option Bulk}
  {calls : BulkCalls} {dbs : Databases σ} {dbId : UInt64} {s : σ}
  {items : List (KvData × ValueSlot)}

/-- The values that the handler packs for the keys of a client. -/
def fittedValues (contents : Bulk → Option Bulk) (items : List (KvData × ValueSlot)) :
    List Bulk :=
  items.map fun q => fittedValue contents q.1.data q.2.vsize

/-- The handler pushes the sizes of the values in front of the values. -/
theorem sdskvGetMultiUlt_done (h : ServesReads ds view) (hcalls : calls.Succeed)
    (hdb : dbs dbId = some s) {keysIn : KeysIn}
    (hkeysIn : multiKeysIn dbId (items.map Prod.fst) = some keysIn)
    (hkeys : keysBytes (items.map Prod.fst) < 2 ^ 64) :
    ∃ fuel s' rest, sdskvGetMultiUlt ds calls fuel dbs
        { keysIn with valsBulkHandle := [valsRegion items], valsBulkSize := valsBytes items } =
      .done ({ ret := SdskvReturn.success.code,
               push := packItems (fittedValues (view s) items) ++ rest },
        Function.update dbs dbId (some s')) := by
  have hreceive := receive_getMultiIn dbId items hcalls hkeysIn
  obtain ⟨hlt, rfl⟩ := multiKeysIn_eq_some_iff.1 hkeysIn
  have hread := readPacked_keysBuffer (items.map Prod.fst) (by omega)
  rw [if_pos hkeys] at hread
  have hsizes : sizesBytes (items.map Prod.fst).length = 8 * items.length := by
    rw [List.length_map] at hlt ⊢
    exact sizesBytes_of_lt (by omega)
  obtain ⟨s', rest, hact⟩ := forItems_getMultiAct h
    (items.map fun q => (q.1.data, q.2.vsize))
    (by
      intro q hq
      obtain ⟨q, -, rfl⟩ := List.mem_map.1 hq
      exact q.2.vsize_lt)
    rfl (s := s) []
    (show _ ≤ (List.replicate (items.map fun q => q.2.vsize).sum (0 : UInt8)).length by
      simp [Function.comp_def]) (n := items.length) (by simp)
  simp only [List.map_map, List.map_nil, List.nil_append, List.flatten_nil,
    List.length_nil] at hact
  have hact : forItems (getMultiAct ds (sizesBytes (items.map Prod.fst).length)) 0
      ((items.map Prod.fst).map KvData.data) (s, valsRegion items, 0) =
        some (s', packItems (fittedValues (view s) items) ++ rest,
          (fittedValues (view s) items).flatten.length) := by
    rw [hsizes, List.map_map]
    exact hact
  obtain ⟨fuel, hfuel⟩ := walkPacked_ends_iff.2 ⟨by omega, _, hread, _, hact, rfl⟩
  refine ⟨fuel, s', rest, ?_⟩
  rw [sdskvGetMultiUlt, serveMulti_of_ok hdb hreceive]
  simp only [hfuel, Loop.Run.map, BulkCalls.pushed, hcalls.2]
  rfl

/-- The buffers of a client after a `get_multi`: a value that fits stands at the start of its
buffer, and the other buffers are as before. -/
structure GetMultiFilled (contents : Bulk → Option Bulk) (items : List (KvData × ValueSlot))
    (result : GetMultiResult) : Prop where
  ret : result.ret = SdskvReturn.success.code
  fits : ∀ (i : ℕ) (key : KvData) (slot : ValueSlot) (w : Bulk), items[i]? = some (key, slot) →
    contents key.data = some w → w.length ≤ slot.vsize →
      result.vsizes[i]? = some w.length ∧
        result.values[i]? = some (w ++ slot.buffer.drop w.length)
  untouched : ∀ (i : ℕ) (key : KvData) (slot : ValueSlot), items[i]? = some (key, slot) →
    (∀ w, contents key.data = some w → slot.vsize < w.length) →
      result.vsizes[i]? = some 0 ∧ result.values[i]? = some slot.buffer
  packed : 8 * items.length + result.vsizes.sum ≤ result.valsBulkSize

/-- The arrays of the client after the values have been unpacked. -/
theorem getMultiFilled_fittedValues (contents : Bulk → Option Bulk)
    (items : List (KvData × ValueSlot)) :
    GetMultiFilled contents items
      { ret := SdskvReturn.success.code
        values := items.map fun q => fittedValue contents q.1.data q.2.vsize ++
          q.2.buffer.drop (fittedValue contents q.1.data q.2.vsize).length
        vsizes := items.map fun q => (fittedValue contents q.1.data q.2.vsize).length
        valsBulkSize := valsBytes items } where
  ret := rfl
  fits i key slot w hitem hw hle := by
    have hfitted : fittedValue contents key.data slot.vsize = w := by
      rw [fittedValue, hw]
      exact if_pos hle
    simp [hitem, hfitted]
  untouched i key slot hitem hlarge := by
    have hfitted : fittedValue contents key.data slot.vsize = [] := by
      rw [fittedValue]
      split
      · next w hw => exact if_neg (Nat.not_le.2 (hlarge w hw))
      · rfl
    simp [hitem, hfitted]
  packed := by
    have hsum : (items.map fun q => (fittedValue contents q.1.data q.2.vsize).length).sum ≤
        (items.map fun q => q.2.vsize).sum :=
      List.sum_le_sum fun q _ => length_fittedValue_le contents q.1.data q.2.vsize
    simp only [valsBytes]
    omega

/-- The client unpacks what the handler has packed. -/
theorem through_unpackValue (contents : Bulk → Option Bulk)
    (items : List (KvData × ValueSlot)) (hlt : items.length < 2 ^ 61) (rest : Bulk) :
    Loop.through (walkPacked (packItems (fittedValues contents items) ++ rest)
        (sizesBytes items.length) unpackValue) (List.range items.length)
        (0, items.map fun q => q.2.buffer, items.map fun q => q.2.vsize) =
      some ((fittedValues contents items).flatten.length,
        items.map fun q => fittedValue contents q.1.data q.2.vsize ++
          q.2.buffer.drop (fittedValue contents q.1.data q.2.vsize).length,
        items.map fun q => (fittedValue contents q.1.data q.2.vsize).length) := by
  have hsizes : sizesBytes items.length = 8 * items.length := sizesBytes_of_lt (by omega)
  have hread := readPacked_packItems []
    (show ∀ value ∈ fittedValues contents items, value.length < 2 ^ 64 by
      intro value hvalue
      obtain ⟨q, -, rfl⟩ := List.mem_map.1 hvalue
      exact (length_fittedValue_le contents q.1.data q.2.vsize).trans_lt q.2.vsize_lt) rest
  have hlen : (fittedValues contents items).length = items.length := by
    rw [fittedValues, List.length_map]
  simp only [List.nil_append, hlen, List.length_nil, List.flatten_nil] at hread
  have hunpack := forItems_unpackValue
    (items.map fun q => (fittedValue contents q.1.data q.2.vsize, q.2))
    (by
      intro q hq
      obtain ⟨q, -, rfl⟩ := List.mem_map.1 hq
      exact length_fittedValue_le contents q.1.data q.2.vsize)
    [] [] rfl
  simp only [List.map_map, List.nil_append, List.length_nil] at hunpack
  have hunpack : forItems unpackValue 0 (fittedValues contents items)
      (items.map fun q => q.2.buffer, items.map fun q => q.2.vsize) = some _ := hunpack
  rw [List.range_eq_range', hsizes, through_walkPacked, hread, Option.bind_some, hunpack,
    Option.map_some, Nat.zero_add]
  rfl

/-- A call whose behaviour is defined has a number of segments that its counter can hold. -/
theorem length_lt_of_sdskvGetMulti {fuel : ℕ} {result : GetMultiResult × Databases σ}
    (hdone : sdskvGetMulti ds calls fuel dbs dbId items = .done result) :
    items.length + 1 < 2 ^ 31 := by
  rw [sdskvGetMulti] at hdone
  cases hinput : getMultiIn dbId items with
  | none =>
      rw [hinput] at hdone
      cases hdone
  | some input =>
      rw [getMultiIn, Option.bind_eq_bind, Option.bind_eq_some_iff] at hinput
      obtain ⟨keysIn, hkeysIn, -⟩ := hinput
      have hlt := (multiKeysIn_eq_some_iff.1 hkeysIn).1
      rwa [List.length_map] at hlt

/-- `sdskv_get_multi` fills the buffers of the client exactly when its counter can hold the
number of segments. -/
theorem getMultiFilled_iff (h : ServesReads ds view) (hcalls : calls.Succeed)
    (hdb : dbs dbId = some s) (items : List (KvData × ValueSlot))
    (hkeys : 8 * items.length + (items.map fun q => q.1.data.length).sum < 2 ^ 64)
    (hvals : 8 * items.length + (items.map fun q => q.2.vsize).sum < 2 ^ 64) :
    (∃ fuel result, sdskvGetMulti ds calls fuel dbs dbId items = .done result ∧
        GetMultiFilled (view s) items result.1) ↔
      items.length + 1 < 2 ^ 31 := by
  constructor
  · rintro ⟨fuel, result, hdone, -⟩
    exact length_lt_of_sdskvGetMulti hdone
  · intro hlt
    have hkeysIn : multiKeysIn dbId (items.map Prod.fst) = some _ :=
      multiKeysIn_eq_some_iff.2 ⟨by rwa [List.length_map], rfl⟩
    have hfits : keysBytes (items.map Prod.fst) < 2 ^ 64 := by
      rw [keysBytes, List.length_map, List.map_map]
      exact hkeys
    have hinput := (getMultiIn_eq_some_iff dbId hvals).2 ⟨_, hkeysIn, rfl⟩
    obtain ⟨fuel, s', rest, hserver⟩ := sdskvGetMultiUlt_done h hcalls hdb hkeysIn hfits
    have hindices : Loop.signedIndices 32 items.length = some (List.range items.length) :=
      Loop.signedIndices_eq_some_iff.2 ⟨by omega, rfl⟩
    have hunpack := through_unpackValue (view s) items (by omega)
      (rest ++ [valsRegion items].flatten.drop
        (packItems (fittedValues (view s) items) ++ rest).length)
    refine ⟨fuel, (_, Function.update dbs dbId (some s')), ?_,
      getMultiFilled_fittedValues (view s) items⟩
    rw [sdskvGetMulti, hinput]
    simp only [hserver, Loop.Run.bind, hindices]
    rw [List.append_assoc, hunpack]
    rfl

/-- The key 1 with room for a value of one byte. -/
def byteSlot : KvData × ValueSlot :=
  (KvData.single 1, { buffer := [7], vsize := 1, vsize_le := Nat.le_refl 1, vsize_lt := by simp })

theorem sum_map_replicate_byteSlot {f : KvData × ValueSlot → ℕ} (hf : f byteSlot = 1) {n : ℕ} :
    ((List.replicate n byteSlot).map f).sum = n := by
  rw [List.map_replicate, hf, List.sum_replicate_nat, Nat.mul_one]

theorem getMultiFilled_byteSlots :
    ∃ fuel result, sdskvGetMulti MapDataStore.reads .succeeding fuel
        (oneDatabase bindsByteKey) 5 [byteSlot, byteSlot] = .done result ∧
      GetMultiFilled bindsByteKey.get [byteSlot, byteSlot] result.1 :=
  (getMultiFilled_iff MapDataStore.servesReads BulkCalls.succeed_succeeding rfl
    [byteSlot, byteSlot] (by decide) (by decide)).2 (by decide)

/-- With `2 ^ 31 - 1` keys there is a segment more than the counter can hold, although the
sizes of the request do not wrap. -/
theorem not_getMultiFilled_manyKeys :
    (8 * (2 ^ 31 - 1) + ((List.replicate (2 ^ 31 - 1) byteSlot).map fun q =>
        q.1.data.length).sum < 2 ^ 64 ∧
      8 * (2 ^ 31 - 1) + ((List.replicate (2 ^ 31 - 1) byteSlot).map fun q =>
        q.2.vsize).sum < 2 ^ 64) ∧
    ¬ ∃ fuel result, sdskvGetMulti MapDataStore.reads .succeeding fuel
        (oneDatabase bindsByteKey) 5 (List.replicate (2 ^ 31 - 1) byteSlot) = .done result ∧
      GetMultiFilled bindsByteKey.get (List.replicate (2 ^ 31 - 1) byteSlot) result.1 := by
  refine ⟨?_, ?_⟩
  · rw [sum_map_replicate_byteSlot rfl, sum_map_replicate_byteSlot rfl]
    omega
  · rintro ⟨fuel, result, hdone, -⟩
    have hlt := length_lt_of_sdskvGetMulti hdone
    rw [List.length_replicate] at hlt
    omega

end Main

end Sdskv
