import Mathlib.Data.List.Zip
import Sdskv.Datastore.Map.Listing
import Sdskv.Rpc.Backends
import Sdskv.Rpc.Multi

/-!
# Listing keys and values into the memory of a client

The client exposes its arrays of sizes and its buffers for the keys and for the values. The
handler replaces the sizes by those of the listed pairs and pushes each key and each value
to the place where its buffer begins. The place is a position in all buffers one after the
other, so an item that is larger than its buffer goes on in the next one.

The handler notices that an item is larger than its buffer and sets the return value, but
goes on, and sets it again at the end.
-/

namespace Sdskv

open Wire

/-- The memory that a client exposes to a listing: the arrays of sizes, and its buffers for
the keys and for the values, each one after the other. -/
structure ListMemory where
  ksizes : List ℕ
  vsizes : List ℕ
  keys : Bulk
  values : Bulk

/-- `list_keyvals_in_t`; `max_keys` is the length of the arrays. -/
structure ListKeyvalsIn where
  dbId : UInt64
  startKey : Bulk
  keyPrefix : Bulk
  memory : ListMemory

/-- `list_keyvals_out_t`. -/
structure ListKeyvalsOut where
  nkeys : ℕ
  ret : Int

/-- The loops that put the actual sizes in the place of those that the client has announced,
for the counter values of the listed items and of the remaining ones; the second part tells
whether an item is larger. -/
def actualSizes (items : List Bulk) (is rest : List ℕ) (sizes : List ℕ) : List ℕ × Bool :=
  let t := is.foldl (fun (t : List ℕ × Bool) i =>
    let size := (items.getD i []).length
    (t.1.set i size, t.2 || decide (size > t.1.getD i 0))) (sizes, false)
  (rest.foldl (fun sizes i => sizes.set i 0) t.1, t.2)

/-- The loop that pushes the items to the buffers of the client: the failure of a transfer
that leaves the exposed memory, and the memory. -/
def pushItems (refused : ℕ) (items : List Bulk) (remoteSizes : List ℕ) :
    List ℕ → ℕ → ℕ → Bulk → Option ℕ × Bulk
  | [], _, _, memory => (none, memory)
  | i :: is, remoteOffset, localOffset, memory =>
      let size := (items.getD i []).length
      let remoteOffset' := (remoteOffset + remoteSizes.getD i 0) % 2 ^ 64
      let localOffset' := (localOffset + size) % 2 ^ 64
      if size > 0 then
        match writeBytes memory remoteOffset ((items.flatten.drop localOffset).take size) with
        | none => (some refused, memory)
        | some memory => pushItems refused items remoteSizes is remoteOffset' localOffset' memory
      else pushItems refused items remoteSizes is remoteOffset' localOffset' memory

/-- The pushes of the keys and of the values, into the memory `memory'` that has the actual
sizes; a failure and the end of the handler set the return value. -/
def pushKeyvals (refused : ℕ) (memory memory' : ListMemory) (keys values : List Bulk)
    (is : List ℕ) (out : ListKeyvalsOut) : ListKeyvalsOut × ListMemory :=
  match pushItems refused keys memory.ksizes is 0 0 memory.keys with
  | (some hret, pushed) =>
      ({ out with ret := makeHgError hret }, { memory' with keys := pushed })
  | (none, pushed) =>
      match pushItems refused values memory.vsizes is 0 0 memory.values with
      | (some hret, pushed') =>
          ({ out with ret := makeHgError hret },
            { memory' with keys := pushed, values := pushed' })
      | (none, pushed') =>
          ({ out with ret := SdskvReturn.success.code },
            { memory' with keys := pushed, values := pushed' })

/-- `sdskv_list_keyvals_ult` on the pairs that the database has listed; `none` when a loop
does not end. -/
def listKeyvalsAnswer (calls : BulkCalls) (memory : ListMemory) (keyvals : List (Bulk × Bulk)) :
    Option (ListKeyvalsOut × ListMemory) :=
  let maxKeys := memory.ksizes.length
  let numKeys := min keyvals.length maxKeys
  let out : ListKeyvalsOut := { nkeys := numKeys, ret := SdskvReturn.success.code }
  if numKeys = 0 then some (out, memory)
  else do
    let is ← Loop.indices 32 numKeys
    let rest ← Loop.indicesFrom 32 (numKeys % 2 ^ 32) maxKeys
    let keys := (keyvals.take numKeys).map Prod.fst
    let values := (keyvals.take numKeys).map Prod.snd
    let ksizes := actualSizes keys is rest memory.ksizes
    let vsizes := actualSizes values is rest memory.vsizes
    if calls.push ≠ hgSuccess then some ({ out with ret := makeHgError calls.push }, memory)
    else
      let out :=
        if ksizes.2 || vsizes.2 then { out with ret := SdskvReturn.errSize.code } else out
      some (pushKeyvals calls.refused memory
        { memory with ksizes := ksizes.1, vsizes := vsizes.1 } keys values is out)

/-- `sdskv_list_keyvals_ult`; `none` when it does not come to its answer. -/
def sdskvListKeyvalsUlt {σ : Type} (ds : AbstractDataStore σ) (calls : BulkCalls)
    (dbs : Databases σ) (input : ListKeyvalsIn) : Option (ListKeyvalsOut × ListMemory) :=
  match dbs input.dbId with
  | none => some ({ nkeys := 0, ret := SdskvReturn.errUnknownDb.code }, input.memory)
  | some s =>
      match firstFailure calls.before with
      | some hret => some ({ nkeys := 0, ret := makeHgError hret }, input.memory)
      | none =>
          match ds.listKeyvals s input.startKey input.memory.ksizes.length input.keyPrefix with
          | .pairs keyvals => listKeyvalsAnswer calls input.memory keyvals
          | _ => none

/-- `sdskv_list_keyvals_ult` once the database is found, on what its listing does. -/
def listKeyvalsReply (calls : BulkCalls) (memory : ListMemory) (listing : Listing) :
    Option (ListKeyvalsOut × ListMemory) :=
  match firstFailure calls.before with
  | some hret => some ({ nkeys := 0, ret := makeHgError hret }, memory)
  | none =>
      match listing with
      | .pairs keyvals => listKeyvalsAnswer calls memory keyvals
      | _ => none

theorem sdskvListKeyvalsUlt_eq_reply {σ : Type} {ds : AbstractDataStore σ} {calls : BulkCalls}
    {dbs : Databases σ} {input : ListKeyvalsIn} {s : σ} (hdb : dbs input.dbId = some s) :
    sdskvListKeyvalsUlt ds calls dbs input = listKeyvalsReply calls input.memory
      (ds.listKeyvals s input.startKey input.memory.ksizes.length input.keyPrefix) := by
  rw [sdskvListKeyvalsUlt, hdb]
  rfl

/-- The buffers of a client for keys and values: there is a value for each key, none of them
is empty, and they lie in its memory. -/
structure ListBuffers where
  keys : List Bulk
  values : List Bulk
  length_values : values.length = keys.length
  keys_ne_nil : ∀ b ∈ keys, b ≠ []
  values_ne_nil : ∀ b ∈ values, b ≠ []
  keys_lt : keys.flatten.length < 2 ^ 64
  values_lt : values.flatten.length < 2 ^ 64

/-- The memory that a client exposes. -/
def ListBuffers.memory (buffers : ListBuffers) : ListMemory :=
  { ksizes := buffers.keys.map List.length
    vsizes := buffers.values.map List.length
    keys := buffers.keys.flatten
    values := buffers.values.flatten }

/-- What a client sees of a listing: the return value, the number of keys, its buffers and
the sizes. -/
structure ListKeyvalsResult where
  ret : Int
  maxKeys : ℕ
  keys : List Bulk
  ksizes : List ℕ
  values : List Bulk
  vsizes : List ℕ

/-- `sdskv_list_keyvals_with_prefix`, when the calls of the client succeed. -/
def sdskvListKeyvalsWithPrefix {σ : Type} (ds : AbstractDataStore σ) (calls : BulkCalls)
    (dbs : Databases σ) (dbId : UInt64) (startKey keyPrefix : Bulk) (buffers : ListBuffers) :
    Option ListKeyvalsResult :=
  (sdskvListKeyvalsUlt ds calls dbs
    { dbId := dbId
      startKey := startKey
      keyPrefix := keyPrefix
      memory := buffers.memory }).map fun r =>
    { ret := r.1.ret
      maxKeys := r.1.nkeys
      keys := cutItems r.2.keys 0 (buffers.keys.map List.length)
      ksizes := r.2.ksizes
      values := cutItems r.2.values 0 (buffers.values.map List.length)
      vsizes := r.2.vsizes }

section Sizes

theorem getElem?_foldl_set {α : Type*} (f : ℕ → α) (is : List ℕ) (l : List α) (j : ℕ) :
    (is.foldl (fun l i => l.set i (f i)) l)[j]? =
      if j ∈ is ∧ j < l.length then some (f j) else l[j]? := by
  induction is generalizing l with
  | nil => simp
  | cons i is ih =>
      rw [List.foldl_cons, ih, List.length_set, List.getElem?_set]
      by_cases hj : i = j
      · subst hj
        by_cases hlt : i < l.length
        · simp [hlt]
        · simp [hlt]
      · have hne : ¬ j = i := fun h => hj h.symm
        simp [hj, hne]

theorem fst_actualSizes (items : List Bulk) (is rest sizes : List ℕ) :
    (actualSizes items is rest sizes).1 =
      rest.foldl (fun l i => l.set i 0)
        (is.foldl (fun l i => l.set i (items.getD i []).length) sizes) := by
  have hfst : ∀ (js : List ℕ) (t : List ℕ × Bool),
      (js.foldl (fun (t : List ℕ × Bool) i =>
        (t.1.set i (items.getD i []).length,
          t.2 || decide ((items.getD i []).length > t.1.getD i 0))) t).1 =
      js.foldl (fun l i => l.set i (items.getD i []).length) t.1 := by
    intro js
    induction js with
    | nil => intro t; rfl
    | cons j js ih => intro t; exact ih _
  rw [actualSizes, hfst]

/-- The sizes of the listed items stand in front. -/
theorem getElem?_actualSizes {items : List Bulk} {sizes : List ℕ} {m : ℕ}
    (hitems : items.length = m) (hm : m ≤ sizes.length) (is : List ℕ) {i : ℕ} {item : Bulk}
    (hitem : items[i]? = some item) (his : ∀ j ∈ is, m ≤ j) :
    (actualSizes items (List.range m) is sizes).1[i]? = some item.length := by
  have hi : i < m := by
    rw [← hitems]
    exact (List.getElem?_eq_some_iff.1 hitem).1
  have hnot : i ∉ is := fun h => absurd (his i h) (by omega)
  rw [fst_actualSizes, getElem?_foldl_set, if_neg (fun h => hnot h.1), getElem?_foldl_set,
    if_pos ⟨List.mem_range.2 hi, by omega⟩, List.getD_eq_getElem?_getD, hitem]
  rfl

end Sizes

section Push

/-- The buffer that an item has been pushed to. -/
def filledBuffer (q : Bulk × Bulk) : Bulk := q.1 ++ q.2.drop q.1.length

theorem length_filledBuffer {q : Bulk × Bulk} (h : q.1.length ≤ q.2.length) :
    (filledBuffer q).length = q.2.length := by
  rw [filledBuffer, List.length_append, List.length_drop]
  omega

theorem length_flatten_map_filledBuffer {slots : List (Bulk × Bulk)}
    (h : ∀ q ∈ slots, q.1.length ≤ q.2.length) :
    (slots.map filledBuffer).flatten.length = (slots.map Prod.snd).flatten.length := by
  rw [List.length_flatten, List.length_flatten, List.map_map, List.map_map]
  congr 1
  apply List.map_congr_left
  intro q hq
  exact length_filledBuffer (h q hq)

theorem length_flatten_fst_le {slots : List (Bulk × Bulk)}
    (h : ∀ q ∈ slots, q.1.length ≤ q.2.length) :
    (slots.map Prod.fst).flatten.length ≤ (slots.map Prod.snd).flatten.length := by
  induction slots with
  | nil => exact Nat.le_refl 0
  | cons q slots ih =>
      have hq := h q List.mem_cons_self
      have hslots := ih fun q' hq' => h q' (List.mem_cons_of_mem q hq')
      simp only [List.map_cons, List.flatten_cons, List.length_append]
      omega

/-- The push of an item fills its buffer, behind the buffers that are already filled. -/
theorem writeBytes_filledBuffer {before : List (Bulk × Bulk)}
    (hbefore : ∀ q ∈ before, q.1.length ≤ q.2.length) {q : Bulk × Bulk}
    (hq : q.1.length ≤ q.2.length) (rest : Bulk) :
    writeBytes ((before.map filledBuffer).flatten ++ (q.2 ++ rest))
        (before.map Prod.snd).flatten.length q.1 =
      some (((before ++ [q]).map filledBuffer).flatten ++ rest) := by
  have hwrite := writeBytes_append (q.2.drop q.1.length ++ rest)
    (length_flatten_map_filledBuffer hbefore).symm
    (show (q.2.take q.1.length).length = q.1.length by rw [List.length_take]; omega)
  have hmemory : (before.map filledBuffer).flatten ++ q.2.take q.1.length ++
      (q.2.drop q.1.length ++ rest) = (before.map filledBuffer).flatten ++ (q.2 ++ rest) := by
    rw [List.append_assoc, ← List.append_assoc (q.2.take q.1.length), List.take_append_drop]
  have hfilled : (before.map filledBuffer).flatten ++ q.1 ++ (q.2.drop q.1.length ++ rest) =
      ((before ++ [q]).map filledBuffer).flatten ++ rest := by
    simp [filledBuffer]
  rwa [hmemory, hfilled] at hwrite

/-- Items that fit into their buffers are pushed to them. -/
theorem pushItems_of_fits (refused : ℕ) (before slots : List (Bulk × Bulk))
    (hfits : ∀ q ∈ before ++ slots, q.1.length ≤ q.2.length) (after : List ℕ) (rest : Bulk)
    (hlt : ((before ++ slots).map Prod.snd).flatten.length < 2 ^ 64) :
    pushItems refused ((before ++ slots).map Prod.fst)
        (((before ++ slots).map fun q => q.2.length) ++ after)
        (List.range' before.length slots.length) (before.map Prod.snd).flatten.length
        (before.map Prod.fst).flatten.length
        ((before.map filledBuffer).flatten ++ ((slots.map Prod.snd).flatten ++ rest)) =
      (none, ((before ++ slots).map filledBuffer).flatten ++ rest) := by
  induction slots generalizing before with
  | nil => simp [pushItems]
  | cons q slots ih =>
      have hq : q.1.length ≤ q.2.length := hfits q (by simp)
      have hsplit : before ++ [q] ++ slots = before ++ q :: slots := by simp
      have hrest := ih (before ++ [q]) (by rwa [hsplit]) (by rwa [hsplit])
      rw [hsplit] at hrest
      have hitem : ((before ++ q :: slots).map Prod.fst).getD before.length [] = q.1 := by
        simp [List.getD_eq_getElem?_getD]
      have hcap : (((before ++ q :: slots).map fun q => q.2.length) ++ after).getD
          before.length 0 = q.2.length := by
        simp [List.getD_eq_getElem?_getD]
      have hnext : ((before.map Prod.snd).flatten.length + q.2.length) % 2 ^ 64 =
          ((before ++ [q]).map Prod.snd).flatten.length := by
        simp only [List.map_append, List.flatten_append, List.length_append, List.map_cons,
          List.flatten_cons, List.map_nil, List.flatten_nil, List.length_nil] at hlt ⊢
        omega
      have hlocal : ((before.map Prod.fst).flatten.length + q.1.length) % 2 ^ 64 =
          ((before ++ [q]).map Prod.fst).flatten.length := by
        have hle := length_flatten_fst_le hfits
        simp only [List.map_append, List.flatten_append, List.length_append, List.map_cons,
          List.flatten_cons, List.map_nil, List.flatten_nil, List.length_nil] at hlt hle ⊢
        omega
      have hcount : (before ++ [q]).length = before.length + 1 := by simp
      rw [hcount] at hrest
      rw [List.length_cons, List.range'_succ, pushItems]
      simp only [hitem, hcap, hnext, hlocal]
      rw [List.map_cons, List.flatten_cons, List.append_assoc]
      by_cases hpos : q.1.length > 0
      · have hdata : (((before ++ q :: slots).map Prod.fst).flatten.drop
            (before.map Prod.fst).flatten.length).take q.1.length = q.1 := by
          rw [List.map_append, List.flatten_append, List.drop_left, List.map_cons,
            List.flatten_cons, List.take_left]
        have hbefore : ∀ q' ∈ before, q'.1.length ≤ q'.2.length :=
          fun q' hq' => hfits q' (List.mem_append_left _ hq')
        rw [if_pos hpos, hdata, writeBytes_filledBuffer hbefore hq]
        exact hrest
      · have hnil : q.1 = [] := List.length_eq_zero_iff.1 (by omega)
        have hfilled : (before.map filledBuffer).flatten ++
              (q.2 ++ ((slots.map Prod.snd).flatten ++ rest)) =
            ((before ++ [q]).map filledBuffer).flatten ++
              ((slots.map Prod.snd).flatten ++ rest) := by
          simp [filledBuffer, hnil]
        rw [if_neg hpos, hfilled]
        exact hrest

/-- Every item fits into its buffer. -/
def ItemsFit (items olds : List Bulk) : Prop :=
  ∀ (i : ℕ) (item old : Bulk), items[i]? = some item → olds[i]? = some old →
    item.length ≤ old.length

/-- The buffers when the items have been pushed to the first ones. -/
def fillBuffers (items olds : List Bulk) : List Bulk :=
  (items.zip olds).map filledBuffer ++ olds.drop items.length

theorem length_zip_of_le {items olds : List Bulk} (hlen : items.length ≤ olds.length) :
    (items.zip olds).length = items.length := by
  rw [List.length_zip]
  omega

theorem ItemsFit.zip {items olds : List Bulk} (h : ItemsFit items olds) :
    ∀ q ∈ items.zip olds, q.1.length ≤ q.2.length := by
  intro q hq
  obtain ⟨i, hi, hget⟩ := List.getElem_of_mem hq
  rw [List.length_zip] at hi
  rw [List.getElem_zip] at hget
  rw [← hget]
  exact h i _ _ (List.getElem?_eq_getElem (by omega)) (List.getElem?_eq_getElem (by omega))

theorem map_snd_zip_eq_take {items olds : List Bulk} (hlen : items.length ≤ olds.length) :
    (items.zip olds).map Prod.snd = olds.take items.length := by
  have hzip : items.zip olds = items.zip (olds.take items.length) := by
    rw [List.zip_eq_zip_take_min, Nat.min_eq_left hlen, List.take_length]
  rw [hzip]
  exact List.map_snd_zip (by rw [List.length_take]; omega)

/-- The buffers and their sizes, as the items and their buffers and then the rest. -/
theorem zip_append_drop_lengths {items olds : List Bulk} (hlen : items.length ≤ olds.length) :
    ((items.zip olds).map fun q => q.2.length) ++ (olds.drop items.length).map List.length =
      olds.map List.length := by
  have hmap := congrArg (List.map List.length) (map_snd_zip_eq_take hlen)
  rw [List.map_map] at hmap
  conv_rhs => rw [← List.take_append_drop items.length olds, List.map_append, ← hmap]
  rfl

/-- Items that fit into the first buffers are pushed to them. -/
theorem pushItems_eq_fillBuffers (refused : ℕ) {items olds : List Bulk}
    (hlen : items.length ≤ olds.length) (hfits : ItemsFit items olds)
    (hlt : olds.flatten.length < 2 ^ 64) :
    pushItems refused items (olds.map List.length) (List.range items.length) 0 0
      olds.flatten = (none, (fillBuffers items olds).flatten) := by
  have hfst : (items.zip olds).map Prod.fst = items := List.map_fst_zip hlen
  have hsnd := map_snd_zip_eq_take hlen
  have hmemory : (olds.take items.length).flatten ++ (olds.drop items.length).flatten =
      olds.flatten := by
    rw [← List.flatten_append, List.take_append_drop]
  have hlt' : ((([] : List (Bulk × Bulk)) ++ items.zip olds).map
      Prod.snd).flatten.length < 2 ^ 64 := by
    rw [List.nil_append, hsnd]
    rw [← hmemory, List.length_append] at hlt
    omega
  have hpush := pushItems_of_fits refused [] (items.zip olds) hfits.zip
    ((olds.drop items.length).map List.length) (olds.drop items.length).flatten hlt'
  simp only [List.nil_append, List.map_nil, List.flatten_nil, List.length_nil, hfst, hsnd,
    zip_append_drop_lengths hlen, hmemory, length_zip_of_le hlen,
    ← List.range_eq_range'] at hpush
  rw [hpush, fillBuffers, List.flatten_append]

/-- The buffers keep their places. -/
theorem cutItems_fillBuffers {items olds : List Bulk} (hlen : items.length ≤ olds.length)
    (hfits : ItemsFit items olds) :
    cutItems (fillBuffers items olds).flatten 0 (olds.map List.length) =
      fillBuffers items olds := by
  have hlens : olds.map List.length = (fillBuffers items olds).map List.length := by
    rw [← zip_append_drop_lengths hlen, fillBuffers, List.map_append, List.map_map]
    congr 1
    apply List.map_congr_left
    intro q hq
    exact (length_filledBuffer (hfits.zip q hq)).symm
  rw [hlens]
  apply cutItems_of_drop
  rw [List.drop_zero, List.append_nil]

/-- A buffer that an item has been pushed to starts with it. -/
theorem prefix_fillBuffers {items olds : List Bulk} (hlen : items.length ≤ olds.length) {i : ℕ}
    {item : Bulk} (hitem : items[i]? = some item) :
    ∃ b, (fillBuffers items olds)[i]? = some b ∧ item <+: b := by
  obtain ⟨hi, rfl⟩ := List.getElem?_eq_some_iff.1 hitem
  have hzip := length_zip_of_le hlen
  refine ⟨filledBuffer ((items.zip olds).get ⟨i, by omega⟩), ?_, ?_⟩
  · rw [fillBuffers, List.getElem?_append_left (by rw [List.length_map]; omega),
      List.getElem?_map, List.getElem?_eq_getElem (by omega)]
    rfl
  · rw [List.get_eq_getElem, List.getElem_zip]
    exact List.prefix_append _ _

theorem length_fillBuffers {items olds : List Bulk} (hlen : items.length ≤ olds.length) :
    (fillBuffers items olds).length = olds.length := by
  rw [fillBuffers, List.length_append, List.length_map, length_zip_of_le hlen, List.length_drop]
  omega

/-- A filled buffer has the size of an old one. -/
theorem length_of_mem_fillBuffers {items olds : List Bulk} {capacity : ℕ}
    (hfits : ItemsFit items olds) (holds : ∀ b ∈ olds, b.length = capacity) :
    ∀ b ∈ fillBuffers items olds, b.length = capacity := by
  intro b hb
  rcases List.mem_append.1 hb with hb | hb
  · obtain ⟨q, hq, rfl⟩ := List.mem_map.1 hb
    rw [length_filledBuffer (hfits.zip q hq)]
    exact holds _ (List.of_mem_zip hq).2
  · exact holds b (List.mem_of_mem_drop hb)

theorem itemsFit_of_length {items olds : List Bulk} {capacity : ℕ}
    (hitems : ∀ item ∈ items, item.length ≤ capacity) (holds : ∀ b ∈ olds, b.length = capacity) :
    ItemsFit items olds := by
  intro i item old hitem hold
  rw [holds old (List.mem_of_getElem? hold)]
  exact hitems item (List.mem_of_getElem? hitem)

/-- Empty items leave the buffers as they were. -/
theorem fillBuffers_of_nil {items olds : List Bulk} (hlen : items.length ≤ olds.length)
    (hitems : ∀ item ∈ items, item = []) : fillBuffers items olds = olds := by
  have hsame : (items.zip olds).map filledBuffer = (items.zip olds).map Prod.snd := by
    apply List.map_congr_left
    intro q hq
    rw [filledBuffer, hitems _ (List.of_mem_zip hq).1]
    rfl
  rw [fillBuffers, hsame, map_snd_zip_eq_take hlen, List.take_append_drop]

theorem length_flatten_of_length {slots : List Bulk} {capacity : ℕ}
    (h : ∀ b ∈ slots, b.length = capacity) : slots.flatten.length = slots.length * capacity := by
  rw [List.length_flatten, List.eq_replicate_of_mem (l := slots.map List.length) (a := capacity),
    List.sum_replicate_nat, List.length_map]
  intro n hn
  obtain ⟨b, hb, rfl⟩ := List.mem_map.1 hn
  exact h b hb

end Push

section Main

/-- Every listed key and value fits into its buffer. -/
def PairsFit (listed : List (Bulk × Bulk)) (buffers : ListBuffers) : Prop :=
  ∀ (i : ℕ) (p : Bulk × Bulk) (k v : Bulk), listed[i]? = some p → buffers.keys[i]? = some k →
    buffers.values[i]? = some v → p.1.length ≤ k.length ∧ p.2.length ≤ v.length

/-- What the documentation of the listing says: an item that does not fit is an error that
reports the sizes and leaves the buffers alone, and else the buffers hold the pairs. -/
structure ListKeyvalsCorrect (listed : List (Bulk × Bulk)) (buffers : ListBuffers)
    (result : ListKeyvalsResult) : Prop where
  err : result.ret = SdskvReturn.errSize.code ↔ ¬ PairsFit listed buffers
  sizes : ∀ (i : ℕ) (p : Bulk × Bulk), listed[i]? = some p →
    result.ksizes[i]? = some p.1.length ∧ result.vsizes[i]? = some p.2.length
  count : result.maxKeys = listed.length
  untouched : ¬ PairsFit listed buffers →
    result.keys = buffers.keys ∧ result.values = buffers.values
  success : PairsFit listed buffers → result.ret = SdskvReturn.success.code
  pairs : PairsFit listed buffers → ∀ (i : ℕ) (p : Bulk × Bulk), listed[i]? = some p →
    (∃ k, result.keys[i]? = some k ∧ p.1 <+: k) ∧ ∃ v, result.values[i]? = some v ∧ p.2 <+: v

theorem makeHgError_ne_errSize (hret : ℕ) : makeHgError hret ≠ SdskvReturn.errSize.code := by
  have hcode : SdskvReturn.errSize.code = 10 := rfl
  rw [hcode, makeHgError]
  omega

theorem success_ne_errSize : ¬ SdskvReturn.success.code = SdskvReturn.errSize.code :=
  fun h => by cases SdskvReturn.code_inj.1 h

/-- The size error does not survive: the pushes set the return value again. -/
theorem pushKeyvals_ne_errSize (refused : ℕ) (memory memory' : ListMemory)
    (keys values : List Bulk) (is : List ℕ) (out : ListKeyvalsOut) :
    (pushKeyvals refused memory memory' keys values is out).1.ret ≠
      SdskvReturn.errSize.code := by
  rw [pushKeyvals]
  split
  · exact makeHgError_ne_errSize _
  · split
    · exact makeHgError_ne_errSize _
    · exact success_ne_errSize

/-- Pushes that all succeed. -/
theorem pushKeyvals_of_pushed {refused : ℕ} {memory memory' : ListMemory}
    {keys values : List Bulk} {is : List ℕ} {out : ListKeyvalsOut} {pushed pushed' : Bulk}
    (hkeys : pushItems refused keys memory.ksizes is 0 0 memory.keys = (none, pushed))
    (hvalues : pushItems refused values memory.vsizes is 0 0 memory.values = (none, pushed')) :
    pushKeyvals refused memory memory' keys values is out =
      ({ out with ret := SdskvReturn.success.code },
        { memory' with keys := pushed, values := pushed' }) := by
  rw [pushKeyvals, hkeys, hvalues]

/-- The handler never answers with the size error. -/
theorem listKeyvalsAnswer_ne_errSize {calls : BulkCalls} {memory : ListMemory}
    {keyvals : List (Bulk × Bulk)} {r : ListKeyvalsOut × ListMemory}
    (h : listKeyvalsAnswer calls memory keyvals = some r) :
    r.1.ret ≠ SdskvReturn.errSize.code := by
  rw [listKeyvalsAnswer] at h
  by_cases hempty : min keyvals.length memory.ksizes.length = 0
  · rw [if_pos hempty] at h
    cases h
    exact success_ne_errSize
  · rw [if_neg hempty] at h
    obtain ⟨is, -, h⟩ := Option.bind_eq_some_iff.1 h
    obtain ⟨rest, -, h⟩ := Option.bind_eq_some_iff.1 h
    by_cases hpush : calls.push ≠ hgSuccess
    · rw [if_pos hpush] at h
      cases h
      exact makeHgError_ne_errSize _
    · rw [if_neg hpush] at h
      cases h
      exact pushKeyvals_ne_errSize _ _ _ _ _ _ _

variable {σ : Type} {ds : AbstractDataStore σ} {calls : BulkCalls} {dbs : Databases σ}
  {dbId : UInt64} {s : σ} {startKey keyPrefix : Bulk} {buffers : ListBuffers}

/-- What the client makes of the answer on the listed pairs. -/
theorem sdskvListKeyvalsWithPrefix_of_pairs (hcalls : calls.Succeed) (hdb : dbs dbId = some s)
    {keyvals : List (Bulk × Bulk)}
    (hlist : ds.listKeyvals s startKey buffers.keys.length keyPrefix = .pairs keyvals) :
    sdskvListKeyvalsWithPrefix ds calls dbs dbId startKey keyPrefix buffers =
      (listKeyvalsAnswer calls buffers.memory keyvals).map fun r =>
        { ret := r.1.ret
          maxKeys := r.1.nkeys
          keys := cutItems r.2.keys 0 (buffers.keys.map List.length)
          ksizes := r.2.ksizes
          values := cutItems r.2.values 0 (buffers.values.map List.length)
          vsizes := r.2.vsizes } := by
  have hmax : buffers.memory.ksizes.length = buffers.keys.length := List.length_map _
  rw [sdskvListKeyvalsWithPrefix, sdskvListKeyvalsUlt_eq_reply hdb]
  simp only [hmax, hlist, listKeyvalsReply, hcalls.1]

/-- A listing whose loops end is empty, or the counter can hold the number of buffers. -/
theorem lt_of_listKeyvalsAnswer {keyvals : List (Bulk × Bulk)}
    {r : ListKeyvalsOut × ListMemory}
    (h : listKeyvalsAnswer calls buffers.memory keyvals = some r) :
    keyvals.take buffers.keys.length = [] ∨ buffers.keys.length < 2 ^ 32 := by
  have hmax : buffers.memory.ksizes.length = buffers.keys.length := List.length_map _
  rw [listKeyvalsAnswer, hmax] at h
  by_cases hempty : min keyvals.length buffers.keys.length = 0
  · left
    rw [← List.length_eq_zero_iff, List.length_take]
    omega
  · right
    rw [if_neg hempty] at h
    obtain ⟨is, -, h⟩ := Option.bind_eq_some_iff.1 h
    obtain ⟨rest, hrest, -⟩ := Option.bind_eq_some_iff.1 h
    rw [Loop.indicesFrom] at hrest
    split_ifs at hrest with hlt
    exact hlt

/-- The answer on pairs that have been listed, when the counter can hold the number of
buffers. -/
theorem listKeyvalsAnswer_of_lt (hcalls : calls.Succeed) {memory : ListMemory}
    {keyvals listed : List (Bulk × Bulk)}
    (hlisted : keyvals.take memory.ksizes.length = listed) (hne : listed ≠ [])
    (hlt : memory.ksizes.length < 2 ^ 32) :
    ∃ rest out, (∀ j ∈ rest, listed.length ≤ j) ∧ out.nkeys = listed.length ∧
      listKeyvalsAnswer calls memory keyvals =
        some (pushKeyvals calls.refused memory
          { memory with
            ksizes := (actualSizes (listed.map Prod.fst) (List.range listed.length) rest
              memory.ksizes).1
            vsizes := (actualSizes (listed.map Prod.snd) (List.range listed.length) rest
              memory.vsizes).1 }
          (listed.map Prod.fst) (listed.map Prod.snd) (List.range listed.length) out) := by
  have hcount : min keyvals.length memory.ksizes.length = listed.length := by
    rw [← hlisted, List.length_take, Nat.min_comm]
  have hpos : listed.length ≠ 0 := fun h => hne (List.length_eq_zero_iff.1 h)
  have htake : keyvals.take listed.length = listed := by
    rw [← hcount]
    exact (List.take_eq_take_iff.2 (by omega)).trans hlisted
  have hindices : Loop.indices 32 listed.length = some (List.range listed.length) :=
    if_pos (by omega)
  have hrest : Loop.indicesFrom 32 (listed.length % 2 ^ 32) memory.ksizes.length =
      some (List.range' (listed.length % 2 ^ 32)
        (memory.ksizes.length - listed.length % 2 ^ 32)) := if_pos hlt
  rw [Nat.mod_eq_of_lt (show listed.length < 2 ^ 32 by omega)] at hrest
  rw [listKeyvalsAnswer]
  simp only [hcount, if_neg hpos, Nat.mod_eq_of_lt (show listed.length < 2 ^ 32 by omega),
    hindices, hrest, htake, hcalls.2, ne_eq, not_true_eq_false, if_false, Option.bind_eq_bind,
    Option.bind_some]
  refine ⟨List.range' listed.length (memory.ksizes.length - listed.length), _, ?_, ?_, rfl⟩
  · intro j hj
    exact (List.mem_range'_1.1 hj).1
  · split_ifs <;> rfl

/-- The memory of buffers for keys and values. -/
def memoryOf (keys values : List Bulk) : ListMemory :=
  { ksizes := keys.map List.length
    vsizes := values.map List.length
    keys := keys.flatten
    values := values.flatten }

/-- The answer when all items fit: the buffers are filled, and the sizes are those of the
listed pairs. -/
theorem listKeyvalsAnswer_of_fits (hcalls : calls.Succeed) {keys values : List Bulk}
    (hvalues : values.length = keys.length) (hkeysLt : keys.flatten.length < 2 ^ 64)
    (hvaluesLt : values.flatten.length < 2 ^ 64) {keyvals listed : List (Bulk × Bulk)}
    (hlisted : keyvals.take keys.length = listed) (hends : listed = [] ∨ keys.length < 2 ^ 32)
    (hfitKeys : ItemsFit (listed.map Prod.fst) keys)
    (hfitValues : ItemsFit (listed.map Prod.snd) values) :
    ∃ out memory, listKeyvalsAnswer calls (memoryOf keys values) keyvals = some (out, memory) ∧
      out.ret = SdskvReturn.success.code ∧ out.nkeys = listed.length ∧
      (∀ (i : ℕ) (p : Bulk × Bulk), listed[i]? = some p →
        memory.ksizes[i]? = some p.1.length ∧ memory.vsizes[i]? = some p.2.length) ∧
      cutItems memory.keys 0 (keys.map List.length) = fillBuffers (listed.map Prod.fst) keys ∧
      cutItems memory.values 0 (values.map List.length) =
        fillBuffers (listed.map Prod.snd) values := by
  have hmax : (memoryOf keys values).ksizes.length = keys.length := List.length_map _
  by_cases hnil : listed = []
  · -- the buffers are left alone
    subst hnil
    have hempty : min keyvals.length (memoryOf keys values).ksizes.length = 0 := by
      have hcount := congrArg List.length hlisted
      rw [List.length_take, List.length_nil] at hcount
      omega
    refine ⟨_, _, by rw [listKeyvalsAnswer, if_pos hempty], rfl, hempty, ?_,
      cutItems_fillBuffers (Nat.zero_le _) hfitKeys,
      cutItems_fillBuffers (Nat.zero_le _) hfitValues⟩
    intro i p hp
    cases hp
  obtain ⟨rest, out, hrest, hcount, hanswer⟩ := listKeyvalsAnswer_of_lt hcalls
    (show keyvals.take (memoryOf keys values).ksizes.length = listed by rw [hmax, hlisted]) hnil
    (by rw [hmax]; exact hends.resolve_left hnil)
  have hlen : listed.length ≤ keys.length := by
    rw [← hlisted, List.length_take]
    omega
  have hlenKeys : (listed.map Prod.fst).length ≤ keys.length := by rwa [List.length_map]
  have hlenValues : (listed.map Prod.snd).length ≤ values.length := by
    rw [List.length_map]
    omega
  have hpushKeys := pushItems_eq_fillBuffers calls.refused hlenKeys hfitKeys hkeysLt
  have hpushValues := pushItems_eq_fillBuffers calls.refused hlenValues hfitValues hvaluesLt
  rw [List.length_map] at hpushKeys hpushValues
  rw [hanswer, pushKeyvals_of_pushed hpushKeys hpushValues]
  refine ⟨_, _, rfl, rfl, hcount, ?_, cutItems_fillBuffers hlenKeys hfitKeys,
    cutItems_fillBuffers hlenValues hfitValues⟩
  intro i p hp
  constructor
  · exact getElem?_actualSizes (List.length_map _)
      (by rw [memoryOf, List.length_map]; exact hlen) rest
      (by rw [List.getElem?_map, hp]; rfl) hrest
  · exact getElem?_actualSizes (List.length_map _)
      (by rw [memoryOf, List.length_map]; omega) rest
      (by rw [List.getElem?_map, hp]; rfl) hrest

/-- Pairs that fit are keys and values that fit, since there are as many buffers for both. -/
theorem PairsFit.itemsFit {listed : List (Bulk × Bulk)} (hfits : PairsFit listed buffers)
    (hlen : listed.length ≤ buffers.keys.length) :
    ItemsFit (listed.map Prod.fst) buffers.keys ∧
      ItemsFit (listed.map Prod.snd) buffers.values := by
  have hvalues := buffers.length_values
  constructor
  · intro i item old hi hold
    rw [List.getElem?_map, Option.map_eq_some_iff] at hi
    obtain ⟨p, hp, rfl⟩ := hi
    have hlt := (List.getElem?_eq_some_iff.1 hp).1
    exact (hfits i p old _ hp hold (List.getElem?_eq_getElem (by omega))).1
  · intro i item old hi hold
    rw [List.getElem?_map, Option.map_eq_some_iff] at hi
    obtain ⟨p, hp, rfl⟩ := hi
    have hlt := (List.getElem?_eq_some_iff.1 hp).1
    exact (hfits i p _ old hp (List.getElem?_eq_getElem (by omega)) hold).2

/-- A listing whose items fit fills the buffers. -/
theorem listKeyvalsCorrect_of_fits (hcalls : calls.Succeed) (hdb : dbs dbId = some s)
    {keyvals listed : List (Bulk × Bulk)}
    (hlist : ds.listKeyvals s startKey buffers.keys.length keyPrefix = .pairs keyvals)
    (hlisted : keyvals.take buffers.keys.length = listed) (hfits : PairsFit listed buffers)
    (hends : listed = [] ∨ buffers.keys.length < 2 ^ 32) :
    ∃ result,
      sdskvListKeyvalsWithPrefix ds calls dbs dbId startKey keyPrefix buffers = some result ∧
        ListKeyvalsCorrect listed buffers result := by
  have hlen : listed.length ≤ buffers.keys.length := by
    rw [← hlisted, List.length_take]
    omega
  have hvalues := buffers.length_values
  have hlenKeys : (listed.map Prod.fst).length ≤ buffers.keys.length := by
    rwa [List.length_map]
  have hlenValues : (listed.map Prod.snd).length ≤ buffers.values.length := by
    rw [List.length_map]
    omega
  obtain ⟨hfitKeys, hfitValues⟩ := hfits.itemsFit hlen
  obtain ⟨out, memory, hanswer, hret, hcount, hsizes, hcutKeys, hcutValues⟩ :=
    listKeyvalsAnswer_of_fits hcalls hvalues buffers.keys_lt buffers.values_lt hlisted hends
      hfitKeys hfitValues
  have hmemory : buffers.memory = memoryOf buffers.keys buffers.values := rfl
  rw [sdskvListKeyvalsWithPrefix_of_pairs hcalls hdb hlist, hmemory, hanswer]
  refine ⟨_, rfl, ?_⟩
  constructor
  · simp only [hret]
    exact iff_of_false success_ne_errSize (not_not.2 hfits)
  · exact hsizes
  · exact hcount
  · intro hnot
    exact absurd hfits hnot
  · intro _
    exact hret
  · intro _ i p hp
    simp only [hcutKeys, hcutValues]
    exact ⟨prefix_fillBuffers hlenKeys (by rw [List.getElem?_map, hp]; rfl),
      prefix_fillBuffers hlenValues (by rw [List.getElem?_map, hp]; rfl)⟩

/-- A listing never reports that an item does not fit, so it is as documented exactly when
all items fit and its loops end. -/
theorem listKeyvalsCorrect_iff (hcalls : calls.Succeed) (hdb : dbs dbId = some s)
    (startKey keyPrefix : Bulk) (buffers : ListBuffers) :
    (∃ keyvals result,
        ds.listKeyvals s startKey buffers.keys.length keyPrefix = .pairs keyvals ∧
        sdskvListKeyvalsWithPrefix ds calls dbs dbId startKey keyPrefix buffers = some result ∧
        ListKeyvalsCorrect (keyvals.take buffers.keys.length) buffers result) ↔
      ∃ keyvals, ds.listKeyvals s startKey buffers.keys.length keyPrefix = .pairs keyvals ∧
        PairsFit (keyvals.take buffers.keys.length) buffers ∧
        (keyvals.take buffers.keys.length = [] ∨ buffers.keys.length < 2 ^ 32) := by
  constructor
  · rintro ⟨keyvals, result, hlist, hresult, hcorrect⟩
    rw [sdskvListKeyvalsWithPrefix_of_pairs hcalls hdb hlist, Option.map_eq_some_iff] at hresult
    obtain ⟨r, hanswer, rfl⟩ := hresult
    refine ⟨keyvals, hlist, ?_, lt_of_listKeyvalsAnswer hanswer⟩
    by_contra hfits
    exact listKeyvalsAnswer_ne_errSize hanswer (hcorrect.err.2 hfits)
  · rintro ⟨keyvals, hlist, hfits, hends⟩
    obtain ⟨result, hresult, hcorrect⟩ :=
      listKeyvalsCorrect_of_fits hcalls hdb hlist rfl hfits hends
    exact ⟨keyvals, result, hlist, hresult, hcorrect⟩

/-- Two buffers of one byte each for keys, and for values. -/
def byteBuffers : ListBuffers where
  keys := [[0], [0]]
  values := [[0], [0]]
  length_values := rfl
  keys_ne_nil := by simp
  values_ne_nil := by simp
  keys_lt := by simp
  values_lt := by simp

theorem listKeyvalsCorrect_byteValue :
    ∃ keyvals result,
      (mapStore none false).listKeyvals (singleEntry false [1] [2]) [] 2 [] = .pairs keyvals ∧
      sdskvListKeyvalsWithPrefix (mapStore none false) .succeeding
        (oneDatabase (singleEntry false [1] [2])) 5 [] [] byteBuffers = some result ∧
      ListKeyvalsCorrect (keyvals.take 2) byteBuffers result := by
  have hdb : oneDatabase (singleEntry false [1] [2]) 5 = some (singleEntry false [1] [2]) := rfl
  apply (listKeyvalsCorrect_iff BulkCalls.succeed_succeeding hdb [] [] byteBuffers).2
  refine ⟨[([1], [2])], rfl, ?_, Or.inr (by decide)⟩
  intro i p k v hp hk hv
  cases i with
  | zero =>
      cases hp
      cases hk
      cases hv
      exact ⟨Nat.le_refl 1, Nat.le_refl 1⟩
  | succ i => cases hp

/-- A value of two bytes goes on in the second buffer, and the call succeeds. -/
theorem not_listKeyvalsCorrect_longValue :
    ¬ ∃ keyvals result,
      (mapStore none false).listKeyvals (singleEntry false [1] [2, 3]) [] 2 [] =
        .pairs keyvals ∧
      sdskvListKeyvalsWithPrefix (mapStore none false) .succeeding
        (oneDatabase (singleEntry false [1] [2, 3])) 5 [] [] byteBuffers = some result ∧
      ListKeyvalsCorrect (keyvals.take 2) byteBuffers result := by
  rintro ⟨keyvals, result, hlist, hresult, hcorrect⟩
  cases hlist
  cases hresult
  have hret := hcorrect.err.2 fun hfits => by
    have hle := (hfits 0 ([1], [2, 3]) [0] [0] rfl rfl rfl).2
    simp at hle
  cases SdskvReturn.code_inj.1 hret

end Main

end Sdskv
