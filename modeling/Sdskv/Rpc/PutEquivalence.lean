import Mathlib.Algebra.Order.BigOperators.Group.List
import Sdskv.Datastore.Map.Basic
import Sdskv.Rpc.Bounds.Put

/-!
# All put requests store the same pairs

Each of the four wire formats decodes to the pairs that the client was given, so a
batch of pairs leaves the database in the state that single puts in order leave it
in. The lemmas are stated for any backend whose batched puts are those of the base
class; `putMulti_putPacked_eq_puts_iff` is the statement for the map backend.

A batched put ends only when its counters can hold the number of segments, and the sizes of a
request are sums modulo `2 ^ 64`: a sum that wraps makes the handler leave its buffer.
-/

namespace Sdskv

open Wire

section Tables

variable {σ : Type*}

/-- Requests that each put one pair put all pairs in order. -/
theorem foldl_updateDatabase (put : σ → Bulk → Bulk → SdskvReturn × σ)
    (dbs : Databases σ) (dbId : UInt64) (pairs : List (KvData × KvData)) :
    pairs.foldl (fun dbs q =>
        updateDatabase dbs dbId fun s => (put s q.1.data q.2.data).2) dbs =
      updateDatabase dbs dbId fun s =>
        putAll put s (pairs.map fun q => (q.1.data, q.2.data)) := by
  induction pairs generalizing dbs with
  | nil => exact (updateDatabase_id dbs dbId).symm
  | cons q pairs ih =>
      rw [List.foldl_cons, ih, updateDatabase_updateDatabase]
      rfl

end Tables

theorem firstFailure_eq_none {hrets : List ℕ} (h : ∀ hret ∈ hrets, hret = hgSuccess) :
    firstFailure hrets = none := by
  rw [firstFailure, List.find?_eq_none]
  simpa using h

theorem flatten_filter_nonempty (values : List KvData) :
    ((values.filter fun v => v.data.length ≠ 0).map KvData.data).flatten =
      (values.map KvData.data).flatten := by
  induction values with
  | nil => rfl
  | cons v values ih =>
      by_cases h : v.data.length = 0
      · have hnil : v.data = [] := List.length_eq_zero_iff.1 h
        simp_all
      · simp_all

/-- The sizes in front of a region are those of its items. -/
theorem readArray_sizes {ι : Type*} (f : ι → KvData) (items : List ι) (rest : Bulk) :
    readArray 8 (arrayBytes 8 (items.map fun i => (f i).data.length) ++ rest)
      items.length = items.map fun i => (f i).data.length := by
  have hlt : ∀ n ∈ items.map (fun i => (f i).data.length), n < 256 ^ 8 := by
    intro n hn
    obtain ⟨i, -, rfl⟩ := List.mem_map.1 hn
    exact (f i).size_lt
  have h := readArray_arrayBytes hlt rest
  rwa [List.length_map] at h

theorem drop_sizes {ι : Type*} (f : ι → KvData) (items : List ι) (rest : Bulk) :
    (arrayBytes 8 (items.map fun i => (f i).data.length) ++ rest).drop (8 * items.length) =
      rest := by
  apply List.drop_left'
  rw [length_arrayBytes, List.length_map]

theorem length_flatten_data {ι : Type*} (f : ι → KvData) (items : List ι) :
    (items.map fun i => (f i).data).flatten.length =
      (items.map fun i => (f i).data.length).sum := by
  rw [List.length_flatten, List.map_map, Function.comp_def]

section Regions

/-- Regions back to back have the items that lie there. -/
theorem map_packedRegions {pointer : Pointer} {offset : ℕ} {items : List Bulk} {rest : Bulk}
    (h : pointer.drop offset = items.flatten ++ rest)
    (hlt : offset + items.flatten.length < 2 ^ 64) :
    (packedRegions pointer offset (items.map List.length)).map
      (fun region => bulkOfPointer region.1 region.2) = items := by
  induction items generalizing offset with
  | nil => rfl
  | cons item items ih =>
      rw [List.flatten_cons, List.append_assoc] at h
      rw [List.flatten_cons, List.length_append] at hlt
      have hitem : bulkOfPointer (pointer.drop offset) item.length = item := by
        rw [bulkOfPointer, h, List.take_left]
      have hbehind : pointer.drop (offset + item.length) = items.flatten ++ rest := by
        rw [← List.drop_drop, h, List.drop_left]
      have hrest := ih hbehind (by omega)
      rw [List.map_cons, packedRegions, Nat.mod_eq_of_lt (by omega), List.map_cons, hitem, hrest]

theorem bulkOfPointer_nullIfEmpty (region : Pointer × ℕ) :
    bulkOfPointer (nullIfEmpty region).1 (nullIfEmpty region).2 =
      bulkOfPointer region.1 region.2 := by
  rw [nullIfEmpty]
  split_ifs with hzero
  · rw [hzero]
    rfl
  · rfl

theorem length_packItems (items : List Bulk) :
    (packItems items).length = 8 * items.length + items.flatten.length := by
  simp [packItems]

/-- The words and the regions of a packed buffer. -/
theorem map_packedRegions_packItems {items : List Bulk}
    (hfits : (packItems items).length < 2 ^ 64) :
    (packedRegions (packItems items) (8 * items.length)
      (wordsFrom (packItems items) 0 items.length)).map
        (fun region => bulkOfPointer region.1 region.2) = items ∧
      ∀ region ∈ packedRegions (packItems items) (8 * items.length)
        (wordsFrom (packItems items) 0 items.length), region.2 ≤ region.1.length := by
  have hlength := length_packItems items
  have hlt : ∀ item ∈ items, item.length < 2 ^ 64 := by
    intro item hitem
    have hle : item.length ≤ (items.map List.length).sum :=
      List.single_le_sum (fun _ _ => Nat.zero_le _) _ (List.mem_map_of_mem hitem)
    rw [← List.length_flatten] at hle
    omega
  have hwords := readArray_take_packItems hlt (m := (packItems items).length) (by omega)
  rw [List.take_length, ← wordsFrom_zero] at hwords
  have hdrop : (packItems items).drop (8 * items.length) = items.flatten ++ [] := by
    rw [packItems, List.append_nil]
    exact List.drop_left' (by simp)
  rw [hwords]
  refine ⟨map_packedRegions hdrop (by omega), ?_⟩
  rw [packedRegions_le_iff hfits (by omega), ← List.length_flatten]
  omega

/-- The loop of the handler delimits the items of two packed buffers. -/
theorem putPointers_packItems {keys values : List Bulk} (hcount : values.length = keys.length)
    (hn : keys.length < 2 ^ 32) (hkeys : (packItems keys).length < 2 ^ 64)
    (hvalues : (packItems values).length < 2 ^ 64) :
    ∃ fuel t, putPointers fuel keys.length (packItems keys, packItems values) = .done t ∧
      t.kptrs.map (fun region => bulkOfPointer region.1 region.2) = keys ∧
      t.vptrs.map (fun region => bulkOfPointer region.1 region.2) = values ∧
      ∀ region ∈ t.kptrs ++ t.vptrs, region.2 ≤ region.1.length := by
  have hkeysLength := length_packItems keys
  have hvaluesLength := length_packItems values
  have hsizes : sizesBytes keys.length = 8 * keys.length := sizesBytes_of_lt (by omega)
  have hkeyWords : 8 * (0 + keys.length) ≤ (packItems keys).length := by omega
  have hvalWords : 8 * (0 + keys.length) ≤ (packItems values).length := by omega
  obtain ⟨t, hthrough, hkptrs, hvptrs⟩ :=
    through_putPointersBody hkeyWords hvalWords (PutPointers.start keys.length)
  rw [← List.range_eq_range'] at hthrough
  obtain ⟨fuel, hdone⟩ := Loop.ends_iff.2 ⟨hn, hthrough⟩
  obtain ⟨hkeyData, hkeyFits⟩ := map_packedRegions_packItems hkeys
  obtain ⟨hvalData, hvalFits⟩ := map_packedRegions_packItems hvalues
  rw [hcount] at hvalData hvalFits
  simp only [PutPointers.start, List.nil_append, hsizes] at hkptrs hvptrs
  refine ⟨fuel, t, hdone, ?_, ?_, ?_⟩
  · rw [hkptrs, hkeyData]
  · rw [hvptrs, List.map_map, Function.comp_def]
    simp only [bulkOfPointer_nullIfEmpty, hvalData]
  · rw [hkptrs, hvptrs, List.forall_mem_append, map_nullIfEmpty_le_iff]
    exact ⟨hkeyFits, hvalFits⟩

end Regions

section PutMulti

variable {dbId : UInt64} {keys values : List KvData}

theorem sum_filter_nonempty (values : List KvData) :
    ((values.filter fun v => v.data.length ≠ 0).map fun v => v.data.length).sum =
      (values.map fun v => v.data.length).sum := by
  have hbytes := congrArg List.length (flatten_filter_nonempty values)
  have hsum : ∀ items : List KvData,
      (items.map KvData.data).flatten.length = (items.map fun v => v.data.length).sum :=
    length_flatten_data id
  rwa [hsum, hsum] at hbytes

/-- The client fills a request whose segments its counter can hold. -/
theorem putMultiIn_eq_some_iff (hcount : values.length = keys.length) {input : PutMultiIn} :
    putMultiIn dbId keys values = some input ↔ keys.length + 1 < 2 ^ 31 ∧
      input =
        { dbId := dbId
          numKeys := keys.length
          keysBulkHandle :=
            arrayBytes 8 (keys.map fun k => k.data.length) :: keys.map KvData.data
          keysBulkSize := keysBytes keys % 2 ^ 64
          valsBulkHandle := arrayBytes 8 (values.map fun v => v.data.length) ::
            (values.filter fun v => v.data.length ≠ 0).map KvData.data
          valsBulkSize := keysBytes values % 2 ^ 64 } := by
  have hfilter := List.length_filter_le (fun v : KvData => v.data.length ≠ 0) values
  simp only [putMultiIn, Option.bind_eq_bind, Option.bind_eq_some_iff, signedSum_eq_some_iff,
    Loop.signedIndices_eq_some_iff, List.length_cons, List.length_map, List.sum_cons,
    sum_filter_nonempty, sizesBytes, Nat.mod_add_mod, keysBytes, hcount]
  constructor
  · rintro ⟨_, ⟨hlt, rfl⟩, _, -, _, ⟨-, rfl⟩, hinput⟩
    exact ⟨hlt, (Option.some.inj hinput).symm⟩
  · rintro ⟨hlt, rfl⟩
    exact ⟨_, ⟨hlt, rfl⟩, _, ⟨by omega, rfl⟩, _, ⟨by omega, rfl⟩, rfl⟩

/-- A region with an array of sizes and the data, in the local buffer of the handler. -/
theorem pull_keysBuffer (calls : BulkCalls) {items : List KvData} {segs : HgBulk}
    (hsegs : segs.flatten = packItems (items.map KvData.data)) :
    calls.pull segs (keysBytes items % 2 ^ 64) (List.replicate (keysBytes items % 2 ^ 64) 0) =
      .ok (keysBuffer items) := by
  have hfits : keysBytes items % 2 ^ 64 ≤ segs.flatten.length := by
    rw [hsegs, length_packItems_data]
    exact Nat.mod_le _ _
  rw [BulkCalls.pull, if_pos ⟨hfits, by simp⟩, bulkPull, hsegs]
  simp [keysBuffer]

theorem receive_putMultiIn {calls : BulkCalls} (hcalls : calls.Succeed)
    (hcount : values.length = keys.length) {input : PutMultiIn}
    (hinput : putMultiIn dbId keys values = some input) :
    input.receive calls = .ok (keysBuffer keys, keysBuffer values) := by
  obtain ⟨-, rfl⟩ := (putMultiIn_eq_some_iff hcount).1 hinput
  have hkeys : (arrayBytes 8 (keys.map fun k => k.data.length) ::
      keys.map KvData.data).flatten = packItems (keys.map KvData.data) := by
    rw [List.flatten_cons, packItems, List.map_map, Function.comp_def]
  have hvalues : (arrayBytes 8 (values.map fun v => v.data.length) ::
      (values.filter fun v => v.data.length ≠ 0).map KvData.data).flatten =
        packItems (values.map KvData.data) := by
    rw [List.flatten_cons, flatten_filter_nonempty, packItems, List.map_map, Function.comp_def]
  simp only [PutMultiIn.receive, BulkCalls.receive, hcalls.1, pull_keysBuffer calls hkeys,
    pull_keysBuffer calls hvalues]
  rfl

/-- The items of a client lie in the buffer exactly when the size of the region has not
wrapped. -/
theorem fits_keysBuffer_iff {items : List KvData} (hlt : items.length < 2 ^ 61) :
    8 * items.length + (readArray 8 (keysBuffer items) items.length).sum ≤
      (keysBuffer items).length ↔ keysBytes items < 2 ^ 64 := by
  have hread : readPacked (keysBuffer items) (sizesBytes items.length) items.length 0 0 ≠ none ↔
      keysBytes items < 2 ^ 64 := by
    rw [readPacked_keysBuffer items hlt]
    split_ifs with hwrap
    · simp only [ne_eq, reduceCtorEq, not_false_eq_true, hwrap]
    · simp only [ne_eq, not_true_eq_false, hwrap]
  rw [← hread, readPacked_ne_none_iff, wordsFrom_zero, sizesBytes_of_lt hlt]
  have hzero : items.length = 0 → (readArray 8 (keysBuffer items) items.length).sum = 0 := by
    intro hnil
    rw [hnil]
    rfl
  omega

variable {σ : Type} {ds : DatastoreWrites σ} {reads : RegionReads σ} {calls : BulkCalls}
  {dbs : Databases σ} {s : σ}

theorem not_any_empty (hkeys : ∀ key ∈ keys, key.data ≠ []) (m : ℕ) :
    ((keys.take m).any fun k => decide (k.data.length = 0)) = false := by
  rw [List.any_eq_false]
  intro key hkey
  simpa using hkeys key (List.mem_of_mem_take hkey)

/-- A batched put that ends has a number of segments that the counter of the client can hold,
and regions whose sizes have not wrapped around. -/
theorem lt_of_sdskvPutMulti (hreads : ReadsAll reads) (hcalls : calls.Succeed)
    (hdb : dbs dbId = some s) (hcount : values.length = keys.length)
    (hkeys : ∀ key ∈ keys, key.data ≠ []) {fuel : ℕ} {result : Int × Databases σ}
    (hdone : sdskvPutMulti ds reads calls fuel dbs dbId keys values = .done result) :
    keys.length + 1 < 2 ^ 31 ∧ keysBytes keys < 2 ^ 64 ∧ keysBytes values < 2 ^ 64 := by
  rw [sdskvPutMulti, not_any_empty hkeys, if_neg Bool.false_ne_true] at hdone
  cases hinput : putMultiIn dbId keys values with
  | none =>
      rw [hinput] at hdone
      cases hdone
  | some input =>
      have hreceived := receive_putMultiIn hcalls hcount hinput
      obtain ⟨hlt, rfl⟩ := (putMultiIn_eq_some_iff hcount).1 hinput
      simp only [hinput, sdskvPutMultiUlt, serveMulti_of_ok hdb hreceived] at hdone
      obtain ⟨r, hloop, -⟩ := Loop.Run.map_eq_done_iff.1 hdone
      obtain ⟨-, hsafe⟩ := Loop.bind_safe_of_done hloop
      have hbuffer : ∀ items : List KvData, (keysBuffer items).length < 2 ^ 64 := by
        intro items
        rw [keysBuffer, List.length_take, length_packItems_data]
        omega
      have hfits := (putMulti_safe_iff hreads (hbuffer keys) (hbuffer values)).1 hsafe
      rw [PutMultiFits, if_pos (by omega), fits_keysBuffer_iff (by omega), ← hcount,
        fits_keysBuffer_iff (by omega)] at hfits
      exact ⟨hlt, hfits⟩

/-- A batched put ends when its counters can hold the number of segments and the sizes of its
regions do not wrap: `put_multi` is called with pointers to the keys and to the values. -/
theorem sdskvPutMulti_done (ds : DatastoreWrites σ) (hreads : ReadsWithin reads)
    (hcalls : calls.Succeed)
    (hdb : dbs dbId = some s) (hcount : values.length = keys.length)
    (hkeys : ∀ key ∈ keys, key.data ≠ []) (hlt : keys.length + 1 < 2 ^ 31)
    (hkeysFit : keysBytes keys < 2 ^ 64) (hvaluesFit : keysBytes values < 2 ^ 64) :
    ∃ fuel kptrs vptrs, sdskvPutMulti ds reads calls fuel dbs dbId keys values =
        .done ((ds.putMulti s kptrs vptrs).1.code,
          Function.update dbs dbId (some (ds.putMulti s kptrs vptrs).2)) ∧
      kptrs.map (fun region => bulkOfPointer region.1 region.2) = keys.map KvData.data ∧
      vptrs.map (fun region => bulkOfPointer region.1 region.2) = values.map KvData.data := by
  obtain ⟨input, hinput⟩ : ∃ input, putMultiIn dbId keys values = some input :=
    ⟨_, (putMultiIn_eq_some_iff hcount).2 ⟨hlt, rfl⟩⟩
  have hreceived := receive_putMultiIn hcalls hcount hinput
  have hbuffer : ∀ items : List KvData, keysBytes items < 2 ^ 64 →
      keysBuffer items = packItems (items.map KvData.data) := by
    intro items hfits
    rw [keysBuffer, Nat.mod_eq_of_lt hfits, ← length_packItems_data, List.take_length]
  rw [hbuffer keys hkeysFit, hbuffer values hvaluesFit] at hreceived
  rw [← length_packItems_data] at hkeysFit hvaluesFit
  obtain ⟨fuel, t, hloop, hkeyData, hvalData, hregions⟩ := putPointers_packItems
    (by rw [List.length_map, List.length_map, hcount]) (by rw [List.length_map]; omega)
    hkeysFit hvaluesFit
  rw [List.length_map] at hloop
  have hcall : callPutMulti ds reads s t =
      some ((ds.putMulti s t.kptrs t.vptrs).1.code, (ds.putMulti s t.kptrs t.vptrs).2) := by
    rw [callPutMulti_eq, if_pos]
    exact fun region hregion => hregions region (hreads s _ hregion)
  refine ⟨fuel, t.kptrs, t.vptrs, ?_, hkeyData, hvalData⟩
  rw [sdskvPutMulti, not_any_empty hkeys, if_neg Bool.false_ne_true]
  obtain ⟨-, rfl⟩ := (putMultiIn_eq_some_iff hcount).1 hinput
  simp only [hinput, sdskvPutMultiUlt, serveMulti_of_ok hdb hreceived, hloop, Loop.Run.bind, hcall,
    Loop.Run.ofOption, Loop.Run.map]

end PutMulti

section PutPacked

/-- The bytes that a packed put of the pairs exposes. -/
def pairsBytes (pairs : List (KvData × KvData)) : ℕ :=
  16 * pairs.length + (pairs.map fun q => q.1.data.length).sum +
    (pairs.map fun q => q.2.data.length).sum

/-- A region with both arrays of sizes. -/
def sizesRegion (pairs : List (KvData × KvData)) (rest : Bulk) : Bulk :=
  arrayBytes 8 (pairs.map fun q => q.1.data.length) ++
    (arrayBytes 8 (pairs.map fun q => q.2.data.length) ++ rest)

theorem length_sizesRegion (pairs : List (KvData × KvData)) (rest : Bulk) :
    (sizesRegion pairs rest).length = 16 * pairs.length + rest.length := by
  rw [sizesRegion, List.length_append, List.length_append, length_arrayBytes, length_arrayBytes,
    List.length_map, List.length_map]
  omega

/-- The sizes that the handler finds in a part of the region with both arrays. -/
theorem wordsFrom_sizesRegion (pairs : List (KvData × KvData)) (rest : Bulk) {m : ℕ}
    (hm : 16 * pairs.length ≤ m) :
    wordsFrom ((sizesRegion pairs rest).take m) 0 pairs.length =
        pairs.map (fun q => q.1.data.length) ∧
      wordsFrom ((sizesRegion pairs rest).take m) pairs.length pairs.length =
        pairs.map fun q => q.2.data.length := by
  set keySizes := arrayBytes 8 (pairs.map fun q => q.1.data.length) with hkeySizes
  set valSizes := arrayBytes 8 (pairs.map fun q => q.2.data.length) with hvalSizes
  have hkeysLength : keySizes.length = 8 * pairs.length := by
    rw [hkeySizes, length_arrayBytes, List.length_map]
  have hvalsLength : valSizes.length = 8 * pairs.length := by
    rw [hvalSizes, length_arrayBytes, List.length_map]
  obtain ⟨rest', hregion⟩ : ∃ rest',
      (sizesRegion pairs rest).take m = keySizes ++ (valSizes ++ rest') := by
    rw [sizesRegion, ← hkeySizes, ← hvalSizes, List.take_append,
      List.take_of_length_le (by omega), List.take_append, List.take_of_length_le (by omega)]
    exact ⟨_, rfl⟩
  have hdrop : (keySizes ++ (valSizes ++ rest')).drop (8 * pairs.length) = valSizes ++ rest' :=
    List.drop_left' hkeysLength
  rw [hregion, wordsFrom_zero, wordsFrom_eq_readArray, hdrop]
  exact ⟨readArray_sizes Prod.fst pairs _, readArray_sizes Prod.snd pairs _⟩

variable {dbId : UInt64} {pairs : List (KvData × KvData)}

/-- The message of a packed put of pairs whose keys, and whose values, lie back to back. -/
def putPackedPairsIn (dbId : UInt64) (pairs : List (KvData × KvData)) : Option PutPackedIn :=
  putPackedIn dbId (pairs.map fun q => q.1.data).flatten (pairs.map fun q => q.1.data.length)
    (pairs.map fun q => q.2.data).flatten (pairs.map fun q => q.2.data.length)

theorem putPackedPairsIn_of_lt (dbId : UInt64) (hlt : pairs.length < 2 ^ 32) :
    ∃ input, putPackedPairsIn dbId pairs = some input ∧ input.dbId = dbId := by
  simp only [putPackedPairsIn, putPackedIn, Option.bind_eq_bind, Option.bind_eq_some_iff,
    unsignedSum_eq_some_iff, List.length_map]
  exact ⟨_, ⟨_, ⟨hlt, rfl⟩, _, ⟨hlt, rfl⟩, rfl⟩, rfl⟩

/-- The handler receives both arrays first. When no size has wrapped around, the packed keys and
values follow. -/
theorem receive_putPackedPairsIn {calls : BulkCalls} (hcalls : calls.Succeed)
    {input : PutPackedIn} (hinput : putPackedPairsIn dbId pairs = some input) :
    pairs.length < 2 ^ 32 ∧ input.dbId = dbId ∧ input.numKeys = pairs.length ∧
      ∃ rest m, m < 2 ^ 64 ∧ m ≤ (sizesRegion pairs rest).length ∧
        input.receive calls = .ok ((sizesRegion pairs rest).take m) ∧
        (pairsBytes pairs < 2 ^ 64 → m = pairsBytes pairs ∧
          rest = (pairs.map fun q => q.1.data).flatten ++
            (pairs.map fun q => q.2.data).flatten) := by
  have hk := length_flatten_data Prod.fst pairs
  have hv := length_flatten_data Prod.snd pairs
  simp only [putPackedPairsIn, putPackedIn, Option.bind_eq_bind, Option.bind_eq_some_iff,
    unsignedSum_eq_some_iff, List.length_map] at hinput
  obtain ⟨ksum, ⟨hlt, hksum⟩, vsum, ⟨-, hvsum⟩, hinput⟩ := hinput
  cases hinput
  set packedKeys := (pairs.map fun q => q.1.data).flatten
  set packedValues := (pairs.map fun q => q.2.data).flatten
  set m := (ksum + vsum + 2 * pairs.length * 8) % 2 ^ 64 with hm
  have hkeysLength : (bulkOfPointer packedKeys ksum).length = ksum := by
    rw [bulkOfPointer, List.length_take]
    omega
  have hvaluesLength : (bulkOfPointer packedValues vsum).length = vsum := by
    rw [bulkOfPointer, List.length_take]
    omega
  refine ⟨hlt, rfl, rfl, bulkOfPointer packedKeys ksum ++ bulkOfPointer packedValues vsum, m,
    by omega, ?_, ?_, ?_⟩
  · rw [length_sizesRegion, List.length_append]
    omega
  · have hflatten : ([arrayBytes 8 (pairs.map fun q => q.1.data.length),
        arrayBytes 8 (pairs.map fun q => q.2.data.length), bulkOfPointer packedKeys ksum,
        bulkOfPointer packedValues vsum].take (if vsum = 0 then 3 else 4)).flatten =
          sizesRegion pairs (bulkOfPointer packedKeys ksum ++ bulkOfPointer packedValues vsum) := by
      split_ifs with hzero
      · have hnil : bulkOfPointer packedValues vsum = [] := by
          rw [hzero]
          rfl
        simp [sizesRegion, hnil]
      · simp [sizesRegion]
    simp only [PutPackedIn.receive, BulkCalls.receive, hcalls.1, BulkCalls.pull, bulkPull, hflatten]
    rw [if_pos]
    · simp
    · rw [length_sizesRegion, List.length_append, List.length_replicate]
      omega
  · intro hfits
    rw [pairsBytes] at hfits
    have hkeys : ksum = packedKeys.length := by omega
    have hvalues : vsum = packedValues.length := by omega
    refine ⟨by rw [pairsBytes]; omega, ?_⟩
    rw [hkeys, hvalues, bulkOfPointer, bulkOfPointer, List.take_length, List.take_length]

variable {σ : Type} {ds : DatastoreWrites σ} {reads : RegionReads σ} {calls : BulkCalls}
  {dbs : Databases σ} {s : σ}

/-- `sdskv_put_packed` of pairs whose keys, and whose values, lie back to back. -/
def sdskvPutPackedPairs (ds : DatastoreWrites σ) (reads : RegionReads σ) (calls : BulkCalls)
    (fuel : ℕ) (dbs : Databases σ) (dbId : UInt64) (pairs : List (KvData × KvData)) :
    Loop.Run (Int × Databases σ) :=
  sdskvPutPacked ds reads calls fuel dbs dbId
    (pairs.map fun q => q.1.data).flatten (pairs.map fun q => q.1.data.length)
    (pairs.map fun q => q.2.data).flatten (pairs.map fun q => q.2.data.length)

theorem sdskvPutPackedPairs_eq (fuel : ℕ) :
    sdskvPutPackedPairs ds reads calls fuel dbs dbId pairs =
      match putPackedPairsIn dbId pairs with
      | none => .running
      | some input => sdskvPutPackedUlt ds reads calls fuel dbs input := rfl

/-- A packed put that ends has a number of pairs that the counter of the client can hold. -/
theorem length_lt_of_sdskvPutPacked {fuel : ℕ} {result : Int × Databases σ}
    (hdone : sdskvPutPackedPairs ds reads calls fuel dbs dbId pairs = .done result) :
    pairs.length < 2 ^ 32 := by
  rw [sdskvPutPackedPairs_eq] at hdone
  cases hinput : putPackedPairsIn dbId pairs with
  | none =>
      rw [hinput] at hdone
      cases hdone
  | some input =>
      obtain ⟨ksum, hksum, -⟩ := Option.bind_eq_some_iff.1 hinput
      obtain ⟨hlt, -⟩ := unsignedSum_eq_some_iff.1 hksum
      rwa [List.length_map] at hlt

/-- A packed put that ends has a number of pairs that the counters can hold, and a region whose
size has not wrapped around. -/
theorem lt_of_sdskvPutPacked (hreads : ReadsAll reads) (hcalls : calls.Succeed)
    (hdb : dbs dbId = some s) {fuel : ℕ} {result : Int × Databases σ}
    (hdone : sdskvPutPackedPairs ds reads calls fuel dbs dbId pairs = .done result) :
    pairs.length < 2 ^ 32 ∧ pairsBytes pairs < 2 ^ 64 := by
  rw [sdskvPutPackedPairs_eq] at hdone
  cases hinput : putPackedPairsIn dbId pairs with
  | none =>
      rw [hinput] at hdone
      cases hdone
  | some input =>
      obtain ⟨hlt, rfl, hnum, rest, m, hm, hle, hreceived, -⟩ :=
        receive_putPackedPairsIn hcalls hinput
      simp only [hinput, sdskvPutPackedUlt, serveMulti_of_ok hdb hreceived, hnum] at hdone
      obtain ⟨r, hloop, -⟩ := Loop.Run.map_eq_done_iff.1 hdone
      rw [putPackedArgs_bind] at hloop
      obtain ⟨-, hsafe⟩ := Loop.bind_safe_of_done hloop
      simp only [← putPackedArgs_bind] at hsafe
      have hlength : ((sizesRegion pairs rest).take m).length = m := by
        rw [List.length_take, Nat.min_eq_left hle]
      have hfits := (putPacked_safe_iff hreads (by omega)).1 hsafe
      rw [PutPackedFits, if_pos hlt, hlength, ← wordsFrom_zero] at hfits
      obtain ⟨hkeys, hvals⟩ := wordsFrom_sizesRegion pairs rest (m := m) (by omega)
      rw [hkeys, hvals] at hfits
      exact ⟨hlt, by rw [pairsBytes]; omega⟩

/-- The arguments that the handler passes on, for a region of packed keys and values. -/
theorem putPackedArgs_sizesRegion {keys : Bulk} (values : Bulk) (hlt : pairs.length < 2 ^ 32)
    (hkeys : keys.length = (pairs.map fun q => q.1.data.length).sum)
    (hfits : keys.length < 2 ^ 64) :
    ∃ fuel, putPackedArgs fuel pairs.length (sizesRegion pairs (keys ++ values)) =
      .done
        { keys := keys ++ values
          ksizes := pairs.map fun q => q.1.data.length
          values := values
          vsizes := pairs.map fun q => q.2.data.length } := by
  set region := sizesRegion pairs (keys ++ values) with hregion
  have hlength := length_sizesRegion pairs (keys ++ values)
  rw [← hregion] at hlength
  obtain ⟨hksizes, hvsizes⟩ := wordsFrom_sizesRegion pairs (keys ++ values) (m := region.length)
    (by omega)
  rw [← hregion, List.take_length] at hksizes hvsizes
  have hsum := Loop.foldl_add_mod (2 ^ 64) (pairs.map fun q => q.1.data.length) 0
  rw [Nat.zero_mod, Nat.zero_add, ← hkeys, Nat.mod_eq_of_lt hfits] at hsum
  have hloop : Loop.through (keySizesBody region) (List.range pairs.length) 0 =
      some keys.length := by
    rw [List.range_eq_range', through_keySizesBody, if_pos (by omega), hksizes, hsum]
  obtain ⟨fuel, hdone⟩ := Loop.ends_iff.2 ⟨hlt, hloop⟩
  have hdrop : region.drop (8 * pairs.length + 8 * pairs.length) = keys ++ values := by
    rw [hregion, sizesRegion, ← List.append_assoc]
    apply List.drop_left'
    rw [List.length_append, length_arrayBytes, length_arrayBytes, List.length_map, List.length_map]
  refine ⟨fuel, ?_⟩
  rw [putPackedArgs, hdone, Loop.Run.bind, packedArgs_eq, if_pos (by omega), hksizes, hvsizes,
    hdrop, List.drop_left]
  rfl

/-- A packed put ends when its counters can hold the number of pairs and the size of its region
does not wrap: `put_packed` is called with pointers to the packed keys and values. -/
theorem sdskvPutPacked_done (ds : DatastoreWrites σ) (hreads : ReadsWithin reads)
    (hcalls : calls.Succeed)
    (hdb : dbs dbId = some s) (hlt : pairs.length < 2 ^ 32) (hfits : pairsBytes pairs < 2 ^ 64) :
    let put := ds.putPacked s
      ((pairs.map fun q => q.1.data).flatten ++ (pairs.map fun q => q.2.data).flatten)
      (pairs.map fun q => q.1.data.length) (pairs.map fun q => q.2.data).flatten
      (pairs.map fun q => q.2.data.length)
    ∃ fuel, sdskvPutPackedPairs ds reads calls fuel dbs dbId pairs =
      .done (put.1.code, Function.update dbs dbId (some put.2)) := by
  intro put
  have hk := length_flatten_data Prod.fst pairs
  have hv := length_flatten_data Prod.snd pairs
  obtain ⟨input, hinput, -⟩ := putPackedPairsIn_of_lt dbId hlt
  obtain ⟨-, rfl, hnum, rest, m, -, -, hreceived, hwhole⟩ :=
    receive_putPackedPairsIn hcalls hinput
  obtain ⟨rfl, rfl⟩ := hwhole hfits
  set packedKeys := (pairs.map fun q => q.1.data).flatten
  set packedValues := (pairs.map fun q => q.2.data).flatten
  rw [pairsBytes] at hfits
  have hlength : (sizesRegion pairs (packedKeys ++ packedValues)).length = pairsBytes pairs := by
    rw [length_sizesRegion, List.length_append, pairsBytes]
    omega
  rw [← hlength, List.take_length] at hreceived
  obtain ⟨fuel, hloop⟩ := putPackedArgs_sizesRegion packedValues hlt hk (by omega)
  have hregions : ∀ args : PackedArgs, args =
        { keys := packedKeys ++ packedValues
          ksizes := pairs.map fun q => q.1.data.length
          values := packedValues
          vsizes := pairs.map fun q => q.2.data.length } →
      callPutPacked ds reads s args = some (put.1.code, put.2) := by
    rintro args rfl
    rw [callPutPacked_eq, if_pos]
    intro region hregion
    have hkeysLength : (packedKeys ++ packedValues).length < 2 ^ 64 := by
      rw [List.length_append]
      omega
    have hvaluesLength : packedValues.length < 2 ^ 64 := by omega
    refine (regions_le_iff hkeysLength hvaluesLength).2 ?_ region (hreads s _ hregion)
    dsimp only
    rw [List.length_append]
    omega
  refine ⟨fuel, ?_⟩
  rw [sdskvPutPackedPairs_eq, hinput]
  simp only [sdskvPutPackedUlt, serveMulti_of_ok hdb hreceived, hnum, hloop, Loop.Run.bind,
    hregions _ rfl, Loop.Run.ofOption, Loop.Run.map]

end PutPacked

section Backend

variable {σ : Type*} (proc : HgProc) (ds : DatastoreWrites σ) {hrets : List ℕ}
  (hok : ∀ hret ∈ hrets, hret = hgSuccess) (dbs : Databases σ) (dbId : UInt64)
include hok

/-- A single put calls the datastore with its pair, on the inline path and on the bulk
path. -/
theorem sdskvPut_eq (key value : KvData) :
    sdskvPut proc ds hrets dbs dbId key value = withDatabase dbs dbId fun s =>
      ((ds.put s key.data value.data).1.code, (ds.put s key.data value.data).2) := by
  dsimp only [sdskvPut]
  split_ifs with hsize
  · rw [margoGetInput_encode, sdskvPutUlt]
  · rw [sdskvBulkPutUlt]
    congr 1
    funext s
    by_cases hv : value.data.length > 0
    · have hpull : bulkPull [value.data] value.data.length = value.data := by
        simp [bulkPull]
      simp only [hv, if_true, firstFailure_eq_none hok, hpull]
    · have hnil : value.data = [] := List.length_eq_zero_iff.1 (by omega)
      simp [hnil]

theorem sdskvPut_snd (key value : KvData) :
    (sdskvPut proc ds hrets dbs dbId key value).2 =
      updateDatabase dbs dbId fun s => (ds.put s key.data value.data).2 := by
  rw [sdskvPut_eq proc ds hok, withDatabase_snd]

end Backend

section Puts

/-- The batched puts of a backend are those of the base class. -/
structure BaseBatches {σ : Type*} (ds : DatastoreWrites σ)
    (raw : σ → Pointer → ℕ → Pointer → ℕ → SdskvReturn × σ) : Prop where
  raw_eq : ∀ s key ksize value vsize, raw s key ksize value vsize =
    ds.put s (bulkOfPointer key ksize) (bulkOfPointer value vsize)
  putMulti_eq : ds.putMulti = putMulti raw
  putPacked_eq : ds.putPacked = putPacked raw

theorem MapDataStore.baseBatches : BaseBatches MapDataStore.writes MapDataStore.putRaw where
  raw_eq := MapDataStore.putRaw_eq
  putMulti_eq := rfl
  putPacked_eq := rfl

variable {σ : Type} {ds : DatastoreWrites σ} {reads : RegionReads σ} {calls : BulkCalls}
  {dbs : Databases σ} {dbId : UInt64} {s : σ}
  {raw : σ → Pointer → ℕ → Pointer → ℕ → SdskvReturn × σ} {pairs : List (KvData × KvData)}

/-- The state that a batched put of pointers to the pairs leaves. -/
theorem BaseBatches.putMulti_snd (hbase : BaseBatches ds raw) (s : σ)
    {kptrs vptrs : List (Pointer × ℕ)}
    (hkptrs : kptrs.map (fun region => bulkOfPointer region.1 region.2) =
      (pairs.map Prod.fst).map KvData.data)
    (hvptrs : vptrs.map (fun region => bulkOfPointer region.1 region.2) =
      (pairs.map Prod.snd).map KvData.data) :
    (ds.putMulti s kptrs vptrs).2 =
      putAll ds.put s (pairs.map fun q => (q.1.data, q.2.data)) := by
  have hzip : ((pairs.map Prod.fst).map KvData.data).zip ((pairs.map Prod.snd).map KvData.data) =
      pairs.map fun q => (q.1.data, q.2.data) := by
    rw [List.map_map, List.map_map, List.zip_map']
    rfl
  rw [hbase.putMulti_eq, putMulti, putMultiLoop_snd hbase.raw_eq, hkptrs, hvptrs, hzip]

theorem putPacked_snd (hraw : ∀ s key ksize value vsize, raw s key ksize value vsize =
      ds.put s (bulkOfPointer key ksize) (bulkOfPointer value vsize))
    (hpacked : ds.putPacked = putPacked raw) (s : σ) (pairs : List (KvData × KvData)) :
    (ds.putPacked s
        ((pairs.map fun q => q.1.data).flatten ++ (pairs.map fun q => q.2.data).flatten)
        (pairs.map fun q => q.1.data.length) (pairs.map fun q => q.2.data).flatten
        (pairs.map fun q => q.2.data.length)).2 =
      putAll ds.put s (pairs.map fun q => (q.1.data, q.2.data)) := by
  have hloop := putPackedLoop_snd hraw
    ((pairs.map fun q => q.1.data).flatten ++ (pairs.map fun q => q.2.data).flatten)
    (pairs.map fun q => q.2.data).flatten .success s 0 0
    (pairs.map fun q => (q.1.data, q.2.data)) (pairs.map fun q => q.2.data).flatten []
  simp only [List.map_map, Function.comp_def, List.drop_zero, List.append_nil,
    forall_const] at hloop
  rw [hpacked]
  exact hloop

theorem updateDatabase_of_some {σ : Type*} {dbs : Databases σ} {dbId : UInt64} {s : σ}
    (hdb : dbs dbId = some s) (g : σ → σ) :
    updateDatabase dbs dbId g = Function.update dbs dbId (some (g s)) := by
  rw [updateDatabase, hdb]

/-- A batched put with the base class makes the puts of its pairs in order. -/
theorem sdskvPutMulti_snd (hbase : BaseBatches ds raw) (hreads : ReadsWithin reads)
    (hcalls : calls.Succeed) (hdb : dbs dbId = some s) (hkeys : ∀ q ∈ pairs, q.1.data ≠ [])
    (hlt : pairs.length + 1 < 2 ^ 31) (hkeysFit : keysBytes (pairs.map Prod.fst) < 2 ^ 64)
    (hvaluesFit : keysBytes (pairs.map Prod.snd) < 2 ^ 64) :
    ∃ fuel result, sdskvPutMulti ds reads calls fuel dbs dbId (pairs.map Prod.fst)
        (pairs.map Prod.snd) = .done result ∧
      result.2 = updateDatabase dbs dbId fun s =>
        putAll ds.put s (pairs.map fun q => (q.1.data, q.2.data)) := by
  obtain ⟨fuel, kptrs, vptrs, hdone, hkptrs, hvptrs⟩ := sdskvPutMulti_done ds hreads hcalls hdb
    (by rw [List.length_map, List.length_map]) (List.forall_mem_map.2 hkeys)
    (by rwa [List.length_map]) hkeysFit hvaluesFit
  refine ⟨fuel, _, hdone, ?_⟩
  rw [updateDatabase_of_some hdb, hbase.putMulti_snd s hkptrs hvptrs]

theorem sdskvPutPacked_snd (hraw : ∀ s key ksize value vsize, raw s key ksize value vsize =
      ds.put s (bulkOfPointer key ksize) (bulkOfPointer value vsize))
    (hpacked : ds.putPacked = putPacked raw) (hreads : ReadsWithin reads)
    (hcalls : calls.Succeed) (hdb : dbs dbId = some s) (hlt : pairs.length < 2 ^ 32)
    (hfits : pairsBytes pairs < 2 ^ 64) :
    ∃ fuel result, sdskvPutPackedPairs ds reads calls fuel dbs dbId pairs = .done result ∧
      result.2 = updateDatabase dbs dbId fun s =>
        putAll ds.put s (pairs.map fun q => (q.1.data, q.2.data)) := by
  obtain ⟨fuel, hdone⟩ := sdskvPutPacked_done ds hreads hcalls hdb hlt hfits
  refine ⟨fuel, _, hdone, ?_⟩
  rw [updateDatabase_of_some hdb, putPacked_snd hraw hpacked s pairs]

end Puts

/-- `MapDataStore::put` copies the key and the value before it looks at the map. -/
def MapDataStore.regionReads : RegionReads MapDataStore := fun _ regions => regions

theorem MapDataStore.readsAll : ReadsAll MapDataStore.regionReads := fun _ _ => rfl

section MapBackend

variable (proc : HgProc) (dbs : Databases MapDataStore) (dbId : UInt64) (hrets : List ℕ)
  (calls : BulkCalls) (pairs : List (KvData × KvData))

/-- The databases after single puts of the pairs in order. -/
def putsOneByOne : Databases MapDataStore :=
  pairs.foldl (fun dbs q => (sdskvPut proc MapDataStore.writes hrets dbs dbId q.1 q.2).2) dbs

/-- `sdskv_put_multi` of the pairs ends and leaves the databases that single puts leave. -/
def PutMultiEqPuts : Prop :=
  ∃ fuel result, sdskvPutMulti MapDataStore.writes MapDataStore.regionReads calls fuel dbs dbId
      (pairs.map Prod.fst) (pairs.map Prod.snd) = .done result ∧
    result.2 = putsOneByOne proc dbs dbId hrets pairs

/-- `sdskv_put_packed` of the pairs ends and leaves the databases that single puts leave. -/
def PutPackedEqPuts : Prop :=
  ∃ fuel result, sdskvPutPackedPairs MapDataStore.writes MapDataStore.regionReads calls fuel dbs
      dbId pairs = .done result ∧
    result.2 = putsOneByOne proc dbs dbId hrets pairs

variable {dbs dbId hrets calls pairs}

theorem putsOneByOne_eq (hok : ∀ hret ∈ hrets, hret = hgSuccess) :
    putsOneByOne proc dbs dbId hrets pairs = updateDatabase dbs dbId fun s =>
      putAll MapDataStore.writes.put s (pairs.map fun q => (q.1.data, q.2.data)) := by
  simp only [putsOneByOne, sdskvPut_snd proc MapDataStore.writes hok]
  exact foldl_updateDatabase MapDataStore.writes.put dbs dbId pairs

/-- On the map backend, a batch put and a packed put of pairs with non-empty keys leave the
databases in the state that single puts in order leave them in, exactly when the counters of
the two client functions can hold the number of segments and of pairs, and no size of the
regions that they expose wraps around. -/
theorem putMulti_putPacked_eq_puts_iff (proc : HgProc) (dbs : Databases MapDataStore)
    (dbId : UInt64) {s : MapDataStore} (hdb : dbs dbId = some s) (hrets : List ℕ)
    (hok : ∀ hret ∈ hrets, hret = hgSuccess) (calls : BulkCalls) (hcalls : calls.Succeed)
    (pairs : List (KvData × KvData)) (hkeys : ∀ q ∈ pairs, q.1.data ≠ []) :
    (PutMultiEqPuts proc dbs dbId hrets calls pairs ↔
      pairs.length + 1 < 2 ^ 31 ∧ keysBytes (pairs.map Prod.fst) < 2 ^ 64 ∧
        keysBytes (pairs.map Prod.snd) < 2 ^ 64) ∧
      (PutPackedEqPuts proc dbs dbId hrets calls pairs ↔
        pairs.length < 2 ^ 32 ∧ pairsBytes pairs < 2 ^ 64) := by
  refine ⟨⟨?_, ?_⟩, ?_, ?_⟩
  · rintro ⟨fuel, result, hdone, -⟩
    have hlt := lt_of_sdskvPutMulti MapDataStore.readsAll hcalls hdb
      (by rw [List.length_map, List.length_map]) (List.forall_mem_map.2 hkeys) hdone
    rwa [List.length_map] at hlt
  · rintro ⟨hlt, hkeysFit, hvaluesFit⟩
    rw [PutMultiEqPuts, putsOneByOne_eq proc hok]
    exact sdskvPutMulti_snd MapDataStore.baseBatches MapDataStore.readsAll.within hcalls hdb hkeys
      hlt hkeysFit hvaluesFit
  · rintro ⟨fuel, result, hdone, -⟩
    exact lt_of_sdskvPutPacked MapDataStore.readsAll hcalls hdb hdone
  · rintro ⟨hlt, hfits⟩
    rw [PutPackedEqPuts, putsOneByOne_eq proc hok]
    exact sdskvPutPacked_snd MapDataStore.putRaw_eq rfl MapDataStore.readsAll.within hcalls hdb
      hlt hfits

/-- Two pairs with the same key, one of them with an empty value. -/
def repeatedPairs : List (KvData × KvData) :=
  [({ data := [1], size_lt := by decide }, { data := [2, 3], size_lt := by decide }),
    ({ data := [1], size_lt := by decide }, KvData.empty)]

theorem putMulti_putPacked_eq_puts_repeated :
    PutMultiEqPuts mercuryProc (fun _ => some MapDataStore.new) 5 [0] .succeeding repeatedPairs ∧
      PutPackedEqPuts mercuryProc (fun _ => some MapDataStore.new) 5 [0] .succeeding
        repeatedPairs := by
  obtain ⟨hmulti, hpacked⟩ := putMulti_putPacked_eq_puts_iff mercuryProc
    (fun _ => some MapDataStore.new) 5 rfl [0] (by decide) .succeeding
    BulkCalls.succeed_succeeding repeatedPairs (by decide)
  exact ⟨hmulti.2 (by decide), hpacked.2 (by decide)⟩

/-- With one pair fewer than the counter of the client has values, the segments are one too
many for it. -/
theorem not_putMulti_eq_puts_manyPairs :
    ¬ PutMultiEqPuts mercuryProc (fun _ => some MapDataStore.new) 5 [0] .succeeding
      (List.replicate (2 ^ 31 - 1) (KvData.single 1, KvData.single 2)) := by
  rintro ⟨fuel, result, hdone, -⟩
  have hkeys : ∀ key ∈ (List.replicate (2 ^ 31 - 1)
      (KvData.single 1, KvData.single 2)).map Prod.fst, key.data ≠ [] := by
    intro key hkey
    obtain ⟨q, hq, rfl⟩ := List.mem_map.1 hkey
    rw [List.eq_of_mem_replicate hq]
    exact List.cons_ne_nil 1 []
  have hdb : (fun _ => some MapDataStore.new : Databases MapDataStore) 5 =
      some MapDataStore.new := rfl
  obtain ⟨hlt, -⟩ := lt_of_sdskvPutMulti MapDataStore.readsAll BulkCalls.succeed_succeeding hdb
    (by rw [List.length_map, List.length_map]) hkeys hdone
  rw [List.length_map, List.length_replicate] at hlt
  omega

end MapBackend

end Sdskv
