import Sdskv.Loop.Counter
import Sdskv.Rpc.PutEquivalence

/-!
# The layout of a packed put

`sdskv_proxy_put_packed` takes a bulk handle to memory that the caller has laid out. Its
documentation puts the packed keys between the two arrays of sizes; the handler reads
both arrays first, as `sdskv_put_packed` lays them out. `PutPackedIn.decode` is what the
handler takes the memory for, and a buffer in the documented layout is read back exactly
when the packed keys and the array of value sizes can be exchanged.
-/

namespace Sdskv

open Wire

/-- The `n` bytes at a pointer; `none` when they are not all readable. -/
def readPointer (p : Pointer) (n : ℕ) : Option Bulk :=
  if n ≤ p.length then some (bulkOfPointer p n) else none

/-- The pairs that `put_packed` finds at the two pointers. -/
def packedPairs : Pointer → Pointer → List ℕ → List ℕ → Option (List (Bulk × Bulk))
  | keys, values, ksize :: ksizes, vsize :: vsizes => do
      let key ← readPointer keys ksize
      let value ← readPointer values vsize
      let rest ← packedPairs (keys.drop ksize) (values.drop vsize) ksizes vsizes
      some ((key, value) :: rest)
  | _, _, _, _ => some []

/-- The loop of `sdskv_put_packed_ult` that adds up the key sizes. Its counter has 32
bits, so it does not end for more keys. -/
def sumKeySizes (keySizes : List ℕ) : Option ℕ := do
  let is ← Loop.indices 32 keySizes.length
  some (is.filterMap fun i => keySizes[i]?).sum

/-- The pairs that `sdskv_put_packed_ult` passes to `put_packed`; `none` when it does not
get there, or reads outside of the buffer. -/
def PutPackedIn.decode (input : PutPackedIn) : Option (List (Bulk × Bulk)) := do
  let localBuffer := bulkPull input.bulkHandle input.bulkSize
  let keySizes := readArray 8 localBuffer input.numKeys
  let valSizes := readArray 8 (localBuffer.drop (8 * input.numKeys)) input.numKeys
  let packedKeys := localBuffer.drop (8 * input.numKeys + 8 * input.numKeys)
  let k ← sumKeySizes keySizes
  packedPairs packedKeys (packedKeys.drop k) keySizes valSizes

/-- The message of `sdskv_proxy_put_packed`. -/
def sdskvProxyPutPacked (dbId : UInt64) (originAddr : Option HgString) (num : ℕ)
    (packedData : HgBulk) (packedDataSize : ℕ) : PutPackedIn :=
  { dbId := dbId
    originAddr := originAddr
    numKeys := num
    bulkSize := packedDataSize
    bulkHandle := packedData }

theorem sumKeySizes_eq (keySizes : List ℕ) :
    sumKeySizes keySizes = if keySizes.length < 2 ^ 32 then some keySizes.sum else none := by
  rw [sumKeySizes, Loop.indices]
  split_ifs
  · simp only [Option.bind_eq_bind, Option.bind_some, Loop.filterMap_getElem?_range]
  · rfl

theorem readPointer_eq_some_iff {p : Pointer} {n : ℕ} {b : Bulk} :
    readPointer p n = some b ↔ n = b.length ∧ b <+: p := by
  rw [readPointer, bulkOfPointer]
  constructor
  · intro h
    split_ifs at h with hle
    cases h
    exact ⟨by rw [List.length_take, Nat.min_eq_left hle], List.take_prefix n p⟩
  · rintro ⟨rfl, rest, rfl⟩
    rw [if_pos (by simp), List.take_left]

/-- The pairs are found exactly when the sizes are theirs and the bytes stand at the
pointers. -/
theorem packedPairs_eq_some_iff {keys values : Pointer} {ksizes vsizes : List ℕ}
    (hlen : ksizes.length = vsizes.length) {pairs : List (Bulk × Bulk)} :
    packedPairs keys values ksizes vsizes = some pairs ↔
      ksizes = pairs.map (fun p => p.1.length) ∧ vsizes = pairs.map (fun p => p.2.length) ∧
        (pairs.map Prod.fst).flatten <+: keys ∧ (pairs.map Prod.snd).flatten <+: values := by
  induction ksizes generalizing keys values vsizes pairs with
  | nil =>
      obtain rfl : vsizes = [] := List.length_eq_zero_iff.1 hlen.symm
      cases pairs <;> simp [packedPairs]
  | cons ksize ksizes ih =>
      cases vsizes with
      | nil => cases hlen
      | cons vsize vsizes =>
          have hlen' : ksizes.length = vsizes.length := Nat.succ.inj hlen
          simp only [packedPairs, Option.bind_eq_bind, Option.bind_eq_some_iff,
            readPointer_eq_some_iff, ih hlen', Option.some.injEq]
          constructor
          · rintro ⟨key, ⟨rfl, restKeys, rfl⟩, value, ⟨rfl, restValues, rfl⟩, rest,
              ⟨hks, hvs, hkeys, hvalues⟩, rfl⟩
            rw [List.drop_left] at hkeys hvalues
            refine ⟨by rw [hks]; rfl, by rw [hvs]; rfl, ?_, ?_⟩
            · exact (List.prefix_append_right_inj key).2 hkeys
            · exact (List.prefix_append_right_inj value).2 hvalues
          · intro h
            cases pairs with
            | nil => cases h.1
            | cons p pairs =>
                obtain ⟨hks, hvs, ⟨restKeys, rfl⟩, ⟨restValues, rfl⟩⟩ := h
                cases hks
                cases hvs
                refine ⟨p.1, ⟨rfl, ?_⟩, p.2, ⟨rfl, ?_⟩, pairs, ⟨rfl, rfl, ?_, ?_⟩, rfl⟩
                · simp
                · simp
                · simp
                · simp

section Effect

variable {σ : Type} {raw : σ → Pointer → ℕ → Pointer → ℕ → SdskvReturn × σ}
  {ds : DatastoreWrites σ} {reads : RegionReads σ} {calls : BulkCalls} {dbs : Databases σ} {s : σ}

/-- The handler stores the pairs that it decodes, when both arrays of sizes are in its buffer. -/
theorem sdskvPutPackedUlt_of_decode (hbase : BaseBatches ds raw) (hreads : ReadsWithin reads)
    {input : PutPackedIn} {localBuffer : Bulk} (hreceived : input.receive calls = .ok localBuffer)
    (hsize : input.bulkSize < 2 ^ 64) (harrays : 16 * input.numKeys ≤ input.bulkSize)
    (hdb : dbs input.dbId = some s) {pairs : List (Bulk × Bulk)}
    (h : input.decode = some pairs) :
    ∃ fuel result, sdskvPutPackedUlt ds reads calls fuel dbs input = .done result ∧
      result.2 = updateDatabase dbs input.dbId fun s => putAll ds.put s pairs := by
  obtain ⟨hbuffer, hlength⟩ := BulkCalls.pull_whole (BulkCalls.receive_eq_ok hreceived)
  obtain ⟨k, hk, hpairs⟩ := Option.bind_eq_some_iff.1 h
  rw [← hbuffer] at hk hpairs
  rw [sumKeySizes_eq] at hk
  split_ifs at hk with hlt
  have hcount : ∀ buffer : Bulk, (readArray 8 buffer input.numKeys).length = input.numKeys := by
    intro buffer
    simp [readArray]
  rw [hcount] at hlt
  cases hk
  set keys := localBuffer.drop (8 * input.numKeys + 8 * input.numKeys) with hkeys
  set ksizes := readArray 8 localBuffer input.numKeys with hksizes
  set vsizes := readArray 8 (localBuffer.drop (8 * input.numKeys)) input.numKeys with hvsizes
  obtain ⟨hks, hvs, ⟨restKeys, hkeyData⟩, ⟨restValues, hvalData⟩⟩ :=
    (packedPairs_eq_some_iff (by rw [hksizes, hvsizes, hcount, hcount])).1 hpairs
  -- the sum of the key sizes does not wrap, since the keys are in the buffer
  have hkeysLength : keys.length = input.bulkSize - (8 * input.numKeys + 8 * input.numKeys) := by
    rw [hkeys, List.length_drop, hlength]
  have hksum : ksizes.sum + restKeys.length = keys.length := by
    rw [← hkeyData, List.length_append, List.length_flatten, List.map_map, hks]
    rfl
  have hvsum : vsizes.sum + restValues.length = keys.length - ksizes.sum := by
    rw [← List.length_drop, ← hvalData, List.length_append, List.length_flatten, List.map_map, hvs]
    rfl
  have hsum := Loop.foldl_add_mod (2 ^ 64) ksizes 0
  rw [Nat.zero_mod, Nat.zero_add, Nat.mod_eq_of_lt (by omega)] at hsum
  have hloop : Loop.through (keySizesBody localBuffer) (List.range input.numKeys) 0 =
      some ksizes.sum := by
    rw [List.range_eq_range', through_keySizesBody, if_pos (by omega), wordsFrom_zero, ← hksizes,
      hsum]
  obtain ⟨fuel, hdone⟩ := Loop.ends_iff.2 ⟨hlt, hloop⟩
  have hargs : putPackedArgs fuel input.numKeys localBuffer =
      .done { keys := keys, ksizes := ksizes, values := keys.drop ksizes.sum,
              vsizes := vsizes } := by
    rw [putPackedArgs, hdone, Loop.Run.bind, packedArgs_eq, if_pos (by omega), wordsFrom_zero,
      wordsFrom_eq_readArray, Loop.Run.ofOption]
  have hcall : callPutPacked ds reads s
      { keys := keys, ksizes := ksizes, values := keys.drop ksizes.sum, vsizes := vsizes } =
        some ((ds.putPacked s keys ksizes (keys.drop ksizes.sum) vsizes).1.code,
          (ds.putPacked s keys ksizes (keys.drop ksizes.sum) vsizes).2) := by
    rw [callPutPacked_eq, if_pos]
    intro region hregion
    have hvaluesLength : (keys.drop ksizes.sum).length = keys.length - ksizes.sum :=
      List.length_drop
    have hkeysLt : keys.length < 2 ^ 64 := by omega
    have hvaluesLt : (keys.drop ksizes.sum).length < 2 ^ 64 := by omega
    refine (regions_le_iff hkeysLt hvaluesLt).2 ?_ region (hreads s _ hregion)
    dsimp only
    omega
  refine ⟨fuel, ((ds.putPacked s keys ksizes (keys.drop ksizes.sum) vsizes).1.code,
    Function.update dbs input.dbId
      (some (ds.putPacked s keys ksizes (keys.drop ksizes.sum) vsizes).2)), ?_, ?_⟩
  · simp only [sdskvPutPackedUlt, serveMulti_of_ok hdb hreceived, hargs, Loop.Run.bind, hcall,
      Loop.Run.ofOption, Loop.Run.map]
  · rw [updateDatabase_of_some hdb, hbase.putPacked_eq, putPacked, hks, hvs]
    rw [putPackedLoop_snd hbase.raw_eq _ _ .success s 0 0 pairs restKeys restValues hkeyData.symm
      (by rw [← hks]; exact hvalData.symm)]

end Effect

section Documented

/-- The packed keys of the pairs. -/
def packedKeys (pairs : List (KvData × KvData)) : Bulk :=
  (pairs.map fun q => q.1.data).flatten

/-- The packed values of the pairs. -/
def packedValues (pairs : List (KvData × KvData)) : Bulk :=
  (pairs.map fun q => q.2.data).flatten

/-- The array of the key sizes. -/
def keySizesBytes (pairs : List (KvData × KvData)) : Bulk :=
  arrayBytes 8 (pairs.map fun q => q.1.data.length)

/-- The array of the value sizes. -/
def valSizesBytes (pairs : List (KvData × KvData)) : Bulk :=
  arrayBytes 8 (pairs.map fun q => q.2.data.length)

/-- The layout that the documentation of `sdskv_proxy_put_packed` prescribes:
`[num key sizes][packed keys][num val sizes][packed values]`. -/
def documentedLayout (pairs : List (KvData × KvData)) : Bulk :=
  keySizesBytes pairs ++ (packedKeys pairs ++ (valSizesBytes pairs ++ packedValues pairs))

/-- The pairs as the datastore gets them. -/
def pairsData (pairs : List (KvData × KvData)) : List (Bulk × Bulk) :=
  pairs.map fun q => (q.1.data, q.2.data)

theorem length_valSizesBytes (pairs : List (KvData × KvData)) :
    (valSizesBytes pairs).length = 8 * pairs.length := by
  rw [valSizesBytes, length_arrayBytes, List.length_map]

/-- What the handler makes of the documented layout: it takes the bytes after the key
sizes for the value sizes. -/
theorem decode_documentedLayout (dbId : UInt64) (originAddr : Option HgString)
    (pairs : List (KvData × KvData)) {packedData : HgBulk}
    (hdata : packedData.flatten = documentedLayout pairs) :
    let tail := packedKeys pairs ++ (valSizesBytes pairs ++ packedValues pairs)
    let afterSizes := tail.drop (8 * pairs.length)
    (sdskvProxyPutPacked dbId originAddr pairs.length packedData
      (documentedLayout pairs).length).decode =
        if pairs.length < 2 ^ 32 then
          packedPairs afterSizes (afterSizes.drop (packedKeys pairs).length)
            (pairs.map fun q => q.1.data.length) (readArray 8 tail pairs.length)
        else none := by
  intro tail afterSizes
  have hbuffer : bulkPull packedData (documentedLayout pairs).length =
      keySizesBytes pairs ++ tail := by
    rw [bulkPull, hdata, List.take_length, documentedLayout]
  have hkeys : readArray 8 (keySizesBytes pairs ++ tail) pairs.length =
      pairs.map fun q => q.1.data.length := readArray_sizes Prod.fst pairs tail
  have hdrop : (keySizesBytes pairs ++ tail).drop (8 * pairs.length) = tail :=
    drop_sizes Prod.fst pairs tail
  have hsum : (pairs.map fun q => q.1.data.length).sum = (packedKeys pairs).length :=
    (length_flatten_data Prod.fst pairs).symm
  simp only [PutPackedIn.decode, sdskvProxyPutPacked, hbuffer, hkeys, hdrop, sumKeySizes_eq,
    List.length_map, hsum, ← List.drop_drop]
  split_ifs <;> rfl

/-- A buffer in the documented layout is decoded to its pairs exactly when there are
fewer than `2 ^ 32` of them and their packed keys can be exchanged with the array of
their value sizes. -/
theorem decode_documentedLayout_eq_iff (dbId : UInt64) (originAddr : Option HgString)
    (pairs : List (KvData × KvData)) (packedData : HgBulk)
    (hdata : packedData.flatten = documentedLayout pairs) :
    (sdskvProxyPutPacked dbId originAddr pairs.length packedData
      (documentedLayout pairs).length).decode = some (pairsData pairs) ↔
      pairs.length < 2 ^ 32 ∧
        packedKeys pairs ++ valSizesBytes pairs = valSizesBytes pairs ++ packedKeys pairs := by
  have hfst : ((pairsData pairs).map Prod.fst).flatten = packedKeys pairs := by
    simp only [pairsData, packedKeys, List.map_map, Function.comp_def]
  have hsnd : ((pairsData pairs).map Prod.snd).flatten = packedValues pairs := by
    simp only [pairsData, packedValues, List.map_map, Function.comp_def]
  have hks : (pairsData pairs).map (fun p => p.1.length) =
      pairs.map fun q => q.1.data.length := by
    simp only [pairsData, List.map_map, Function.comp_def]
  have hvs : (pairsData pairs).map (fun p => p.2.length) =
      pairs.map fun q => q.2.data.length := by
    simp only [pairsData, List.map_map, Function.comp_def]
  rw [decode_documentedLayout dbId originAddr pairs hdata]
  split_ifs with hlt
  · rw [packedPairs_eq_some_iff (by simp [readArray]), hfst, hsnd, hks, hvs]
    simp only [hlt, true_and]
    constructor
    · rintro ⟨hread, ⟨rest, hrest⟩, -⟩
      -- the first words of the tail are the value sizes, and the keys follow them
      have hlen : 8 * pairs.length ≤
          (packedKeys pairs ++ (valSizesBytes pairs ++ packedValues pairs)).length := by
        simp only [List.length_append, length_valSizesBytes]
        omega
      have htake := arrayBytes_readArray hlen
      rw [hread, ← valSizesBytes] at htake
      have hsplit := List.take_append_drop (8 * pairs.length)
        (packedKeys pairs ++ (valSizesBytes pairs ++ packedValues pairs))
      rw [← htake, ← hrest, ← List.append_assoc, ← List.append_assoc] at hsplit
      refine (List.append_inj hsplit ?_).1.symm
      simp only [List.length_append]
      omega
    · intro hcomm
      have htail : packedKeys pairs ++ (valSizesBytes pairs ++ packedValues pairs) =
          valSizesBytes pairs ++ (packedKeys pairs ++ packedValues pairs) := by
        rw [← List.append_assoc, hcomm, List.append_assoc]
      have hdrop := drop_sizes Prod.snd pairs (packedKeys pairs ++ packedValues pairs)
      rw [← valSizesBytes] at hdrop
      rw [htail, hdrop, List.drop_left]
      refine ⟨readArray_sizes Prod.snd pairs _, List.prefix_append _ _, List.prefix_refl _⟩
  · exact iff_of_false (by simp) fun h => hlt h.1

/-- Two keys that are together the array of the sizes of their values. -/
def sizeKeyPairs : List (KvData × KvData) :=
  [({ data := [1, 0, 0], size_lt := by decide }, KvData.single 7),
    ({ data := [0, 0, 0, 0, 0, 2, 0, 0, 0, 0, 0, 0, 0], size_lt := by decide },
      { data := [8, 9], size_lt := by decide })]

theorem decode_documentedLayout_sizeKeys :
    (sdskvProxyPutPacked 5 none 2 [documentedLayout sizeKeyPairs] 51).decode =
      some [([1, 0, 0], [7]), ([0, 0, 0, 0, 0, 2, 0, 0, 0, 0, 0, 0, 0], [8, 9])] :=
  (decode_documentedLayout_eq_iff 5 none sizeKeyPairs [documentedLayout sizeKeyPairs]
    (by simp)).2 ⟨by decide, by decide⟩

/-- One pair with a key of one byte. -/
def bytePair : List (KvData × KvData) :=
  [(KvData.single 1, KvData.single 2)]

/-- Its key is taken for the first byte of the value size. -/
theorem decode_documentedLayout_bytePair :
    (sdskvProxyPutPacked 5 none 1 [documentedLayout bytePair] 18).decode = none ∧
      (sdskvProxyPutPacked 5 none 1 [documentedLayout bytePair] 18).decode ≠
        some (pairsData bytePair) := by
  have h : (sdskvProxyPutPacked 5 none 1 [documentedLayout bytePair] 18).decode = none := by
    decide
  exact ⟨h, by simp [h]⟩

end Documented

end Sdskv
