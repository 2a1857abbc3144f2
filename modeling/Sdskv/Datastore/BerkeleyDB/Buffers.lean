import Sdskv.Datastore.BerkeleyDB.Basic
import Sdskv.Loop.Counter
import Sdskv.Rpc.Types

/-!
# The buffers of a BerkeleyDB batch

`put_multi` sizes the key buffer from the bytes of the keys and the value buffer from the
bytes of the values and 8 bytes of bookkeeping for each, and doubles both. The builders
also keep 8 bytes for each key. `putMultiAppends` are the answers of all `append` calls,
and `putMultiAppends_iff` says when none of them drops an item.
-/

namespace Sdskv

namespace DbMultipleDataBuilder

/-- The answers of `append` for all items in order. -/
def appendResults : DbMultipleDataBuilder → List Bulk → List Bool
  | _, [] => []
  | b, d :: data => (b.append d).1 :: appendResults (b.append d).2 data

/-- The bytes that the items of a builder take, with the mark at the end. -/
def used (items : List Bulk) : ℕ := (items.map List.length).sum + 8 * items.length + 4

theorem append_of_le {b : DbMultipleDataBuilder} {d : Bulk}
    (h : used (b.items ++ [d]) ≤ b.ulen) :
    b.append d = (true, { b with items := b.items ++ [d] }) := by
  have hroom : (b.items.map List.length).sum + 8 * b.items.length + 4 + d.length + 8 ≤
      b.ulen := by
    simp [used] at h
    omega
  rw [append]
  exact if_pos hroom

theorem append_of_lt {b : DbMultipleDataBuilder} {d : Bulk}
    (h : b.ulen < used (b.items ++ [d])) : (b.append d).1 = false := by
  have hroom : ¬ (b.items.map List.length).sum + 8 * b.items.length + 4 + d.length + 8 ≤
      b.ulen := by
    simp [used] at h
    omega
  rw [append]
  simp only [if_neg hroom]

theorem used_append_le (items data : List Bulk) : used items ≤ used (items ++ data) := by
  simp [used]
  omega

/-- A builder accepts all items exactly when they fit together. -/
theorem appendResults_iff (b : DbMultipleDataBuilder) (data : List Bulk) (hne : data ≠ []) :
    (∀ r ∈ b.appendResults data, r = true) ↔ used (b.items ++ data) ≤ b.ulen := by
  induction data generalizing b with
  | nil => exact absurd rfl hne
  | cons d data ih =>
      rw [appendResults, List.forall_mem_cons]
      by_cases hfits : used (b.items ++ [d]) ≤ b.ulen
      · rw [append_of_le hfits]
        cases data with
        | nil => simpa [appendResults] using hfits
        | cons e data =>
            rw [ih _ (by simp)]
            simp
      · have hdrops := append_of_lt (Nat.lt_of_not_le hfits)
        have hle := used_append_le (b.items ++ [d]) data
        rw [List.append_assoc, List.singleton_append] at hle
        rw [hdrops]
        constructor
        · rintro ⟨h, -⟩
          cases h
        · intro h
          exact absurd (hle.trans h) hfits

theorem foldl_append_items (b : DbMultipleDataBuilder) (data : List Bulk)
    (h : used (b.items ++ data) ≤ b.ulen) :
    (data.foldl (fun b d => (b.append d).2) b).items = b.items ++ data := by
  induction data generalizing b with
  | nil => simp
  | cons d data ih =>
      have hle := used_append_le (b.items ++ [d]) data
      rw [List.append_assoc, List.singleton_append] at hle
      rw [List.foldl_cons, append_of_le (hle.trans h), ih]
      · simp
      · simpa using h

/-- The bulk put gets all items that fit together. -/
theorem appendAll_items {ulen : ℕ} {data : List Bulk} (h : used data ≤ ulen) :
    (appendAll ulen data).items = data :=
  foldl_append_items { ulen := ulen, items := [] } data h

end DbMultipleDataBuilder

namespace BerkeleyDBDataStore

open DbMultipleDataBuilder

/-- The answers of `keybuilder.append` and `databuilder.append` in `put_multi`. The loop
that sizes the buffers has a counter of 32 bits; `none` is a loop that does not end. -/
def putMultiAppends (keys values : List (Pointer × ℕ)) : Option (List Bool × List Bool) := do
  let _ ← Loop.indices 32 keys.length
  some
    (appendResults { ulen := dbtUlen (keyBufferSize (keys.map Prod.snd)), items := [] }
      (keys.map fun p => bulkOfPointer p.1 p.2),
    appendResults { ulen := dbtUlen (valueBufferSize (values.map Prod.snd)), items := [] }
      (values.map fun p => bulkOfPointer p.1 p.2))

/-- A batch is stored whole: no item is dropped, and the bulk put gets all pairs. -/
def StoresBatch (pairs : List (KvData × KvData)) : Prop :=
  let keys := pairs.map fun q => (q.1.data, q.1.data.length)
  let values := pairs.map fun q => (q.2.data, q.2.data.length)
  ∃ kresults vresults, putMultiAppends keys values = some (kresults, vresults) ∧
    (∀ r ∈ kresults, r = true) ∧ (∀ r ∈ vresults, r = true) ∧
    (appendAll (dbtUlen (keyBufferSize (keys.map Prod.snd)))
        (keys.map fun p => bulkOfPointer p.1 p.2)).items.zip
      (appendAll (dbtUlen (valueBufferSize (values.map Prod.snd)))
        (values.map fun p => bulkOfPointer p.1 p.2)).items =
      pairs.map fun q => (q.1.data, q.2.data)

/-- When a doubled and rounded size covers the item bytes `l` of `n` items. -/
theorem le_dbtUlen_alignBuffer_iff (l n : ℕ) :
    l + 8 * n + 4 ≤ dbtUlen (alignBuffer l) ↔ 8 * n + 3 ≤ l ∧ l + 1 < 2 ^ 31 := by
  simp only [dbtUlen, alignBuffer]
  split_ifs <;> omega

/-- The keys of the batch fit in their buffer. -/
theorem used_keys_iff (items : List Bulk) :
    used items ≤ dbtUlen (keyBufferSize (items.map List.length)) ↔
      8 * items.length + 3 ≤ (items.map List.length).sum ∧
        (items.map List.length).sum + 1 < 2 ^ 31 := by
  rw [used, keyBufferSize]
  exact le_dbtUlen_alignBuffer_iff _ _

theorem sum_map_add (sizes : List ℕ) (c : ℕ) :
    (sizes.map (· + c)).sum = sizes.sum + c * sizes.length := by
  induction sizes with
  | nil => rfl
  | cons size sizes ih =>
      rw [List.map_cons, List.sum_cons, ih, List.sum_cons, List.length_cons]
      ring

/-- The values of the batch fit in their buffer as long as its size has 32 bits. -/
theorem used_values_iff {items : List Bulk} (hne : items ≠ []) :
    used items ≤ dbtUlen (valueBufferSize (items.map List.length)) ↔
      (items.map List.length).sum + 8 * items.length + 1 < 2 ^ 31 := by
  have hpos : 0 < items.length := List.length_pos_iff.2 hne
  have hsum := sum_map_add (items.map List.length) 8
  rw [List.length_map] at hsum
  have hiff := le_dbtUlen_alignBuffer_iff ((items.map List.length).sum + 8 * items.length) 0
  rw [used, valueBufferSize, hsum]
  omega

/-- The arrays that point to the data of the batch hold its bytes and its sizes. -/
theorem pointers_data {ι : Type*} (f : ι → KvData) (items : List ι) :
    ((items.map fun i => ((f i).data, (f i).data.length)).map fun p =>
        bulkOfPointer p.1 p.2) = (items.map fun i => (f i).data) ∧
      (items.map fun i => ((f i).data, (f i).data.length)).map Prod.snd =
        (items.map fun i => (f i).data).map List.length := by
  constructor
  · simp [bulkOfPointer, Function.comp_def]
  · simp [Function.comp_def]

/-- A batch is stored whole exactly when the loop over it ends and both buffers are large
enough. -/
theorem storesBatch_iff_used {pairs : List (KvData × KvData)} (hne : pairs ≠ []) :
    StoresBatch pairs ↔
      pairs.length < 2 ^ 32 ∧
        used (pairs.map fun q => q.1.data) ≤
          dbtUlen (keyBufferSize ((pairs.map fun q => q.1.data).map List.length)) ∧
        used (pairs.map fun q => q.2.data) ≤
          dbtUlen (valueBufferSize ((pairs.map fun q => q.2.data).map List.length)) := by
  have hkeys := pointers_data Prod.fst pairs
  have hvalues := pointers_data Prod.snd pairs
  set keys := pairs.map fun q => q.1.data with hkeysDef
  set values := pairs.map fun q => q.2.data with hvaluesDef
  have hkne : keys ≠ [] := by simpa [keys] using hne
  have hvne : values ≠ [] := by simpa [values] using hne
  have hzip : keys.zip values = pairs.map fun q => (q.1.data, q.2.data) := by
    rw [hkeysDef, hvaluesDef, List.zip_map']
  rw [StoresBatch]
  simp only [putMultiAppends, hkeys, hvalues, List.length_map, Loop.indices]
  by_cases hlt : pairs.length < 2 ^ 32
  · rw [if_pos hlt]
    simp only [Option.bind_eq_bind, Option.bind_some, Option.some.injEq, Prod.mk.injEq, hlt,
      true_and]
    constructor
    · rintro ⟨_, _, ⟨rfl, rfl⟩, hk, hv, -⟩
      rw [appendResults_iff _ _ hkne] at hk
      rw [appendResults_iff _ _ hvne] at hv
      exact ⟨hk, hv⟩
    · rintro ⟨hk, hv⟩
      refine ⟨_, _, ⟨rfl, rfl⟩, ?_, ?_, ?_⟩
      · rw [appendResults_iff _ _ hkne]
        exact hk
      · rw [appendResults_iff _ _ hvne]
        exact hv
      · rw [appendAll_items hk, appendAll_items hv, hzip]
  · rw [if_neg hlt]
    constructor
    · rintro ⟨_, _, hnone, -⟩
      cases hnone
    · rintro ⟨h, -⟩
      exact absurd h hlt

/-- A batch is stored whole exactly when its key bytes are at least three more than eight
for each key, and neither buffer reaches 4 GiB. -/
theorem storesBatch_iff (pairs : List (KvData × KvData)) (hne : pairs ≠ []) :
    StoresBatch pairs ↔
      8 * pairs.length + 3 ≤ (pairs.map fun q => q.1.data.length).sum ∧
        (pairs.map fun q => q.1.data.length).sum + 1 < 2 ^ 31 ∧
        (pairs.map fun q => q.2.data.length).sum + 8 * pairs.length + 1 < 2 ^ 31 := by
  have hvne : (pairs.map fun q => q.2.data) ≠ [] := by simpa using hne
  rw [storesBatch_iff_used hne, used_keys_iff, used_values_iff hvne]
  simp only [List.map_map, Function.comp_def, List.length_map]
  omega

/-- Three pairs, with 32 bytes of keys and an empty value. -/
def threePairs : List (KvData × KvData) :=
  [({ data := List.replicate 11 7, size_lt := by simp }, KvData.single 1),
    ({ data := List.replicate 9 8, size_lt := by simp }, KvData.empty),
    ({ data := List.replicate 12 9, size_lt := by simp }, KvData.single 3)]

theorem storesBatch_threePairs : threePairs ≠ [] ∧ StoresBatch threePairs := by
  have hne : threePairs ≠ [] := List.cons_ne_nil _ _
  exact ⟨hne, (storesBatch_iff threePairs hne).2 ⟨by decide, by decide, by decide⟩⟩

/-- One pair with a key of one byte: its buffer has 4 bytes, and the builder needs 13. -/
theorem not_storesBatch_singleByteKey :
    putMultiAppends [([7], 1)] [([1], 1)] = some ([false], [true]) ∧
      ¬ StoresBatch [(KvData.single 7, KvData.single 1)] := by
  refine ⟨by decide, ?_⟩
  rintro ⟨kresults, vresults, hresults, hk, -⟩
  have hfalse : kresults = [false] := by
    have heq : putMultiAppends [([7], 1)] [([1], 1)] = some (kresults, vresults) := hresults
    have hrun : putMultiAppends [([7], 1)] [([1], 1)] = some ([false], [true]) := by decide
    rw [hrun] at heq
    cases heq
    rfl
  rw [hfalse] at hk
  exact absurd (hk false (by simp)) (by decide)

end BerkeleyDBDataStore

end Sdskv
