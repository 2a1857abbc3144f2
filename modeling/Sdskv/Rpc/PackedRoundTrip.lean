import Sdskv.Rpc.GetPackedValues
import Sdskv.Rpc.PutEquivalence

/-!
# Packed puts, their lengths and their values

A client that has put pairs with different keys can ask for the lengths of the values, and then
get them with a buffer of just this size. The values come back as they were put, unless all of
them are empty: then there is no memory for values, and the get is answered with an error.
-/

namespace Sdskv

open Wire

/-- Pairs whose keys and values lie back to back in the memory of a client, which also holds the
arrays of their sizes. -/
structure PackedPairs where
  pairs : List (KvData × KvData)
  fits : 16 * pairs.length + (pairs.map fun q => q.1.data.length).sum +
    (pairs.map fun q => q.2.data.length).sum < 2 ^ 64

namespace PackedPairs

variable (q : PackedPairs)

theorem keysBytes_lt : keysBytes (q.pairs.map Prod.fst) < 2 ^ 64 := by
  have hfits := q.fits
  have hsizes : (q.pairs.map Prod.fst).map (fun key => key.data.length) =
      q.pairs.map fun q => q.1.data.length := List.map_map
  rw [keysBytes, List.length_map, hsizes]
  omega

/-- The keys of the pairs. -/
def keys : PackedKeys where
  keys := q.pairs.map Prod.fst
  fits := q.keysBytes_lt

/-- The argument `packed_values` of a put. -/
def values : Pointer := (q.pairs.map fun q => q.2.data).flatten

/-- The argument `vsizes` of a put. -/
def vsizes : List ℕ := q.pairs.map fun q => q.2.data.length

theorem keys_keys : q.keys.keys = q.pairs.map Prod.fst := rfl

theorem length_keys : q.keys.keys.length = q.pairs.length := List.length_map _

theorem pointer_keys : q.keys.pointer = (q.pairs.map fun q => q.1.data).flatten := by
  rw [PackedKeys.pointer, keys, List.map_map]
  rfl

theorem ksizes_keys : q.keys.ksizes = q.pairs.map fun q => q.1.data.length := by
  rw [PackedKeys.ksizes, keys, List.map_map]
  rfl

theorem length_values : q.values.length = q.vsizes.sum := length_flatten_data Prod.snd q.pairs

/-- The values fit into the memory of a client, next to the array of their sizes. -/
theorem vsizes_lt : 8 * q.pairs.length + q.vsizes.sum < 2 ^ 64 := by
  have hfits := q.fits
  rw [vsizes]
  omega

end PackedPairs

/-- Each put of a batch succeeds, on the state that the puts in front of it leave. -/
def AcceptsAll {σ : Type} (put : σ → Bulk → Bulk → SdskvReturn × σ) :
    σ → List (Bulk × Bulk) → Prop
  | _, [] => True
  | s, (key, value) :: pairs =>
      (put s key value).1 = .success ∧ AcceptsAll put (put s key value).2 pairs

/-- A put that succeeds binds its key and the keys that the order does not tell apart from it,
and a packed put makes the puts of its pairs. -/
structure StoresPuts {σ : Type} (ds : DatastoreReads σ) (I : σ → Prop)
    (view : σ → Bulk → Option Bulk) (lt : Bulk → Bulk → Prop) [DecidableRel lt] : Prop where
  packed : ∃ raw : σ → Pointer → ℕ → Pointer → ℕ → SdskvReturn × σ,
    (∀ s key ksize value vsize, raw s key ksize value vsize =
      ds.put s (bulkOfPointer key ksize) (bulkOfPointer value vsize)) ∧
    ds.putPacked = putPacked raw
  keeps : ∀ s key value, I s → I (ds.put s key value).2
  put : ∀ s key value, I s → (ds.put s key value).1 = .success → ∀ k,
    view (ds.put s key value).2 k = if IncompRel lt key k then some value else view s k

section Backends

theorem MapDataStore.storesPuts (less : Option ComparatorFn)
    [IsStrictWeakOrder Bulk (keycmp less)] :
    StoresPuts MapDataStore.reads (fun s => s.less = less) MapDataStore.get (keycmp less) where
  packed := ⟨MapDataStore.putRaw, MapDataStore.putRaw_eq, rfl⟩
  keeps s key value hs := (s.put_less key value).trans hs
  put s key value hs hput k := by
    subst hs
    have hput' : (s.put key value).1 = .success := hput
    have hne : (s.put key value).1 ≠ .errKeyexists := by
      rw [hput']
      decide
    change (s.put key value).2.get k = _
    rw [MapDataStore.put_of_ne_errKeyexists hne]
    exact OrderedMap.lookup_assign (keycmp s.less) s.map key value k

theorem LevelDBDataStore.storesPuts {δ : Type} {db : LevelDB δ} {lt : Bulk → Bulk → Prop}
    [DecidableRel lt] (S : db.Spec lt) :
    StoresPuts (LevelDBDataStore.reads db) (fun _ => True) (fun s => S.view s.dbm) lt where
  packed := by
    refine ⟨LevelDBDataStore.put db, ?_, rfl⟩
    intro s key ksize value vsize
    simp only [reads, writes, put, «exists», putUnchecked, bulkOfPointer, List.take_length]
    rfl
  keeps s key value _ := trivial
  put s key value _ hput k := by
    have hunchecked : ∀ t : LevelDBDataStore δ, S.view t.dbm = S.view s.dbm →
        (t.putUnchecked db key key.length value value.length).1 = .success →
        S.view (t.putUnchecked db key key.length value value.length).2.dbm k =
          if IncompRel lt key k then some value else S.view s.dbm k := by
      intro t ht hsuccess
      simp only [putUnchecked, bulkOfPointer, List.take_length] at hsuccess ⊢
      split_ifs at hsuccess with hok
      rw [S.put_ok _ _ _ hok, ht]
    change (s.put db key key.length value value.length).1 = .success at hput
    change S.view (s.put db key key.length value value.length).2.dbm k = _
    rw [LevelDBDataStore.put] at hput ⊢
    by_cases hno : s.noOverwrite = true
    · rw [if_pos hno] at hput ⊢
      by_cases hexists : (s.exists db key key.length).1 = true
      · simp only [hexists, if_true, reduceCtorEq] at hput
      · simp only [hexists] at hput ⊢
        exact hunchecked _ (S.get_view _ _) hput
    · rw [if_neg hno] at hput ⊢
      exact hunchecked s rfl hput

theorem BerkeleyDBDataStore.storesPuts {δ : Type} {db : BerkeleyDbReads δ}
    {lt : Bulk → Bulk → Prop} [DecidableRel lt] (S : db.Spec lt) :
    StoresPuts (BerkeleyDBDataStore.reads db) (fun _ => True) (fun s => S.view s.dbm) lt where
  packed := by
    refine ⟨BerkeleyDBDataStore.put db.toBerkeleyDb, ?_, rfl⟩
    intro s key ksize value vsize
    simp only [reads, writes, put, bulkOfPointer, List.take_length]
    rfl
  keeps s key value _ := trivial
  put s key value _ hput k := by
    simp only [reads, writes, BerkeleyDBDataStore.put, bulkOfPointer, List.take_length]
      at hput ⊢
    split_ifs at hput with hzero
    rw [S.put_zero _ _ _ _ hzero]
    rfl

end Backends

section Contents

variable {σ : Type} {ds : DatastoreReads σ} {I : σ → Prop} {view : σ → Bulk → Option Bulk}
  {lt : Bulk → Bulk → Prop} [DecidableRel lt]

/-- Puts that all succeed bind their pairs one after the other. -/
theorem view_putAll (hputs : StoresPuts ds I view lt) {s : σ} (hs : I s)
    {pairs : List (Bulk × Bulk)} (haccepts : AcceptsAll ds.put s pairs) :
    view (putAll ds.put s pairs) = bindAll lt (view s) pairs := by
  induction pairs generalizing s with
  | nil => rfl
  | cons q pairs ih =>
      obtain ⟨hput, hrest⟩ := haccepts
      calc view (putAll ds.put s (q :: pairs))
          = view (putAll ds.put (ds.put s q.1 q.2).2 pairs) := rfl
        _ = bindAll lt (view (ds.put s q.1 q.2).2) pairs := ih (hputs.keeps s _ _ hs) hrest
        _ = bindAll lt (view s) (q :: pairs) := by
          rw [bindAll_cons]
          congr 1
          funext k
          exact hputs.put s q.1 q.2 hs hput k

/-- Among pairs with different keys, each key keeps its value. -/
theorem bindAll_of_mem [Std.Irrefl lt] (f : Bulk → Option Bulk) {pairs : List (Bulk × Bulk)}
    (hdistinct : pairs.Pairwise fun q r => ¬ IncompRel lt q.1 r.1) {q : Bulk × Bulk}
    (hq : q ∈ pairs) : bindAll lt f pairs q.1 = some q.2 := by
  induction pairs generalizing f with
  | nil => cases hq
  | cons r pairs ih =>
      rw [List.pairwise_cons] at hdistinct
      rw [bindAll_cons]
      obtain rfl | hq := List.mem_cons.1 hq
      · rw [bindAll_of_forall_not]
        · exact if_pos (IncompRel.refl lt q.1)
        · intro r hr hincomp
          exact hdistinct.1 r hr hincomp.symm
      · exact ih _ hdistinct.2 hq

/-- A packed get of keys that are all bound finds all values. -/
theorem presentValues_of_forall {contents : Bulk → Option Bulk} {pairs : List (KvData × KvData)}
    (h : ∀ q ∈ pairs, contents q.1.data = some q.2.data) :
    presentValues contents (pairs.map Prod.fst) = pairs.map fun q => q.2.data := by
  rw [presentValues, List.filterMap_map, ← List.filterMap_eq_map]
  apply List.filterMap_congr
  intro q hq
  exact h q hq

end Contents

section Client

variable {σ : Type} (ds : DatastoreReads σ) (reads : RegionReads σ) (calls : BulkCalls)
  (dbs : Databases σ) (dbId : UInt64) (q : PackedPairs)

/-- The sizes of an array added up, in an `hg_size_t`. -/
def totalSize (sizes : List UInt64) : UInt64 := sizes.foldl (· + ·) 0

/-- A client puts pairs, asks for the lengths of the values, and gets the values in a buffer of
the summed lengths: they are what it has put. -/
def PackedRoundTrip (vsizes : List UInt64) (packedVals : Pointer) : Prop :=
  ∃ fuel stored, sdskvPutPacked ds.toDatastoreWrites reads calls fuel dbs dbId q.keys.pointer
      q.keys.ksizes q.values q.vsizes = .done stored ∧
    ∃ fuel lengths, sdskvLengthPacked ds calls fuel stored.2 dbId q.keys.pointer q.keys.ksizes
        vsizes = .done lengths ∧
      lengths.1.ret = SdskvReturn.success.code ∧
      lengths.1.vsizes = q.vsizes.map UInt64.ofNat ∧
      ∃ fuel result, sdskvGetPacked ds calls fuel lengths.2 dbId q.keys.pointer q.keys.ksizes
          (totalSize lengths.1.vsizes) packedVals vsizes = .done result ∧
        result.1.ret = SdskvReturn.success.code ∧
        result.1.num = q.pairs.length ∧
        result.1.vsizes = q.vsizes.map UInt64.ofNat ∧
        q.values <+: result.1.packedVals

/-- With memory for all values, a packed get delivers them. -/
def GetPackedDelivers (view : σ → Bulk → Option Bulk) (s : σ) (p : PackedKeys)
    (vbufsize : UInt64) (packedVals : Pointer) (vsizes : List UInt64) : Prop :=
  0 < vbufsize.toNat → (presentValues (view s) p.keys).flatten.length ≤ vbufsize.toNat →
    ∃ fuel result, sdskvGetPacked ds calls fuel dbs dbId p.pointer p.ksizes vbufsize packedVals
        vsizes = .done result ∧ GetPackedCorrect (view s) p.keys result.1

theorem totalSize_map_ofNat (sizes : List ℕ) :
    totalSize (sizes.map UInt64.ofNat) = UInt64.ofNat sizes.sum := by
  have hloop : ∀ total : ℕ, (sizes.map UInt64.ofNat).foldl (· + ·) (UInt64.ofNat total) =
      UInt64.ofNat (total + sizes.sum) := by
    induction sizes with
    | nil => exact fun total => rfl
    | cons size sizes ih =>
        intro total
        rw [List.map_cons, List.foldl_cons, ← UInt64.ofNat_add, ih, List.sum_cons,
          Nat.add_assoc]
  rw [totalSize, ← Nat.zero_add sizes.sum]
  exact hloop 0

variable {ds reads calls dbs dbId q} {I : σ → Prop} {view : σ → Bulk → Option Bulk}
  {lt : Bulk → Bulk → Prop} [DecidableRel lt] {s : σ} {contents : Bulk → Option Bulk}

/-- The lengths of values that are all bound. -/
theorem vsizes_of_lengthsRead (h : ∀ r ∈ q.pairs, contents r.1.data = some r.2.data)
    {result : LengthsResult} (hread : LengthsRead contents q.keys.keys result) :
    result.vsizes = q.vsizes.map UInt64.ofNat := by
  rw [hread.vsizes, q.keys_keys, PackedPairs.vsizes, List.map_map, List.map_map]
  apply List.map_congr_left
  intro r hr
  simp only [Function.comp_apply, h r hr, Option.map_some, Option.getD_some]

/-- The values that a packed get returns when all of them are bound. -/
theorem values_of_getPackedCorrect (h : ∀ r ∈ q.pairs, contents r.1.data = some r.2.data)
    {result : GetPackedResult} (hcorrect : GetPackedCorrect contents q.keys.keys result) :
    result.num = q.pairs.length ∧ result.vsizes = q.vsizes.map UInt64.ofNat ∧
      q.values <+: result.packedVals := by
  obtain ⟨-, hnum, hvsizes, hvals⟩ := hcorrect
  rw [q.keys_keys] at hnum hvsizes hvals
  refine ⟨?_, ?_, ?_⟩
  · rw [hnum, List.countP_map, List.countP_eq_length]
    intro r hr
    simp only [Function.comp_apply, h r hr, Option.isSome_some]
  · rw [hvsizes, PackedPairs.vsizes, List.map_map, List.map_map]
    apply List.map_congr_left
    intro r hr
    simp only [Function.comp_apply, h r hr]
  · rwa [presentValues_of_forall h] at hvals

/-- A packed put of the pairs. -/
theorem sdskvPutPacked_eq_pairs (fuel : ℕ) :
    sdskvPutPacked ds.toDatastoreWrites reads calls fuel dbs dbId q.keys.pointer q.keys.ksizes
        q.values q.vsizes =
      sdskvPutPackedPairs ds.toDatastoreWrites reads calls fuel dbs dbId q.pairs := by
  rw [q.pointer_keys, q.ksizes_keys, PackedPairs.values, PackedPairs.vsizes, sdskvPutPackedPairs]

/-- After a packed put that is accepted, each key is bound to the value of its pair. -/
theorem sdskvPutPacked_binds [Std.Irrefl lt] (hputs : StoresPuts ds I view lt)
    (hreads : ReadsWithin reads) (hcalls : calls.Succeed) (hdb : dbs dbId = some s) (hs : I s)
    (hlt : q.pairs.length < 2 ^ 32)
    (haccepts : AcceptsAll ds.put s (q.pairs.map fun r => (r.1.data, r.2.data)))
    (hdistinct : q.pairs.Pairwise fun r r' => ¬ IncompRel lt r.1.data r'.1.data) :
    ∃ fuel stored s', sdskvPutPacked ds.toDatastoreWrites reads calls fuel dbs dbId
        q.keys.pointer q.keys.ksizes q.values q.vsizes = .done stored ∧
      stored.2 dbId = some s' ∧ ∀ r ∈ q.pairs, view s' r.1.data = some r.2.data := by
  obtain ⟨raw, hraw, hpacked⟩ := hputs.packed
  obtain ⟨fuel, stored, hdone, hstored⟩ :=
    sdskvPutPacked_snd hraw hpacked hreads hcalls hdb hlt q.fits
  refine ⟨fuel, stored, putAll ds.put s (q.pairs.map fun r => (r.1.data, r.2.data)), ?_, ?_, ?_⟩
  · rw [sdskvPutPacked_eq_pairs]
    exact hdone
  · rw [hstored, updateDatabase_of_some hdb]
    exact Function.update_self dbId _ dbs
  · intro r hr
    rw [view_putAll hputs hs haccepts]
    exact bindAll_of_mem (q := (r.1.data, r.2.data)) (view s)
      (List.pairwise_map.2 hdistinct) (List.mem_map_of_mem hr)

/-- The values come back exactly when the counters of the client can hold the number of pairs,
and there is a value that is not empty. -/
theorem packedRoundTrip_iff [Std.Irrefl lt] (h : ServesReads ds view)
    (hputs : StoresPuts ds I view lt) (hreads : ReadsWithin reads) (hcalls : calls.Succeed)
    (hdb : dbs dbId = some s) (hs : I s)
    (haccepts : AcceptsAll ds.put s (q.pairs.map fun r => (r.1.data, r.2.data)))
    (hdistinct : q.pairs.Pairwise fun r r' => ¬ IncompRel lt r.1.data r'.1.data)
    {vsizes : List UInt64} (hvsizes : vsizes.length = q.pairs.length) (packedVals : Pointer) :
    PackedRoundTrip ds reads calls dbs dbId q vsizes packedVals ↔
      q.pairs.length < 2 ^ 32 ∧ (q.pairs = [] ∨ 0 < q.vsizes.sum) := by
  have hfits := q.vsizes_lt
  constructor
  · rintro ⟨_, stored, hstored, fuel, lengths, -, -, hlengths, fuel', result, hget, hret, -⟩
    constructor
    · rw [sdskvPutPacked_eq_pairs] at hstored
      exact length_lt_of_sdskvPutPacked hstored
    · by_contra hempty
      rw [not_or, Nat.pos_iff_ne_zero, not_not] at hempty
      have hkeys : q.keys.keys ≠ [] := by
        rw [q.keys_keys, ne_eq, List.map_eq_nil_iff]
        exact hempty.1
      rw [hlengths, totalSize_map_ofNat, hempty.2] at hget
      exact ret_ne_of_sdskvGetPacked_zero hcalls hkeys hget hret
  · rintro ⟨hlt, hsum⟩
    obtain ⟨fuel₁, stored, s₁, hstored, hdb₁, hbound⟩ :=
      sdskvPutPacked_binds hputs hreads hcalls hdb hs hlt haccepts hdistinct
    have hlength := q.length_keys
    obtain ⟨fuel, lengths, hdone, hread, s₂, hdbs₂, hview₂⟩ := sdskvLengthPacked_done h hcalls
      hdb₁ q.keys (by omega) (hvsizes.trans hlength.symm)
    have hlengths := vsizes_of_lengthsRead hbound hread
    rw [← hview₂] at hbound
    have hdb₂ : lengths.2 dbId = some s₂ := by
      rw [hdbs₂, Function.update_self]
    have hroom : (totalSize lengths.1.vsizes).toNat = q.vsizes.sum := by
      have hlt : q.vsizes.sum < 2 ^ 64 := by omega
      rw [hlengths, totalSize_map_ofNat]
      exact UInt64.toNat_ofNat_of_lt' hlt
    have hvalues : (presentValues (view s₂) q.keys.keys).flatten.length = q.vsizes.sum := by
      rw [q.keys_keys, presentValues_of_forall hbound]
      exact q.length_values
    have hpos : q.keys.keys = [] ∨ 0 < (totalSize lengths.1.vsizes).toNat := by
      rw [hroom]
      refine hsum.imp_left fun hnil => ?_
      rw [q.keys_keys, hnil]
      rfl
    obtain ⟨fuel', result, hget, hcorrect⟩ := sdskvGetPacked_done h hcalls hdb₂ q.keys
      packedVals vsizes (by omega) (by omega) hpos (by omega)
    exact ⟨fuel₁, stored, hstored, fuel, lengths, hdone, hread.ret, hlengths, fuel', result, hget,
      hcorrect.ret, values_of_getPackedCorrect hbound hcorrect⟩

/-- A packed get delivers the values and a packed put can be read back, exactly when the counters
of the client can hold the number of keys, the size of the buffer does not wrap, and some value
that has been put is not empty. -/
theorem getPackedDelivers_and_packedRoundTrip_iff [Std.Irrefl lt] (h : ServesReads ds view)
    (hputs : StoresPuts ds I view lt) (hreads : ReadsWithin reads) (hcalls : calls.Succeed)
    (hdb : dbs dbId = some s) (hs : I s)
    (p : PackedKeys) (vbufsize : UInt64) (packedVals packedVals' : Pointer)
    (vsizes vsizes' : List UInt64) (q : PackedPairs)
    (haccepts : AcceptsAll ds.put s (q.pairs.map fun r => (r.1.data, r.2.data)))
    (hdistinct : q.pairs.Pairwise fun r r' => ¬ IncompRel lt r.1.data r'.1.data)
    (hvsizes' : vsizes'.length = q.pairs.length) :
    (GetPackedDelivers ds calls dbs dbId view s p vbufsize packedVals vsizes ∧
        PackedRoundTrip ds reads calls dbs dbId q vsizes' packedVals') ↔
      (0 < vbufsize.toNat → (presentValues (view s) p.keys).flatten.length ≤ vbufsize.toNat →
          p.keys.length < 2 ^ 32 ∧ 8 * p.keys.length + vbufsize.toNat < 2 ^ 64) ∧
        q.pairs.length < 2 ^ 32 ∧
        (q.pairs = [] ∨ 0 < (q.pairs.map fun r => r.2.data.length).sum) := by
  refine and_congr ?_
    (packedRoundTrip_iff h hputs hreads hcalls hdb hs haccepts hdistinct hvsizes' packedVals')
  constructor
  · intro hdelivers hpos hroom
    obtain ⟨fuel, result, hdone, -⟩ := hdelivers hpos hroom
    exact lt_of_sdskvGetPacked h hcalls hdb hdone
  · intro hfits hpos hroom
    obtain ⟨hlt, hwrap⟩ := hfits hpos hroom
    exact sdskvGetPacked_done h hcalls hdb p packedVals vsizes hlt hwrap (Or.inr hpos) hroom

/-- A key that is present and one that is not. -/
def presentAndAbsentKey : PackedKeys where
  keys := [KvData.single 1, KvData.single 7]
  fits := by decide

/-- Two pairs with different keys, one of them with an empty value. -/
def differentPairs : PackedPairs where
  pairs := [(KvData.single 1, KvData.single 9), (KvData.single 7, KvData.empty)]
  fits := by decide

theorem getPackedDelivers_and_packedRoundTrip_bytes :
    GetPackedDelivers MapDataStore.reads .succeeding (oneDatabase bindsByteKey) 5
        MapDataStore.get bindsByteKey presentAndAbsentKey 1 [0] [0, 0] ∧
      PackedRoundTrip MapDataStore.reads MapDataStore.regionReads .succeeding
        (oneDatabase bindsByteKey) 5 differentPairs [0, 0] [0] := by
  have hdb : oneDatabase bindsByteKey 5 = some bindsByteKey := rfl
  exact (getPackedDelivers_and_packedRoundTrip_iff MapDataStore.servesReads
    (MapDataStore.storesPuts none) MapDataStore.readsAll.within BulkCalls.succeed_succeeding hdb rfl
    presentAndAbsentKey 1 [0] [0] [0, 0] [0, 0] differentPairs ⟨by decide, by decide, trivial⟩
    (by decide) rfl).2 ⟨fun _ _ => by decide, by decide, Or.inr (by decide)⟩

theorem keysBytes_replicate (n : ℕ) :
    keysBytes (List.replicate n (KvData.single 1)) = 9 * n := by
  have hsum : (List.replicate n 1).sum = n := by simp
  rw [keysBytes, List.length_replicate, List.map_replicate]
  change 8 * n + (List.replicate n 1).sum = 9 * n
  omega

/-- A number of keys of one byte. -/
def byteKeys (n : ℕ) (h : 9 * n < 2 ^ 64) : PackedKeys where
  keys := List.replicate n (KvData.single 1)
  fits := lt_of_eq_of_lt (keysBytes_replicate n) h

theorem length_byteKeys {n : ℕ} (h : 9 * n < 2 ^ 64) : (byteKeys n h).keys.length = n :=
  List.length_replicate

/-- With as many keys as an `unsigned` has values, the client does not come to the end of them,
though none of them is present. -/
theorem not_getPackedDelivers_manyKeys :
    ¬ GetPackedDelivers MapDataStore.reads .succeeding (oneDatabase MapDataStore.new) 5
        MapDataStore.get MapDataStore.new (byteKeys (2 ^ 32) (by decide)) 1 [0]
        (List.replicate (2 ^ 32) 0) := by
  intro hdelivers
  have hnone : presentValues MapDataStore.new.get (byteKeys (2 ^ 32) (by decide)).keys = [] := by
    rw [presentValues, List.filterMap_eq_nil_iff]
    intro key _
    rfl
  obtain ⟨fuel, result, hdone, -⟩ := hdelivers (by decide) (by rw [hnone]; decide)
  have hdb : oneDatabase MapDataStore.new 5 = some MapDataStore.new := rfl
  obtain ⟨hlt, -⟩ :=
    lt_of_sdskvGetPacked MapDataStore.servesReads BulkCalls.succeed_succeeding hdb hdone
  rw [length_byteKeys] at hlt
  omega

end Client

end Sdskv
