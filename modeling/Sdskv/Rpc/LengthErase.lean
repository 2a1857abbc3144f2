import Sdskv.Rpc.GetPacked

/-!
# The lengths of many values, and erasing many keys

`sdskv_length_multi` exposes the sizes of the keys and a segment for each key, while
`sdskv_length_packed` exposes the sizes and the keys that lie back to back. The handler finds
the same bytes in both cases, so both calls come to the same array. `sdskv_erase_multi` sends
the segments of `sdskv_length_multi`, and the handler erases the keys one after the other.
-/

namespace Sdskv

open Wire

/-- The request of `sdskv_length_packed`; `none` when a loop of the client does not end. -/
def packedKeysIn (dbId : UInt64) (packedKeys : Pointer) (ksizes : List ℕ) : Option KeysIn :=
  (unsignedSum ksizes).map fun totalKsize =>
    { dbId := dbId
      numKeys := ksizes.length
      keysBulkHandle := [arrayBytes 8 ksizes, bulkOfPointer packedKeys totalKsize]
      keysBulkSize := (totalKsize + sizesBytes ksizes.length) % 2 ^ 64 }

/-- What a client sees of the lengths: the return value and its array. -/
structure LengthsResult where
  ret : Int
  vsizes : List UInt64

/-- The array of a client, after bytes have been pushed to it. -/
def vsizesAfter (vsizes : List UInt64) (push : Bulk) : List UInt64 :=
  let memory := push ++ (arrayBytes 8 (vsizes.map UInt64.toNat)).drop push.length
  (readArray 8 memory vsizes.length).map UInt64.ofNat

section Definitions

variable {σ : Type} (ds : DatastoreReads σ) (calls : BulkCalls) (fuel : ℕ) (dbs : Databases σ)
  (dbId : UInt64)

/-- `sdskv_length_multi`, when the calls of the client succeed. A counter that overflows
leaves its behaviour undefined. -/
def sdskvLengthMulti (keys : List KvData) (vsizes : List UInt64) :
    Loop.Run (LengthsResult × Databases σ) :=
  match multiKeysIn dbId keys with
  | none => .fault
  | some input =>
      (sdskvLengthMultiUlt ds calls fuel dbs input).map fun (out, dbs') =>
        ({ ret := out.ret, vsizes := vsizesAfter vsizes out.push }, dbs')

/-- `sdskv_length_packed`, when the calls of the client succeed. -/
def sdskvLengthPacked (packedKeys : Pointer) (ksizes : List ℕ) (vsizes : List UInt64) :
    Loop.Run (LengthsResult × Databases σ) :=
  match packedKeysIn dbId packedKeys ksizes with
  | none => .running
  | some input =>
      (sdskvLengthPackedUlt ds calls fuel dbs input).map fun (out, dbs') =>
        ({ ret := out.ret, vsizes := vsizesAfter vsizes out.push }, dbs')

/-- `sdskv_erase_multi`, when the calls of the client succeed. -/
def sdskvEraseMulti (keys : List KvData) : Loop.Run (Int × Databases σ) :=
  match multiKeysIn dbId keys with
  | none => .fault
  | some input =>
      (sdskvEraseMultiUlt ds calls fuel dbs input).map fun (out, dbs') => (out.ret, dbs')

/-- The keys are erased one by one in order. -/
def eraseKeys (s : σ) (keys : List Bulk) : σ := keys.foldl (fun s key => (ds.erase s key).2) s

end Definitions

/-- The length of the value of a key, or zero. -/
def valueLength (contents : Bulk → Option Bulk) (key : Bulk) : ℕ :=
  ((contents key).map List.length).getD 0

/-- Erasing a key leaves the entries of the keys alone that the order tells apart from it. -/
structure ErasesOnly {σ : Type} (ds : DatastoreReads σ) (I : σ → Prop)
    (view : σ → Bulk → Option Bulk) (lt : Bulk → Bulk → Prop) : Prop where
  keeps : ∀ s key, I s → I (ds.erase s key).2
  others : ∀ s key k, I s → ¬ IncompRel lt key k → view (ds.erase s key).2 k = view s k

section Backends

theorem MapDataStore.erasesOnly (less : Option ComparatorFn)
    [IsStrictWeakOrder Bulk (keycmp less)] :
    ErasesOnly MapDataStore.reads (fun s => s.less = less) MapDataStore.get (keycmp less) where
  keeps s key hs := hs
  others s key k hs hk := by
    subst hs
    have hget : (s.erase key).2.get k = _ := s.get_erase key k
    rw [if_neg hk] at hget
    exact hget

theorem LevelDBDataStore.erasesOnly {δ : Type} {db : LevelDB δ} {lt : Bulk → Bulk → Prop}
    [DecidableRel lt] (S : db.Spec lt) :
    ErasesOnly (LevelDBDataStore.reads db) (fun _ => True) (fun s => S.view s.dbm) lt where
  keeps s key _ := trivial
  others s key k _ hk := by
    change S.view (db.delete s.dbm key).2 k = S.view s.dbm k
    by_cases hok : (db.delete s.dbm key).1 = .ok
    · rw [S.delete_ok _ _ hok, if_neg hk]
    · rw [S.delete_not_ok _ _ hok]

theorem BerkeleyDBDataStore.erasesOnly {δ : Type} {db : BerkeleyDbReads δ}
    {lt : Bulk → Bulk → Prop} [DecidableRel lt] (S : db.Spec lt) :
    ErasesOnly (BerkeleyDBDataStore.reads db) (fun _ => True) (fun s => S.view s.dbm) lt where
  keeps s key _ := trivial
  others s key k _ hk := by
    change S.view (db.del s.dbm key).2 k = S.view s.dbm k
    by_cases hzero : (db.del s.dbm key).1 = .zero
    · rw [S.del_zero _ _ hzero, if_neg hk]
    · rw [S.del_not_zero _ _ hzero]

end Backends

section Server

variable {σ : Type} {ds : DatastoreReads σ} {view : σ → Bulk → Option Bulk}

/-- The iterations up to key `i` have stored the lengths of the values of the first keys. -/
structure LengthsInvariant (view : σ → Bulk → Option Bulk) (contents : Bulk → Option Bulk)
    (keys : List Bulk) (i : ℕ) (t : σ × List ℕ) : Prop where
  kept : view t.1 = contents
  sizes : t.2 = (keys.take i).map (valueLength contents) ++ List.replicate (keys.length - i) 0

theorem LengthsInvariant.step (h : ServesReads ds view) {contents : Bulk → Option Bulk}
    {keys : List Bulk} {i : ℕ} {key : Bulk} {t : σ × List ℕ} (hkey : keys[i]? = some key)
    (ht : LengthsInvariant view contents keys i t) :
    ∃ t', lengthAct ds i key t = some t' ∧ LengthsInvariant view contents keys (i + 1) t' := by
  obtain ⟨s, sizes⟩ := t
  obtain ⟨hkept, hsizes⟩ := ht
  simp only at hkept hsizes
  subst hkept
  subst hsizes
  obtain ⟨hi, -⟩ := List.getElem?_eq_some_iff.1 hkey
  obtain ⟨hlength, hview⟩ := h.length s key
  have htake : ((keys.take i).map (valueLength (view s))).length = i := by
    rw [List.length_map, List.length_take]
    omega
  have hroom : i < ((keys.take i).map (valueLength (view s)) ++
      List.replicate (keys.length - i) 0).length := by
    rw [List.length_append, htake, List.length_replicate]
    omega
  refine ⟨_, if_pos hroom, hview, ?_⟩
  rw [hlength, List.set_append_right _ _ (by omega), htake, Nat.sub_self, List.take_add_one,
    hkey, show keys.length - i = keys.length - (i + 1) + 1 by omega, List.replicate_succ,
    List.set_cons_zero]
  simp [valueLength]

/-- The loop over the keys collects the lengths of their values. -/
theorem forItems_lengthAct (h : ServesReads ds view) (s : σ) (keys : List Bulk) :
    ∃ s', forItems (lengthAct ds) 0 keys (s, List.replicate keys.length 0) =
      some (s', keys.map (valueLength (view s))) ∧ view s' = view s := by
  obtain ⟨⟨s', sizes⟩, hact, hkept, hsizes⟩ := forItems_invariant (lengthAct ds)
    (LengthsInvariant view (view s) keys) (fun i key t hkey ht => ht.step h hkey)
    (u := (s, List.replicate keys.length 0)) ⟨rfl, by simp⟩
  simp only [List.take_length, Nat.sub_self, List.replicate_zero, List.append_nil] at hsizes
  subst hsizes
  exact ⟨s', hact, hkept⟩

theorem forItems_eraseAct (i : ℕ) (s : σ) (keys : List Bulk) :
    forItems (eraseAct ds) i keys s = some (eraseKeys ds s keys) := by
  induction keys generalizing i s with
  | nil => rfl
  | cons key keys ih =>
      rw [forItems, eraseAct, Option.bind_some, ih]
      rfl

/-- Erasing keys leaves the entries of the others alone. -/
theorem view_eraseKeys {I : σ → Prop} {lt : Bulk → Bulk → Prop}
    (herase : ErasesOnly ds I view lt) {s : σ} (hs : I s) {keys : List Bulk} {k : Bulk}
    (hk : ∀ key ∈ keys, ¬ IncompRel lt key k) : view (eraseKeys ds s keys) k = view s k := by
  induction keys generalizing s with
  | nil => rfl
  | cons key keys ih =>
      rw [List.forall_mem_cons] at hk
      calc view (eraseKeys ds s (key :: keys)) k
          = view (eraseKeys ds (ds.erase s key).2 keys) k := rfl
        _ = view (ds.erase s key).2 k := ih (herase.keeps s key hs) hk.2
        _ = view s k := herase.others s key k hs hk.1

end Server

section Handlers

variable {σ : Type} {ds : DatastoreReads σ} {view : σ → Bulk → Option Bulk} {calls : BulkCalls}
  {dbs : Databases σ} {s : σ} {input : KeysIn} {keysBuffer : Bulk} {keys : List Bulk}

/-- The handler that finds the keys in its buffer pushes the lengths of their values, and
keeps the contents. -/
theorem sdskvLengthMultiUlt_done (h : ServesReads ds view) (hcalls : calls.Succeed)
    (hdb : dbs input.dbId = some s) (hreceive : input.receive calls = .ok keysBuffer)
    (hn : input.numKeys < 2 ^ 32)
    (hread : readPacked keysBuffer (sizesBytes input.numKeys) input.numKeys 0 0 = some keys) :
    ∃ fuel s', sdskvLengthMultiUlt ds calls fuel dbs input =
      .done ({ ret := SdskvReturn.success.code,
               push := arrayBytes 8 (keys.map (valueLength (view s))) },
        Function.update dbs input.dbId (some s')) ∧ view s' = view s := by
  obtain ⟨s', hact, hview⟩ := forItems_lengthAct h s keys
  rw [length_of_readPacked hread] at hact
  obtain ⟨fuel, hfuel⟩ := walkPacked_ends_iff.2 ⟨hn, keys, hread, _, hact, rfl⟩
  refine ⟨fuel, s', ?_, hview⟩
  rw [sdskvLengthMultiUlt, serveMulti_of_ok hdb hreceive, hfuel]
  simp [Loop.Run.map, BulkCalls.pushed, hcalls.2]

/-- The handler that finds the keys in its buffer erases them. -/
theorem sdskvEraseMultiUlt_done (ds : DatastoreReads σ) (hdb : dbs input.dbId = some s)
    (hreceive : input.receive calls = .ok keysBuffer) (hn : input.numKeys < 2 ^ 32)
    (hread : readPacked keysBuffer (sizesBytes input.numKeys) input.numKeys 0 0 = some keys) :
    ∃ fuel, sdskvEraseMultiUlt ds calls fuel dbs input =
      .done ({ ret := SdskvReturn.success.code, push := [] },
        Function.update dbs input.dbId (some (eraseKeys ds s keys))) := by
  obtain ⟨fuel, hfuel⟩ :=
    walkPacked_ends_iff.2 ⟨hn, keys, hread, _, forItems_eraseAct 0 s keys, rfl⟩
  refine ⟨fuel, ?_⟩
  rw [sdskvEraseMultiUlt, serveMulti_of_ok hdb hreceive, hfuel]
  rfl

/-- A handler that ends has found all keys in its buffer. -/
theorem readPacked_of_lengthMulti (hdb : dbs input.dbId = some s)
    (hreceive : input.receive calls = .ok keysBuffer) {fuel : ℕ}
    {r : MultiOut × Databases σ} (hdone : sdskvLengthMultiUlt ds calls fuel dbs input = .done r) :
    readPacked keysBuffer (sizesBytes input.numKeys) input.numKeys 0 0 ≠ none := by
  rw [sdskvLengthMultiUlt, serveMulti_of_ok hdb hreceive, Loop.Run.map_eq_done_iff] at hdone
  obtain ⟨r', hloop, -⟩ := hdone
  obtain ⟨t, hloop, -⟩ := Loop.Run.map_eq_done_iff.1 hloop
  obtain ⟨-, keys, hkeys, -⟩ := walkPacked_ends_iff.1 ⟨fuel, hloop⟩
  rw [hkeys]
  exact Option.some_ne_none keys

end Handlers

section Client

variable {σ : Type} {ds : DatastoreReads σ} {view : σ → Bulk → Option Bulk} {calls : BulkCalls}
  {dbs : Databases σ} {dbId : UInt64} {s : σ} {keys : List KvData}

/-- The words of an array are read back as an `hg_size_t`. -/
theorem map_ofNat_readArray (sizes : List ℕ) (rest : Bulk) :
    (readArray 8 (arrayBytes 8 sizes ++ rest) sizes.length).map UInt64.ofNat =
      sizes.map UInt64.ofNat := by
  have hwords : arrayBytes 8 sizes = arrayBytes 8 (sizes.map (· % 256 ^ 8)) := by
    rw [arrayBytes, arrayBytes, List.flatMap_map]
    simp only [leBytes_mod]
  have hlt : ∀ v ∈ sizes.map (· % 256 ^ 8), v < 256 ^ 8 := by
    intro v hv
    obtain ⟨u, -, rfl⟩ := List.mem_map.1 hv
    exact Nat.mod_lt _ (by decide)
  have hread := readArray_arrayBytes hlt rest
  rw [List.length_map, ← hwords] at hread
  rw [hread, List.map_map]
  apply List.map_congr_left
  intro v _
  exact UInt64.ofNat_mod_size

/-- The client reads the words that have been pushed to its array. -/
theorem vsizesAfter_arrayBytes {vsizes : List UInt64} {sizes : List ℕ}
    (hlength : vsizes.length = sizes.length) :
    vsizesAfter vsizes (arrayBytes 8 sizes) = sizes.map UInt64.ofNat := by
  rw [vsizesAfter]
  simp only [hlength]
  exact map_ofNat_readArray sizes _

/-- The client has the lengths of the values in its array. -/
structure LengthsRead (contents : Bulk → Option Bulk) (keys : List KvData)
    (result : LengthsResult) : Prop where
  ret : result.ret = SdskvReturn.success.code
  vsizes : result.vsizes =
    keys.map fun key => UInt64.ofNat (((contents key.data).map List.length).getD 0)

theorem lengthsRead_of_pushed {contents : Bulk → Option Bulk} {vsizes : List UInt64}
    (hvsizes : vsizes.length = keys.length) :
    LengthsRead contents keys
      { ret := SdskvReturn.success.code
        vsizes := vsizesAfter vsizes
          (arrayBytes 8 ((keys.map KvData.data).map (valueLength contents))) } where
  ret := rfl
  vsizes := by
    rw [vsizesAfter_arrayBytes (by simpa using hvsizes), List.map_map, List.map_map]
    rfl

/-- A request with a segment for each key ends with the lengths. -/
theorem sdskvLengthMulti_done (h : ServesReads ds view) (hcalls : calls.Succeed)
    (hdb : dbs dbId = some s) (hlt : keys.length + 1 < 2 ^ 31)
    (hfits : keysBytes keys < 2 ^ 64) {vsizes : List UInt64}
    (hvsizes : vsizes.length = keys.length) :
    ∃ fuel result, sdskvLengthMulti ds calls fuel dbs dbId keys vsizes = .done result ∧
      LengthsRead (view s) keys result.1 ∧
      ∃ s', result.2 dbId = some s' ∧ view s' = view s := by
  have hinput : multiKeysIn dbId keys = some _ := multiKeysIn_eq_some_iff.2 ⟨hlt, rfl⟩
  have hread := readPacked_keysBuffer keys (by omega)
  rw [if_pos hfits] at hread
  obtain ⟨fuel, s', hdone, hview⟩ := sdskvLengthMultiUlt_done h hcalls hdb
    (receive_multiKeysIn hcalls hinput) (by simp only; omega) hread
  refine ⟨fuel, (_, Function.update dbs dbId (some s')), ?_, lengthsRead_of_pushed hvsizes, s',
    Function.update_self dbId _ dbs, hview⟩
  rw [sdskvLengthMulti, hinput]
  simp only [hdone]
  rfl

/-- The packed keys and their sizes are the keys of a packed get. -/
theorem packedKeysIn_eq (dbId : UInt64) (packedKeys : Pointer) (ksizes : List ℕ)
    (vbufsize : UInt64) (packedVals : Pointer) (vsizes : List ℕ) :
    packedKeysIn dbId packedKeys ksizes =
      (getPackedIn dbId packedKeys ksizes vbufsize packedVals vsizes).map
        GetMultiIn.toKeysIn := by
  rw [packedKeysIn, getPackedIn, Option.map_map]
  rfl

theorem PackedKeys.readPacked_region (p : PackedKeys) :
    readPacked p.region (sizesBytes p.keys.length) p.keys.length 0 0 =
      some (p.keys.map KvData.data) := by
  have hlt := p.length_lt
  have hread := readPacked_keysBuffer p.keys (by omega)
  have hregion : keysBuffer p.keys = p.region := by
    rw [keysBuffer, Nat.mod_eq_of_lt p.fits, ← length_packItems_data, List.take_length, region]
  rwa [if_pos p.fits, hregion] at hread

/-- A request with the packed keys ends with the lengths, and keeps the contents. -/
theorem sdskvLengthPacked_done (h : ServesReads ds view) (hcalls : calls.Succeed)
    (hdb : dbs dbId = some s) (p : PackedKeys) (hlt : p.keys.length < 2 ^ 32)
    {vsizes : List UInt64} (hvsizes : vsizes.length = p.keys.length) :
    ∃ fuel result,
      sdskvLengthPacked ds calls fuel dbs dbId p.pointer p.ksizes vsizes = .done result ∧
        LengthsRead (view s) p.keys result.1 ∧
        ∃ s', result.2 = Function.update dbs dbId (some s') ∧ view s' = view s := by
  have hget : getPackedIn dbId p.pointer p.ksizes 0 [] [] = some _ :=
    getPackedIn_eq_some_iff.2 ⟨hlt, rfl⟩
  have hreceive := receive_getPackedIn_of_succeed hcalls hget
  have hinput := packedKeysIn_eq dbId p.pointer p.ksizes 0 [] []
  rw [hget, Option.map_some] at hinput
  obtain ⟨fuel, s', hdone, hview⟩ :=
    sdskvLengthMultiUlt_done h hcalls hdb hreceive hlt p.readPacked_region
  refine ⟨fuel, (_, Function.update dbs dbId (some s')), ?_, lengthsRead_of_pushed hvsizes, s',
    rfl, hview⟩
  rw [sdskvLengthPacked, hinput]
  simp only [sdskvLengthPackedUlt, hdone]
  rfl

/-- The keys have been erased one by one, and the entries of other keys are as before. -/
structure KeysErased (ds : DatastoreReads σ) (view : σ → Bulk → Option Bulk)
    (lt : Bulk → Bulk → Prop) (dbs : Databases σ) (dbId : UInt64) (s : σ) (keys : List KvData)
    (result : Int × Databases σ) : Prop where
  ret : result.1 = SdskvReturn.success.code
  state : result.2 = Function.update dbs dbId (some (eraseKeys ds s (keys.map KvData.data)))
  others : ∀ k, (∀ key ∈ keys, ¬ IncompRel lt key.data k) →
    view (eraseKeys ds s (keys.map KvData.data)) k = view s k

theorem sdskvEraseMulti_done {I : σ → Prop} {lt : Bulk → Bulk → Prop}
    (herase : ErasesOnly ds I view lt) (hcalls : calls.Succeed) (hdb : dbs dbId = some s)
    (hs : I s) (hlt : keys.length + 1 < 2 ^ 31) (hfits : keysBytes keys < 2 ^ 64) :
    ∃ fuel result, sdskvEraseMulti ds calls fuel dbs dbId keys = .done result ∧
      KeysErased ds view lt dbs dbId s keys result := by
  have hinput : multiKeysIn dbId keys = some _ := multiKeysIn_eq_some_iff.2 ⟨hlt, rfl⟩
  have hread := readPacked_keysBuffer keys (by omega)
  rw [if_pos hfits] at hread
  obtain ⟨fuel, hdone⟩ := sdskvEraseMultiUlt_done ds hdb (receive_multiKeysIn hcalls hinput)
    (by simp only; omega) hread
  refine ⟨fuel, (_, Function.update dbs dbId (some _)), ?_, rfl, rfl, ?_⟩
  · rw [sdskvEraseMulti, hinput]
    simp only [hdone]
    rfl
  · intro k hk
    apply view_eraseKeys herase hs
    intro key hkey
    obtain ⟨d, hd, rfl⟩ := List.mem_map.1 hkey
    exact hk d hd

/-- A call whose behaviour is defined has a number of segments that its counter can hold. -/
theorem length_lt_of_sdskvLengthMulti {fuel : ℕ} {vsizes : List UInt64}
    {result : LengthsResult × Databases σ}
    (hdone : sdskvLengthMulti ds calls fuel dbs dbId keys vsizes = .done result) :
    ∃ input, multiKeysIn dbId keys = some input ∧ keys.length + 1 < 2 ^ 31 := by
  rw [sdskvLengthMulti] at hdone
  exact length_lt_of_request hdone

/-- Both calls for the lengths return the same array, and the keys are erased one by one,
exactly when the counter of the client can hold the number of segments and the size of the
request does not wrap. -/
theorem lengths_and_erase_iff {I : σ → Prop} {lt : Bulk → Bulk → Prop}
    (h : ServesReads ds view) (herase : ErasesOnly ds I view lt) (hcalls : calls.Succeed)
    (hdb : dbs dbId = some s) (hs : I s) (keys : List KvData) (vsizes : List UInt64)
    (hvsizes : vsizes.length = keys.length) :
    ((∃ fuel result, sdskvLengthMulti ds calls fuel dbs dbId keys vsizes = .done result ∧
        LengthsRead (view s) keys result.1) ∧
      (∃ fuel result, sdskvLengthPacked ds calls fuel dbs dbId (keys.map KvData.data).flatten
          (keys.map fun key => key.data.length) vsizes = .done result ∧
        LengthsRead (view s) keys result.1) ∧
      ∃ fuel result, sdskvEraseMulti ds calls fuel dbs dbId keys = .done result ∧
        KeysErased ds view lt dbs dbId s keys result) ↔
      keys.length + 1 < 2 ^ 31 ∧
        8 * keys.length + (keys.map fun key => key.data.length).sum < 2 ^ 64 := by
  constructor
  · rintro ⟨⟨fuel, result, hdone, -⟩, -, -⟩
    obtain ⟨input, hinput, hlt⟩ := length_lt_of_sdskvLengthMulti hdone
    refine ⟨hlt, ?_⟩
    have hreceive := receive_multiKeysIn hcalls hinput
    have hread := readPacked_keysBuffer keys (by omega)
    rw [sdskvLengthMulti, hinput] at hdone
    obtain ⟨r, hserver, -⟩ := Loop.Run.map_eq_done_iff.1 hdone
    obtain ⟨-, rfl⟩ := multiKeysIn_eq_some_iff.1 hinput
    change keysBytes keys < 2 ^ 64
    by_contra hwrap
    rw [if_neg hwrap] at hread
    exact readPacked_of_lengthMulti hdb hreceive hserver hread
  · rintro ⟨hlt, hfits⟩
    obtain ⟨fuel, result, hdone, hread, -⟩ := sdskvLengthMulti_done h hcalls hdb hlt hfits
      hvsizes
    obtain ⟨fuel', result', hdone', hread', -⟩ := sdskvLengthPacked_done h hcalls hdb
      { keys := keys, fits := hfits } (by simp only; omega) hvsizes
    exact ⟨⟨fuel, result, hdone, hread⟩, ⟨fuel', result', hdone', hread'⟩,
      sdskvEraseMulti_done herase hcalls hdb hs hlt hfits⟩

theorem lengths_and_erase_byteKeys :
    ((∃ fuel result, sdskvLengthMulti MapDataStore.reads .succeeding fuel
          (oneDatabase bindsByteKey) 5 [KvData.single 1, KvData.empty] [7, 7] = .done result ∧
        LengthsRead bindsByteKey.get [KvData.single 1, KvData.empty] result.1) ∧
      (∃ fuel result, sdskvLengthPacked MapDataStore.reads .succeeding fuel
          (oneDatabase bindsByteKey) 5 [1] [1, 0] [7, 7] = .done result ∧
        LengthsRead bindsByteKey.get [KvData.single 1, KvData.empty] result.1) ∧
      ∃ fuel result, sdskvEraseMulti MapDataStore.reads .succeeding fuel
          (oneDatabase bindsByteKey) 5 [KvData.single 1, KvData.empty] = .done result ∧
        KeysErased MapDataStore.reads MapDataStore.get (keycmp none) (oneDatabase bindsByteKey)
          5 bindsByteKey [KvData.single 1, KvData.empty] result) := by
  have hdb : oneDatabase bindsByteKey 5 = some bindsByteKey := rfl
  exact (lengths_and_erase_iff MapDataStore.servesReads (MapDataStore.erasesOnly none)
    BulkCalls.succeed_succeeding hdb rfl [KvData.single 1, KvData.empty] [7, 7] rfl).2
    ⟨by decide, by decide⟩

/-- With `2 ^ 31 - 1` keys there is a segment more than the counter can hold. -/
theorem not_lengthMulti_manyKeys :
    ¬ ∃ fuel result, sdskvLengthMulti MapDataStore.reads .succeeding fuel
        (oneDatabase bindsByteKey) 5 (List.replicate (2 ^ 31 - 1) (KvData.single 1))
        (List.replicate (2 ^ 31 - 1) 7) = .done result ∧
      LengthsRead bindsByteKey.get (List.replicate (2 ^ 31 - 1) (KvData.single 1))
        result.1 := by
  rintro ⟨fuel, result, hdone, -⟩
  obtain ⟨-, -, hlt⟩ := length_lt_of_sdskvLengthMulti hdone
  rw [List.length_replicate] at hlt
  omega

end Client

end Sdskv
