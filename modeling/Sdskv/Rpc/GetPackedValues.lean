import Sdskv.Rpc.LengthErase

/-!
# The values of `sdskv_get_packed`

With memory for all values, the handler leaves an array of their sizes in front of the values,
which lie one after the other. A key that is absent has the size `-1` and no bytes, while an
empty value has the size zero.

Without memory for values the handler does not look at a key, and answers with an error.
-/

namespace Sdskv

open Wire

/-- What a client sees of a packed get: the return value, `*num`, and its memory. -/
structure GetPackedResult where
  ret : Int
  num : ℕ
  vsizes : List UInt64
  packedVals : Bulk

/-- `sdskv_get_packed`, when the calls of the client succeed; the bytes that are pushed go to
the array of sizes and on to the values. -/
def sdskvGetPacked {σ : Type} (ds : DatastoreReads σ) (calls : BulkCalls) (fuel : ℕ)
    (dbs : Databases σ) (dbId : UInt64) (packedKeys : Pointer) (ksizes : List ℕ)
    (vbufsize : UInt64) (packedVals : Pointer) (vsizes : List UInt64) :
    Loop.Run (GetPackedResult × Databases σ) :=
  match getPackedIn dbId packedKeys ksizes vbufsize packedVals (vsizes.map UInt64.toNat) with
  | none => .running
  | some input =>
      (sdskvGetPackedUlt ds calls fuel dbs input).map fun (out, dbs') =>
        let memory := out.push ++ input.valsBulkHandle.flatten.drop out.push.length
        ({ ret := out.ret
           num := out.numKeys
           vsizes := (readArray 8 memory ksizes.length).map UInt64.ofNat
           packedVals := memory.drop (8 * ksizes.length) }, dbs')

/-- The size that the handler stores for a key. -/
def packedSize (contents : Bulk → Option Bulk) (key : Bulk) : ℕ :=
  match contents key with
  | some w => w.length
  | none => 2 ^ 64 - 1

/-- The values of the keys that are present, one after the other. -/
def packedValuesOf (contents : Bulk → Option Bulk) (keys : List Bulk) : Bulk :=
  (keys.filterMap contents).flatten

section Loop

variable {σ : Type} {ds : DatastoreReads σ} {view : σ → Bulk → Option Bulk}

/-- The local buffer of the values, when the handler has gone over the keys `before` of `n`. -/
def packedBuffer (contents : Bulk → Option Bulk) (n room : ℕ) (before : List Bulk) : Bulk :=
  arrayBytes 8 (before.map (packedSize contents) ++ List.replicate (n - before.length) 0) ++
    (packedValuesOf contents before ++
      List.replicate (room - (packedValuesOf contents before).length) 0)

/-- The local variables of the handler at that point. -/
def packedState (contents : Bulk → Option Bulk) (n room : ℕ) (s : σ) (before : List Bulk) :
    GetPackedState σ where
  db := s
  keysOffset := before.flatten.length
  vals := packedBuffer contents n room before
  valsOffset := (packedValuesOf contents before).length
  availableClientMemory := room
  numKeys := (before.filterMap contents).length
  ret := .success

theorem packedValuesOf_append (contents : Bulk → Option Bulk) (keys keys' : List Bulk) :
    packedValuesOf contents (keys ++ keys') =
      packedValuesOf contents keys ++ packedValuesOf contents keys' := by
  rw [packedValuesOf, List.filterMap_append, List.flatten_append]
  rfl

theorem packedValuesOf_singleton_some {contents : Bulk → Option Bulk} {key w : Bulk}
    (h : contents key = some w) : packedValuesOf contents [key] = w := by
  simp [packedValuesOf, h]

theorem packedValuesOf_singleton_none {contents : Bulk → Option Bulk} {key : Bulk}
    (h : contents key = none) : packedValuesOf contents [key] = [] := by
  simp [packedValuesOf, h]

variable {contents : Bulk → Option Bulk} {n room : ℕ} {before : List Bulk}

/-- The size of the next key is written to the array. -/
theorem writeWord_packedBuffer (hn : before.length < n) (v : ℕ) :
    writeWord (packedBuffer contents n room before) (8 * before.length) v =
      some (arrayBytes 8 (before.map (packedSize contents) ++
          v :: List.replicate (n - (before.length + 1)) 0) ++
        (packedValuesOf contents before ++
          List.replicate (room - (packedValuesOf contents before).length) 0)) := by
  have hzeros : List.replicate (n - before.length) 0 =
      0 :: List.replicate (n - (before.length + 1)) 0 := by
    rw [← List.replicate_succ]
    congr 1
    omega
  have hwrite := writeWord_arrayBytes (before.map (packedSize contents))
    (List.replicate (n - (before.length + 1)) 0) 0 v (packedValuesOf contents before ++
      List.replicate (room - (packedValuesOf contents before).length) 0)
  rw [List.length_map] at hwrite
  rw [packedBuffer, hzeros]
  exact hwrite

/-- The buffer when the next key is absent. -/
theorem packedBuffer_none {key : Bulk} (hkey : contents key = none) :
    packedBuffer contents n room (before ++ [key]) =
      arrayBytes 8 (before.map (packedSize contents) ++
          (2 ^ 64 - 1) :: List.replicate (n - (before.length + 1)) 0) ++
        (packedValuesOf contents before ++
          List.replicate (room - (packedValuesOf contents before).length) 0) := by
  have hvalues : packedValuesOf contents (before ++ [key]) = packedValuesOf contents before := by
    rw [packedValuesOf_append, packedValuesOf_singleton_none hkey, List.append_nil]
  rw [packedBuffer, hvalues]
  simp [packedSize, hkey]

/-- The value of the next key is copied behind the others. -/
theorem writeBytes_packedBuffer {key w : Bulk} (hkey : contents key = some w)
    (hn : before.length < n) (hroom : (packedValuesOf contents before).length + w.length ≤ room) :
    writeBytes (arrayBytes 8 (before.map (packedSize contents) ++
          w.length :: List.replicate (n - (before.length + 1)) 0) ++
        (packedValuesOf contents before ++
          List.replicate (room - (packedValuesOf contents before).length) 0))
        (8 * n + (packedValuesOf contents before).length) w =
      some (packedBuffer contents n room (before ++ [key])) := by
  have hzeros : List.replicate (room - (packedValuesOf contents before).length) (0 : UInt8) =
      List.replicate w.length 0 ++
        List.replicate (room - ((packedValuesOf contents before).length + w.length)) 0 := by
    rw [← List.replicate_add]
    congr 1
    omega
  have hoffset : 8 * n + (packedValuesOf contents before).length =
      (arrayBytes 8 (before.map (packedSize contents) ++
        w.length :: List.replicate (n - (before.length + 1)) 0) ++
          packedValuesOf contents before).length := by
    rw [List.length_append, length_arrayBytes, List.length_append, List.length_map,
      List.length_cons, List.length_replicate]
    omega
  have hwrite := writeBytes_append
    (List.replicate (room - ((packedValuesOf contents before).length + w.length)) 0) hoffset
    (show (List.replicate w.length (0 : UInt8)).length = w.length from List.length_replicate)
  rw [hzeros, ← List.append_assoc, ← List.append_assoc, hwrite]
  congr 1
  rw [packedBuffer, packedValuesOf_append, packedValuesOf_singleton_some hkey]
  simp [packedSize, hkey, List.append_assoc]

/-- An iteration of the handler, when there is memory for the value of the key. -/
theorem getPackedBody_packedState (h : ServesReads ds view) {s : σ} {key : Bulk}
    {after : List Bulk} (hcontents : view s = contents)
    (hn : n = (before ++ key :: after).length) (hkey : key.length < 2 ^ 64) (hpos : 0 < room)
    (hlt : room < 2 ^ 64)
    (hroom : (packedValuesOf contents (before ++ key :: after)).length ≤ room) :
    ∃ s', getPackedBody ds (packItems (before ++ key :: after)) (8 * n) before.length
        (packedState contents n room s before) =
          some (packedState contents n room s' (before ++ [key])) ∧ view s' = contents := by
  have hsize := readWord_packItems before after hkey []
  have hread := readBytes_packItems before after key []
  rw [List.append_nil] at hsize hread
  rw [← hn] at hread
  have hi : before.length < n := by
    rw [hn, List.length_append, List.length_cons]
    omega
  have hmemory : ¬ room = 0 := by omega
  obtain ⟨hget, hview⟩ := h.get s key
  rw [hcontents] at hget hview
  refine ⟨(ds.get s key).2, ?_, hview⟩
  have hoffset : (before ++ [key]).flatten.length = before.flatten.length + key.length := by
    simp
  cases hdb : ds.get s key with
  | mk vdata s' =>
  rw [hdb] at hget
  cases vdata with
  | none =>
      rw [getPackedBody, hsize, Option.bind_eq_bind, Option.bind_some]
      simp only [packedState, hread, Option.bind_eq_bind, Option.bind_some, if_neg hmemory, hdb,
        writeWord_packedBuffer hi, packedBuffer_none hget.symm, hoffset, packedValuesOf_append,
        packedValuesOf_singleton_none hget.symm, List.append_nil, List.filterMap_append,
        List.filterMap_cons_none hget.symm, List.filterMap_nil]
  | some w =>
      have hcopied : (packedValuesOf contents before).length + w.length ≤ room := by
        rw [← List.singleton_append, packedValuesOf_append, packedValuesOf_append,
          packedValuesOf_singleton_some hget.symm] at hroom
        simp only [List.length_append] at hroom
        omega
      have hlarge : ¬ w.length > room := by omega
      have hadvance : readWord (packedBuffer contents n room (before ++ [key]))
          (8 * before.length) = some w.length := by
        have hword := readWord_writeBytes
          (writeBytes_packedBuffer hget.symm hi hcopied)
          (show 8 * before.length + 8 ≤ 8 * n + (packedValuesOf contents before).length by omega)
        rw [hword]
        exact readWord_writeWord (writeWord_packedBuffer hi w.length) (by omega)
      rw [getPackedBody, hsize, Option.bind_eq_bind, Option.bind_some]
      simp only [packedState, hread, Option.bind_eq_bind, Option.bind_some, if_neg hmemory, hdb,
        if_neg hlarge, writeWord_packedBuffer hi, writeBytes_packedBuffer hget.symm hi hcopied,
        hadvance, hoffset, packedValuesOf_append, packedValuesOf_singleton_some hget.symm,
        List.length_append, List.filterMap_append, List.filterMap_cons_some hget.symm,
        List.filterMap_nil, List.length_singleton]

/-- The iterations of the handler over the remaining keys. -/
theorem through_packedState (h : ServesReads ds view) {s : σ} {rest : List Bulk}
    (hcontents : view s = contents) (hn : n = (before ++ rest).length)
    (hkeys : ∀ key ∈ rest, key.length < 2 ^ 64) (hpos : rest = [] ∨ 0 < room)
    (hlt : room < 2 ^ 64) (hroom : (packedValuesOf contents (before ++ rest)).length ≤ room) :
    ∃ s', Loop.through (getPackedBody ds (packItems (before ++ rest)) (8 * n))
        (List.range' before.length rest.length) (packedState contents n room s before) =
          some (packedState contents n room s' (before ++ rest)) ∧ view s' = contents := by
  induction rest generalizing before s with
  | nil => exact ⟨s, by rw [List.append_nil]; rfl, hcontents⟩
  | cons key rest ih =>
      rw [List.forall_mem_cons] at hkeys
      have hmemory : 0 < room := hpos.resolve_left (List.cons_ne_nil key rest)
      obtain ⟨s₁, hbody, hview₁⟩ :=
        getPackedBody_packedState h hcontents hn hkeys.1 hmemory hlt hroom
      have hsplit : before ++ [key] ++ rest = before ++ key :: rest := by simp
      obtain ⟨s', hthrough, hview'⟩ := ih hview₁ (by rw [hsplit]; exact hn) hkeys.2
        (Or.inr hmemory) (by rw [hsplit]; exact hroom)
      rw [hsplit, List.length_append, List.length_singleton] at hthrough
      refine ⟨s', ?_, hview'⟩
      rw [List.length_cons, List.range'_succ, Loop.through, hbody, Option.bind_some]
      exact hthrough

/-- Without memory an iteration that ends reports an error. -/
theorem ret_of_getPackedBody_usedUp {keysBuffer : Bulk} {packed i : ℕ} {t t' : GetPackedState σ}
    (hroom : t.availableClientMemory = 0)
    (hbody : getPackedBody ds keysBuffer packed i t = some t') :
    t'.availableClientMemory = 0 ∧ t'.ret = .errSize := by
  rw [getPackedBody, Option.bind_eq_bind, Option.bind_eq_some_iff] at hbody
  obtain ⟨size, -, hbody⟩ := hbody
  rw [Option.bind_eq_bind, Option.bind_eq_some_iff] at hbody
  obtain ⟨key, -, hbody⟩ := hbody
  rw [if_pos hroom, Option.bind_eq_some_iff] at hbody
  obtain ⟨vals, -, hbody⟩ := hbody
  cases hbody
  exact ⟨hroom, rfl⟩

theorem ret_of_through_usedUp {keysBuffer : Bulk} {packed : ℕ} {is : List ℕ}
    {t t' : GetPackedState σ} (hroom : t.availableClientMemory = 0)
    (hret : is ≠ [] ∨ t.ret = .errSize)
    (hthrough : Loop.through (getPackedBody ds keysBuffer packed) is t = some t') :
    t'.ret = .errSize := by
  induction is generalizing t with
  | nil =>
      cases hthrough
      exact hret.resolve_left (not_not.2 rfl)
  | cons i is ih =>
      rw [Loop.through, Option.bind_eq_some_iff] at hthrough
      obtain ⟨t₁, hbody, hthrough⟩ := hthrough
      obtain ⟨hroom₁, hret₁⟩ := ret_of_getPackedBody_usedUp hroom hbody
      exact ih hroom₁ (Or.inr hret₁) hthrough

end Loop

section Client

variable {σ : Type} {ds : DatastoreReads σ} {view : σ → Bulk → Option Bulk} {calls : BulkCalls}
  {dbs : Databases σ} {dbId : UInt64} {s : σ} {p : PackedKeys} {vbufsize : UInt64}
  {packedVals : Pointer} {vsizes : List UInt64}

/-- The values of the keys that are present, in the order of the keys. -/
def presentValues (contents : Bulk → Option Bulk) (keys : List KvData) : List Bulk :=
  keys.filterMap fun key => contents key.data

theorem packedValuesOf_data (contents : Bulk → Option Bulk) (keys : List KvData) :
    packedValuesOf contents (keys.map KvData.data) = (presentValues contents keys).flatten := by
  rw [packedValuesOf, List.filterMap_map]
  rfl

/-- What a packed get should leave in the memory of the client. -/
structure GetPackedCorrect (contents : Bulk → Option Bulk) (keys : List KvData)
    (result : GetPackedResult) : Prop where
  ret : result.ret = SdskvReturn.success.code
  num : result.num = keys.countP fun key => (contents key.data).isSome
  vsizes : result.vsizes = keys.map fun key =>
    match contents key.data with
    | some w => UInt64.ofNat w.length
    | none => -1
  packedVals : (presentValues contents keys).flatten <+: result.packedVals

/-- The handler with memory for all values pushes their sizes and the values. -/
theorem sdskvGetPackedUlt_done (h : ServesReads ds view) (hcalls : calls.Succeed)
    (hdb : dbs dbId = some s) {input : GetMultiIn}
    (hinput : getPackedIn dbId p.pointer p.ksizes vbufsize packedVals
      (vsizes.map UInt64.toNat) = some input)
    (hwrap : 8 * p.keys.length + vbufsize.toNat < 2 ^ 64)
    (hpos : p.keys = [] ∨ 0 < vbufsize.toNat)
    (hroom : (presentValues (view s) p.keys).flatten.length ≤ vbufsize.toNat) :
    ∃ fuel s', sdskvGetPackedUlt ds calls fuel dbs input =
        .done ({ ret := SdskvReturn.success.code
                 push := packedBuffer (view s) p.keys.length vbufsize.toNat
                   (p.keys.map KvData.data)
                 numKeys := (presentValues (view s) p.keys).length },
          Function.update dbs dbId (some s')) := by
  have hreceive := receive_getPackedIn_of_succeed hcalls hinput
  obtain ⟨hlt, rfl⟩ := getPackedIn_eq_some_iff.1 hinput
  have hkeys : ∀ key ∈ p.keys.map KvData.data, key.length < 2 ^ 64 := by
    intro key hkey
    obtain ⟨k, -, rfl⟩ := List.mem_map.1 hkey
    exact k.size_lt
  have hn : p.keys.length = ([] ++ p.keys.map KvData.data).length := by simp
  rw [← packedValuesOf_data] at hroom
  obtain ⟨s', hthrough, -⟩ :=
    through_packedState h rfl hn hkeys (hpos.imp_left fun hnil => by rw [hnil]; rfl)
      vbufsize.toNat_lt (by rwa [List.nil_append])
  rw [List.nil_append, List.length_nil, List.length_map, ← List.range_eq_range'] at hthrough
  have hstart : packedState (view s) p.keys.length vbufsize.toNat s [] =
      { db := s
        keysOffset := 0
        vals := List.replicate (8 * p.keys.length + vbufsize.toNat) 0
        valsOffset := 0
        availableClientMemory := vbufsize.toNat
        numKeys := 0
        ret := .success } := by
    simp [packedState, packedBuffer, packedValuesOf, arrayBytes_replicate_zero]
  rw [hstart] at hthrough
  obtain ⟨fuel, hfuel⟩ := Loop.ends_iff.2 ⟨hlt, hthrough⟩
  refine ⟨fuel, s', ?_⟩
  have hsizes : sizesBytes p.keys.length = 8 * p.keys.length := sizesBytes_of_lt (by omega)
  have hmemory : (8 * p.keys.length + vbufsize.toNat + (2 ^ 64 - 8 * p.keys.length)) % 2 ^ 64 =
      vbufsize.toNat := by
    have hbuf := vbufsize.toNat_lt
    omega
  rw [sdskvGetPackedUlt, serveMulti_of_ok hdb hreceive, getPackedLoop]
  simp only [hsizes, Nat.mod_eq_of_lt hwrap, hmemory]
  rw [PackedKeys.region, hfuel]
  simp only [Loop.Run.map, BulkCalls.pushed, hcalls.2, ne_eq, not_true_eq_false, if_false,
    packedState, presentValues, List.filterMap_map]
  rfl

theorem ofNat_packedSize (contents : Bulk → Option Bulk) (key : Bulk) :
    UInt64.ofNat (packedSize contents key) =
      match contents key with
      | some w => UInt64.ofNat w.length
      | none => -1 := by
  rw [packedSize]
  cases contents key with
  | none => rfl
  | some w => rfl

/-- The client finds the sizes and the values in its memory. -/
theorem sdskvGetPacked_done (h : ServesReads ds view) (hcalls : calls.Succeed)
    (hdb : dbs dbId = some s) (p : PackedKeys) (packedVals : Pointer) (vsizes : List UInt64)
    (hlt : p.keys.length < 2 ^ 32) (hwrap : 8 * p.keys.length + vbufsize.toNat < 2 ^ 64)
    (hpos : p.keys = [] ∨ 0 < vbufsize.toNat)
    (hroom : (presentValues (view s) p.keys).flatten.length ≤ vbufsize.toNat) :
    ∃ fuel result, sdskvGetPacked ds calls fuel dbs dbId p.pointer p.ksizes vbufsize packedVals
        vsizes = .done result ∧ GetPackedCorrect (view s) p.keys result.1 := by
  have hinput : getPackedIn dbId p.pointer p.ksizes vbufsize packedVals
      (vsizes.map UInt64.toNat) = some _ := getPackedIn_eq_some_iff.2 ⟨hlt, rfl⟩
  obtain ⟨fuel, s', hdone⟩ := sdskvGetPackedUlt_done h hcalls hdb hinput hwrap hpos hroom
  refine ⟨fuel, _, by rw [sdskvGetPacked, hinput]; simp only [hdone]; rfl, ?_⟩
  have hlength : p.ksizes.length =
      ((p.keys.map KvData.data).map (packedSize (view s))).length := by
    rw [p.length_ksizes, List.length_map, List.length_map]
  have hbuffer : packedBuffer (view s) p.keys.length vbufsize.toNat (p.keys.map KvData.data) =
      arrayBytes 8 ((p.keys.map KvData.data).map (packedSize (view s))) ++
        ((presentValues (view s) p.keys).flatten ++
          List.replicate (vbufsize.toNat - (presentValues (view s) p.keys).flatten.length) 0) := by
    rw [packedBuffer, packedValuesOf_data, List.length_map, Nat.sub_self, List.replicate_zero,
      List.append_nil]
  constructor
  · rfl
  · exact List.length_filterMap_eq_countP
  · simp only [hbuffer, List.append_assoc, hlength]
    rw [map_ofNat_readArray, List.map_map, List.map_map]
    apply List.map_congr_left
    intro key _
    exact ofNat_packedSize (view s) key.data
  · simp only [hbuffer, List.append_assoc]
    rw [List.drop_left' (by rw [length_arrayBytes, hlength])]
    exact List.prefix_append _ _

/-- The request of a packed get. -/
def PackedKeys.getPackedRequest (p : PackedKeys) (dbId vbufsize : UInt64) (packedVals : Pointer)
    (vsizes : List UInt64) : GetMultiIn where
  dbId := dbId
  numKeys := p.keys.length
  keysBulkHandle := [arrayBytes 8 p.ksizes, p.pointer]
  keysBulkSize := p.region.length
  valsBulkHandle :=
    [arrayBytes 8 (vsizes.map UInt64.toNat), bulkOfPointer packedVals vbufsize.toNat]
  valsBulkSize := (8 * p.keys.length + vbufsize.toNat) % 2 ^ 64

/-- A packed get that ends: the counter of the client can hold the number of keys, and the
database is unknown or the loop of the handler has ended. -/
theorem getPackedLoop_of_sdskvGetPacked (hcalls : calls.Succeed) {fuel : ℕ}
    {result : GetPackedResult × Databases σ}
    (hdone : sdskvGetPacked ds calls fuel dbs dbId p.pointer p.ksizes vbufsize packedVals
      vsizes = .done result) :
    p.keys.length < 2 ^ 32 ∧
      (dbs dbId = none ∧ result.1.ret = SdskvReturn.errUnknownDb.code ∨
        ∃ s t, dbs dbId = some s ∧ getPackedLoop ds fuel
            (p.getPackedRequest dbId vbufsize packedVals vsizes) p.region s = .done t ∧
          result.1.ret = t.ret.code) := by
  rw [sdskvGetPacked] at hdone
  cases hinput : getPackedIn dbId p.pointer p.ksizes vbufsize packedVals
      (vsizes.map UInt64.toNat) with
  | none =>
      rw [hinput] at hdone
      cases hdone
  | some input =>
      have hreceive := receive_getPackedIn_of_succeed hcalls hinput
      rw [hinput] at hdone
      obtain ⟨r, hserver, rfl⟩ := Loop.Run.map_eq_done_iff.1 hdone
      obtain ⟨hlt, rfl⟩ := getPackedIn_eq_some_iff.1 hinput
      refine ⟨hlt, ?_⟩
      rw [sdskvGetPackedUlt] at hserver
      cases hdb : dbs dbId with
      | none =>
          rw [serveMulti, hdb] at hserver
          cases hserver
          exact Or.inl ⟨rfl, rfl⟩
      | some s =>
          rw [serveMulti_of_ok hdb hreceive, Loop.Run.map_eq_done_iff] at hserver
          obtain ⟨r', hbody, rfl⟩ := hserver
          obtain ⟨t, hloop, rfl⟩ := Loop.Run.map_eq_done_iff.1 hbody
          refine Or.inr ⟨s, t, rfl, hloop, ?_⟩
          simp only [BulkCalls.pushed, hcalls.2, ne_eq, not_true_eq_false, if_false]

/-- A packed get that ends has a counter that can hold the number of keys, and the size of the
buffer has not wrapped. -/
theorem lt_of_sdskvGetPacked (h : ServesReads ds view) (hcalls : calls.Succeed)
    (hdb : dbs dbId = some s) {fuel : ℕ} {result : GetPackedResult × Databases σ}
    (hdone : sdskvGetPacked ds calls fuel dbs dbId p.pointer p.ksizes vbufsize packedVals
      vsizes = .done result) :
    p.keys.length < 2 ^ 32 ∧ 8 * p.keys.length + vbufsize.toNat < 2 ^ 64 := by
  obtain ⟨hlt, ⟨hnone, -⟩ | ⟨s', t, hdb', hloop, -⟩⟩ :=
    getPackedLoop_of_sdskvGetPacked hcalls hdone
  · rw [hdb] at hnone
    cases hnone
  · refine ⟨hlt, ?_⟩
    have hfits := (valsOffset_of_getPackedLoop hlt (Nat.mod_lt _ (by decide)) h hloop).1
    exact ((getPackedFits_region (view s') p vbufsize).1 hfits).1

/-- Without memory for values a packed get of some keys is not answered with success. -/
theorem ret_ne_of_sdskvGetPacked_zero (hcalls : calls.Succeed) (hkeys : p.keys ≠ []) {fuel : ℕ}
    {result : GetPackedResult × Databases σ}
    (hdone : sdskvGetPacked ds calls fuel dbs dbId p.pointer p.ksizes 0 packedVals vsizes =
      .done result) : result.1.ret ≠ SdskvReturn.success.code := by
  obtain ⟨-, ⟨-, hret⟩ | ⟨s, t, -, hloop, hret⟩⟩ :=
    getPackedLoop_of_sdskvGetPacked hcalls hdone
  · rw [hret]
    decide
  · have hlt := p.length_lt
    have hmemory : ((8 * p.keys.length + (0 : UInt64).toNat) % 2 ^ 64 +
        (2 ^ 64 - sizesBytes p.keys.length)) % 2 ^ 64 = 0 := by
      rw [UInt64.toNat_zero, sizesBytes_of_lt (by omega)]
      omega
    have hindices : List.range p.keys.length ≠ [] := by
      simpa using hkeys
    obtain ⟨-, hthrough⟩ := Loop.ends_iff.1 ⟨fuel, hloop⟩
    rw [hret, ret_of_through_usedUp hmemory (Or.inl hindices) hthrough]
    decide

end Client

end Sdskv
