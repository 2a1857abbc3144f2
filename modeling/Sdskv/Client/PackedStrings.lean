import Sdskv.Rpc.GetPackedValues

/-!
# Packed gets into strings

The overload of `client::get_packed` for strings cuts the array of sizes to the number of
keys that were found. The handler has one size for each key, with `-1` for an absent key, so
the sizes that are cut off are those of the last keys and not those of the absent ones. All
values are found again exactly when no absent key is in front of a present one.
-/

namespace Sdskv

section Counting

variable {α : Type*} {p : α → Bool} {l : List α}

/-- If the elements with `p` are among the first `m`, there are at most `m` of them. -/
theorem countP_le_of_forall_lt {m : ℕ} (h : ∀ i a, l[i]? = some a → p a = true → i < m) :
    l.countP p ≤ m := by
  have hdrop : (l.drop m).countP p = 0 := by
    rw [List.countP_eq_zero]
    intro a ha hp
    obtain ⟨i, hi⟩ := List.mem_iff_getElem?.1 ha
    rw [List.getElem?_drop] at hi
    have hlt := h _ a hi hp
    omega
  calc l.countP p
      = (l.take m).countP p + (l.drop m).countP p := by
        rw [← List.countP_append, List.take_append_drop]
    _ = (l.take m).countP p := by rw [hdrop, Nat.add_zero]
    _ ≤ (l.take m).length := List.countP_le_length
    _ ≤ m := by rw [List.length_take]; exact Nat.min_le_left m _

/-- The elements with `p` are the first ones exactly when none of them is behind another
element. -/
theorem forall_lt_countP_iff :
    (∀ i a, l[i]? = some a → p a = true → i < l.countP p) ↔
      l.Pairwise fun a b => p b = true → p a = true := by
  induction l with
  | nil => simp
  | cons a l ih =>
      rw [List.pairwise_cons]
      by_cases ha : p a = true
      · rw [List.countP_cons_of_pos ha, ← ih]
        constructor
        · intro h
          refine ⟨fun _ _ _ => ha, fun i b hb hp => ?_⟩
          exact Nat.succ_lt_succ_iff.1 (h (i + 1) b hb hp)
        · rintro ⟨-, h⟩ i b hb hp
          cases i with
          | zero => omega
          | succ i => exact Nat.succ_lt_succ (h i b hb hp)
      · rw [List.countP_cons_of_neg ha]
        constructor
        · intro h
          have hle : l.countP p ≤ l.countP p - 1 := by
            apply countP_le_of_forall_lt
            intro i b hb hp
            have hlt := h (i + 1) b hb hp
            omega
          have hnone := List.countP_eq_zero.1 (show l.countP p = 0 by omega)
          refine ⟨fun b hb hp => absurd hp (hnone b hb), ?_⟩
          exact List.pairwise_of_forall_mem_list fun b _ c hc hp => absurd hp (hnone c hc)
        · rintro ⟨hall, -⟩ i b hb hp
          cases i with
          | zero =>
              cases hb
              exact absurd hp ha
          | succ i => exact absurd (hall b (List.mem_of_getElem? hb) hp) ha

end Counting

section Definitions

/-- `std::vector<hg_size_t>::resize`. -/
def resizeSizes (sizes : List UInt64) (n : ℕ) : List UInt64 :=
  sizes.take n ++ List.replicate (n - sizes.length) 0

/-- The overload of `client::get_packed` for strings: it returns `packed_values` and `vsizes`,
or throws an exception with the error code. -/
def clientGetPacked {σ : Type} (ds : DatastoreReads σ) (calls : BulkCalls) (fuel : ℕ)
    (dbs : Databases σ) (dbId : UInt64) (packedKeys : Pointer) (ksizes : List ℕ)
    (packedValues : KvData) (vsizes : List UInt64) :
    Loop.Run (Except Int (Bulk × List UInt64) × Databases σ) :=
  let count := ksizes.length
  (sdskvGetPacked ds calls fuel dbs dbId packedKeys ksizes packedValues.size packedValues.data
      (resizeSizes vsizes count)).map fun (result, dbs) =>
    if result.ret ≠ SdskvReturn.success.code then (.error result.ret, dbs)
    else (.ok (result.packedVals, resizeSizes result.vsizes result.num), dbs)

/-- The values along the sizes; a size `-1` has no bytes. -/
def cutAlong : List UInt64 → Bulk → List (Option Bulk)
  | [], _ => []
  | size :: sizes, bytes =>
      if size = -1 then none :: cutAlong sizes bytes
      else some (bytes.take size.toNat) :: cutAlong sizes (bytes.drop size.toNat)

/-- The value of each present key is found at the place of the key. -/
def ValuesRecovered (contents : Bulk → Option Bulk) (keys : List KvData) (packedValues : Bulk)
    (vsizes : List UInt64) : Prop :=
  ∀ (i : ℕ) (key : KvData) (w : Bulk), keys[i]? = some key → contents key.data = some w →
    (cutAlong vsizes packedValues)[i]? = some (some w)

end Definitions

section Cutting

variable {contents : Bulk → Option Bulk}

/-- The size that a client gets for a key. -/
def reportedSize (contents : Bulk → Option Bulk) (key : KvData) : UInt64 :=
  match contents key.data with
  | some w => UInt64.ofNat w.length
  | none => -1

theorem ofNat_ne_neg_one {n : ℕ} (h : n < 2 ^ 64 - 1) : UInt64.ofNat n ≠ -1 := by
  intro heq
  have hnat := congrArg UInt64.toNat heq
  rw [UInt64.toNat_ofNat', Nat.mod_eq_of_lt (by omega)] at hnat
  have hmax : (-1 : UInt64).toNat = 2 ^ 64 - 1 := rfl
  omega

/-- Cutting along the sizes of some of the keys gives what is stored for them. -/
theorem cutAlong_take {keys : List KvData} {bytes : Bulk}
    (hsmall : (presentValues contents keys).flatten.length < 2 ^ 64 - 1)
    (hbytes : (presentValues contents keys).flatten <+: bytes) (m : ℕ) :
    cutAlong ((keys.map (reportedSize contents)).take m) bytes =
      (keys.take m).map fun key => contents key.data := by
  induction keys generalizing bytes m with
  | nil => simp [cutAlong]
  | cons key keys ih =>
      cases m with
      | zero => rfl
      | succ m =>
          cases hkey : contents key.data with
          | none =>
              have hvalues : presentValues contents (key :: keys) = presentValues contents keys :=
                List.filterMap_cons_none hkey
              rw [hvalues] at hsmall hbytes
              simp [reportedSize, hkey, cutAlong, ih hsmall hbytes]
          | some w =>
              have hvalues : presentValues contents (key :: keys) =
                  w :: presentValues contents keys := List.filterMap_cons_some hkey
              obtain ⟨rest, rfl⟩ := hbytes
              rw [hvalues, List.flatten_cons, List.length_append] at hsmall
              have hne : UInt64.ofNat w.length ≠ -1 := ofNat_ne_neg_one (by omega)
              have hsize : (UInt64.ofNat w.length).toNat = w.length := by
                rw [UInt64.toNat_ofNat', Nat.mod_eq_of_lt (by omega)]
              have hrest := ih (show _ < 2 ^ 64 - 1 by omega) (List.prefix_append _ rest) m
              rw [hvalues]
              simp [reportedSize, hkey, cutAlong, hne, hsize, hrest]

end Cutting

section Main

variable {σ : Type} {ds : DatastoreReads σ} {view : σ → Bulk → Option Bulk} {calls : BulkCalls}
  {dbs : Databases σ} {dbId : UInt64} {s : σ} {p : PackedKeys}

/-- Two runs of a packed get that end have the same result. -/
theorem sdskvGetPacked_unique (hcalls : calls.Succeed) (hdb : dbs dbId = some s)
    {vbufsize : UInt64} {packedVals : Pointer} {vsizes : List UInt64} {fuel fuel' : ℕ}
    {r r' : GetPackedResult × Databases σ}
    (h : sdskvGetPacked ds calls fuel dbs dbId p.pointer p.ksizes vbufsize packedVals vsizes =
      .done r)
    (h' : sdskvGetPacked ds calls fuel' dbs dbId p.pointer p.ksizes vbufsize packedVals vsizes =
      .done r') : r = r' := by
  rw [sdskvGetPacked] at h h'
  cases hinput : getPackedIn dbId p.pointer p.ksizes vbufsize packedVals
      (vsizes.map UInt64.toNat) with
  | none =>
      rw [hinput] at h
      cases h
  | some input =>
      have hreceive := receive_getPackedIn_of_succeed hcalls hinput
      rw [hinput] at h h'
      obtain ⟨u, hserver, rfl⟩ := Loop.Run.map_eq_done_iff.1 h
      obtain ⟨u', hserver', rfl⟩ := Loop.Run.map_eq_done_iff.1 h'
      obtain ⟨-, rfl⟩ := getPackedIn_eq_some_iff.1 hinput
      rw [sdskvGetPackedUlt, serveMulti_of_ok hdb hreceive, Loop.Run.map_eq_done_iff]
        at hserver hserver'
      obtain ⟨v, hbody, rfl⟩ := hserver
      obtain ⟨v', hbody', rfl⟩ := hserver'
      obtain ⟨t, hloop, rfl⟩ := Loop.Run.map_eq_done_iff.1 hbody
      obtain ⟨t', hloop', rfl⟩ := Loop.Run.map_eq_done_iff.1 hbody'
      have hthrough := (Loop.ends_iff.1 ⟨fuel, hloop⟩).2
      have hthrough' := (Loop.ends_iff.1 ⟨fuel', hloop'⟩).2
      cases hthrough.symm.trans hthrough'
      rfl

/-- A packed get with room for all values that is answered with success is correct. -/
theorem getPackedCorrect_of_done (h : ServesReads ds view) (hcalls : calls.Succeed)
    (hdb : dbs dbId = some s) {vbufsize : UInt64} {packedVals : Pointer} {vsizes : List UInt64}
    (hroom : (presentValues (view s) p.keys).flatten.length ≤ vbufsize.toNat) {fuel : ℕ}
    {r : GetPackedResult × Databases σ}
    (hdone : sdskvGetPacked ds calls fuel dbs dbId p.pointer p.ksizes vbufsize packedVals
      vsizes = .done r)
    (hret : r.1.ret = SdskvReturn.success.code) :
    GetPackedCorrect (view s) p.keys r.1 := by
  obtain ⟨hlt, hwrap⟩ := lt_of_sdskvGetPacked h hcalls hdb hdone
  have hpos : p.keys = [] ∨ 0 < vbufsize.toNat := by
    by_contra hnot
    obtain ⟨hkeys, hzero⟩ := not_or.1 hnot
    have hnil : vbufsize = 0 := UInt64.toNat_inj.1 (Nat.eq_zero_of_not_pos hzero)
    rw [hnil] at hdone
    exact ret_ne_of_sdskvGetPacked_zero hcalls hkeys hdone hret
  obtain ⟨fuel', r', hdone', hcorrect⟩ :=
    sdskvGetPacked_done h hcalls hdb p packedVals vsizes hlt hwrap hpos hroom
  rw [sdskvGetPacked_unique hcalls hdb hdone hdone']
  exact hcorrect

/-- What is found along the sizes that are left, when the answer is correct. -/
theorem cutAlong_of_correct {contents : Bulk → Option Bulk} {keys : List KvData}
    {result : GetPackedResult} (hcorrect : GetPackedCorrect contents keys result)
    (hsmall : (presentValues contents keys).flatten.length < 2 ^ 64 - 1) :
    cutAlong (resizeSizes result.vsizes result.num) result.packedVals =
      (keys.take (keys.countP fun key => (contents key.data).isSome)).map
        fun key => contents key.data := by
  have hvsizes : result.vsizes = keys.map (reportedSize contents) := hcorrect.vsizes
  have hle : keys.countP (fun key => (contents key.data).isSome) ≤ keys.length :=
    List.countP_le_length
  have hresize : resizeSizes result.vsizes result.num =
      (keys.map (reportedSize contents)).take
        (keys.countP fun key => (contents key.data).isSome) := by
    rw [resizeSizes, hvsizes, hcorrect.num, List.length_map, Nat.sub_eq_zero_of_le hle,
      List.replicate_zero, List.append_nil]
  rw [hresize]
  exact cutAlong_take hsmall hcorrect.packedVals _

/-- A value is recovered when its key is among as many keys as are present. -/
theorem valuesRecovered_iff {contents : Bulk → Option Bulk} {keys : List KvData}
    {result : GetPackedResult} (hcorrect : GetPackedCorrect contents keys result)
    (hsmall : (presentValues contents keys).flatten.length < 2 ^ 64 - 1) :
    ValuesRecovered contents keys result.packedVals (resizeSizes result.vsizes result.num) ↔
      ∀ i key, keys[i]? = some key → (contents key.data).isSome = true →
        i < keys.countP fun key => (contents key.data).isSome := by
  rw [ValuesRecovered, cutAlong_of_correct hcorrect hsmall]
  constructor
  · intro h i key hkey hpresent
    obtain ⟨w, hw⟩ := Option.isSome_iff_exists.1 hpresent
    have hfound := h i key w hkey hw
    rw [List.getElem?_map, Option.map_eq_some_iff] at hfound
    obtain ⟨key', hkey', -⟩ := hfound
    rw [List.getElem?_take] at hkey'
    split_ifs at hkey' with hlt
    exact hlt
  · intro h i key w hkey hw
    have hlt := h i key hkey (by rw [hw]; rfl)
    rw [List.getElem?_map, List.getElem?_take_of_lt hlt, hkey, Option.map_some, hw]

/-- After a packed get into strings with room for all values, the client can recover the
values of the present keys exactly when no absent key is in front of a present one. -/
theorem clientGetPacked_recovered_iff (h : ServesReads ds view) (hcalls : calls.Succeed)
    (hdb : dbs dbId = some s) (p : PackedKeys) (packedValues : KvData) (vsizes : List UInt64)
    (hroom : (presentValues (view s) p.keys).flatten.length ≤ packedValues.data.length)
    {fuel : ℕ} {packedValues' : Bulk} {vsizes' : List UInt64} {dbs' : Databases σ}
    (hreturn : clientGetPacked ds calls fuel dbs dbId p.pointer p.ksizes packedValues vsizes =
      .done (.ok (packedValues', vsizes'), dbs')) :
    ValuesRecovered (view s) p.keys packedValues' vsizes' ↔
      p.keys.Pairwise fun a b =>
        (view s b.data).isSome = true → (view s a.data).isSome = true := by
  obtain ⟨⟨result, dbs₁⟩, hdone, heq⟩ := Loop.Run.map_eq_done_iff.1 hreturn
  simp only [ne_eq, ite_not] at heq
  split_ifs at heq with hret
  · cases heq
    rw [← packedValues.size_toNat] at hroom
    have hcorrect := getPackedCorrect_of_done h hcalls hdb hroom hdone hret
    have hwrap := (lt_of_sdskvGetPacked h hcalls hdb hdone).2
    have hsmall : (presentValues (view s) p.keys).flatten.length < 2 ^ 64 - 1 := by
      cases hkeys : p.keys with
      | nil =>
          rw [presentValues, List.filterMap_nil, List.flatten_nil, List.length_nil]
          decide
      | cons key keys =>
          rw [hkeys, List.length_cons] at hwrap
          rw [hkeys] at hroom
          omega
    rw [valuesRecovered_iff hcorrect hsmall]
    exact forall_lt_countP_iff
  · cases heq

end Main

/-- Two keys of one byte. -/
def twoKeys (a b : UInt8) : PackedKeys where
  keys := [KvData.single a, KvData.single b]
  fits := by simp [keysBytes, KvData.single]

/-- The key 1 is present and the key 7 is absent. -/
theorem clientGetPacked_recovered_iff_presentFirst :
    ∃ dbs', clientGetPacked MapDataStore.reads .succeeding 3 (oneDatabase bindsByteKey) 5
        (twoKeys 1 7).pointer (twoKeys 1 7).ksizes (KvData.single 0) [] =
          .done (.ok ([2], [1]), dbs') ∧
      ValuesRecovered bindsByteKey.get (twoKeys 1 7).keys [2] [1] := by
  have hreturn : ∃ dbs', clientGetPacked MapDataStore.reads .succeeding 3
      (oneDatabase bindsByteKey) 5 (twoKeys 1 7).pointer (twoKeys 1 7).ksizes (KvData.single 0)
      [] = .done (.ok ([2], [1]), dbs') := ⟨_, rfl⟩
  obtain ⟨dbs', hreturn⟩ := hreturn
  exact ⟨dbs', hreturn, (clientGetPacked_recovered_iff MapDataStore.servesReads
    BulkCalls.succeed_succeeding rfl (twoKeys 1 7) (KvData.single 0) [] (by decide) hreturn).2
      (by decide)⟩

/-- With the absent key in front, the size of the present key is cut off. -/
theorem not_valuesRecovered_absentFirst :
    ∃ dbs', clientGetPacked MapDataStore.reads .succeeding 3 (oneDatabase bindsByteKey) 5
        (twoKeys 7 1).pointer (twoKeys 7 1).ksizes (KvData.single 0) [] =
          .done (.ok ([2], [-1]), dbs') ∧
      ¬ ValuesRecovered bindsByteKey.get (twoKeys 7 1).keys [2] [-1] := by
  refine ⟨_, rfl, fun h => ?_⟩
  have hvalue := h 1 (KvData.single 1) [2] rfl rfl
  cases hvalue

end Sdskv
