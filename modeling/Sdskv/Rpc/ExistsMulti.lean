import Sdskv.Rpc.Backends
import Sdskv.Rpc.Multi
import Sdskv.Wire.Bitmap

/-!
# The flags of `sdskv_exists_multi`

The handler sets bit `i` of a bitmap when key `i` exists, and the client turns the bitmap
into an array of flags. Both keep a mask of 8 bits, which the handler shifts before it
starts over and the client does not.

The counter of the client is an `int`, so the flags are right exactly when it can hold the
number of segments and the size of the request does not wrap.
-/

namespace Sdskv

open Wire

/-- What a client sees of an `exists_multi`: the return value, its flags, and the bitmap
that it has exposed. -/
structure ExistsMultiResult where
  ret : Int
  flags : List Int
  exist : Bulk

/-- The iteration of `sdskv_exists_multi` over the bitmap. -/
def readFlag (exist : Bulk) (i : ℕ) (t : List Int × UInt8) : Option (List Int × UInt8) := do
  let c ← exist[i / 8]?
  let flags ←
    if i < t.1.length then some (t.1.set i (if c &&& t.2 ≠ 0 then 1 else 0)) else none
  some (flags, if i % 8 = 7 then 1 else t.2 <<< 1)

/-- `sdskv_exists_multi`, when the calls of the client succeed. A counter that overflows
leaves its behaviour undefined. -/
def sdskvExistsMulti {σ : Type} (ds : DatastoreReads σ) (calls : BulkCalls) (fuel : ℕ)
    (dbs : Databases σ) (dbId : UInt64) (keys : List KvData) (flags : List Int) :
    Loop.Run (ExistsMultiResult × Databases σ) :=
  match multiKeysIn dbId keys with
  | none => .fault
  | some input =>
      (sdskvExistsMultiUlt ds calls fuel dbs input).bind fun (out, dbs') =>
        let exist := out.push ++ (List.replicate (flagsBytes keys.length) 0).drop out.push.length
        if out.ret ≠ SdskvReturn.success.code then
          .done ({ ret := out.ret, flags := flags, exist := exist }, dbs')
        else
          match Loop.signedIndices 32 keys.length with
          | none => .fault
          | some is =>
              .ofOption ((Loop.through (readFlag exist) is (flags, 1)).map fun t =>
                ({ ret := out.ret, flags := t.1, exist := exist }, dbs'))

/-- The flag of key `i`. -/
def keyFlag (contents : Bulk → Option Bulk) (keys : List Bulk) (i : ℕ) : Bool :=
  (keys[i]?).any fun key => (contents key).isSome

section Server

variable {σ : Type} {ds : DatastoreReads σ} {view : σ → Bulk → Option Bulk}

/-- The iterations of the handler up to key `i` have set the bits of the keys that exist. -/
structure FlagsInvariant (view : σ → Bulk → Option Bulk) (contents : Bulk → Option Bulk)
    (keys : List Bulk) (i : ℕ) (t : σ × Bulk × UInt8) : Prop where
  kept : view t.1 = contents
  length : t.2.1.length = flagsBytes keys.length
  bit : ∀ j, testBit t.2.1 j = (decide (j < i) && keyFlag contents keys j)
  mask : t.2.2 = bitMask i

theorem FlagsInvariant.init (s : σ) (keys : List Bulk) :
    FlagsInvariant view (view s) keys 0 (s, List.replicate (flagsBytes keys.length) 0, 1) where
  kept := rfl
  length := List.length_replicate
  bit j := by simp
  mask := rfl

theorem FlagsInvariant.step (h : ServesReads ds view) {contents : Bulk → Option Bulk}
    {keys : List Bulk} {i : ℕ} {key : Bulk} {t : σ × Bulk × UInt8}
    (hkey : keys[i]? = some key) (ht : FlagsInvariant view contents keys i t) :
    ∃ t', existsAct ds i key t = some t' ∧ FlagsInvariant view contents keys (i + 1) t' := by
  obtain ⟨s, flags, mask⟩ := t
  obtain ⟨hkept, hlength, hbit, hmask⟩ := ht
  simp only at hkept hlength hbit hmask
  subst hkept
  subst hmask
  obtain ⟨hfound, hview⟩ := h.exists s key key.length
  have hfound : (ds.exists s key key.length).1 = keyFlag (view s) keys i := by
    rw [hfound, keyFlag, hkey, bulkOfPointer, List.take_length]
    rfl
  have hi : i < keys.length := (List.getElem?_eq_some_iff.1 hkey).1
  have hbyte : i / 8 < flags.length := by
    rw [hlength, flagsBytes]
    split_ifs <;> omega
  have hnext : (if i % 8 = 7 then (1 : UInt8) else bitMask i <<< 1) = bitMask (i + 1) :=
    (bitMask_succ i).symm
  by_cases hflag : keyFlag (view s) keys i = true
  · refine ⟨((ds.exists s key key.length).2, setBit flags i, bitMask (i + 1)), ?_, hview, ?_, ?_,
      rfl⟩
    · simp [existsAct, hfound, hflag, hbyte, hnext, setBit]
    · rw [length_setBit, hlength]
    · intro j
      rw [testBit_setBit hbyte, hbit]
      by_cases hj : i = j
      · subst hj
        simp [hflag]
      · have hlt : j < i + 1 ↔ j < i := by omega
        simp [hj, hlt]
  · rw [Bool.not_eq_true] at hflag
    refine ⟨((ds.exists s key key.length).2, flags, bitMask (i + 1)), ?_, hview, hlength, ?_,
      rfl⟩
    · simp [existsAct, hfound, hflag, hnext]
    · intro j
      rw [hbit]
      by_cases hj : i = j
      · subst hj
        simp [hflag]
      · have hlt : j < i + 1 ↔ j < i := by omega
        simp [hlt]

variable {calls : BulkCalls} {dbs : Databases σ} {dbId : UInt64} {s : σ} {keys : List KvData}
  {input : KeysIn}

/-- The handler ends when the size of the request has not wrapped, and pushes the bitmap of
the keys that exist. -/
theorem sdskvExistsMultiUlt_done (h : ServesReads ds view) (hcalls : calls.Succeed)
    (hdb : dbs dbId = some s) (hinput : multiKeysIn dbId keys = some input)
    (hfits : keysBytes keys < 2 ^ 64) :
    ∃ fuel flags s', sdskvExistsMultiUlt ds calls fuel dbs input =
        .done ({ ret := SdskvReturn.success.code, push := flags },
          Function.update dbs dbId (some s')) ∧
      flags.length = flagsBytes keys.length ∧
      ∀ j, testBit flags j = keyFlag (view s) (keys.map KvData.data) j := by
  have hreceive := receive_multiKeysIn hcalls hinput
  obtain ⟨hlt, rfl⟩ := multiKeysIn_eq_some_iff.1 hinput
  have hread := readPacked_keysBuffer keys (by omega)
  rw [if_pos hfits] at hread
  obtain ⟨t, hact, hkept, hlength, hbit, -⟩ := forItems_invariant (existsAct ds)
    (FlagsInvariant view (view s) (keys.map KvData.data))
    (fun i key t hkey ht => ht.step h hkey) (FlagsInvariant.init s (keys.map KvData.data))
  rw [List.length_map] at hact hlength hbit
  obtain ⟨fuel, hfuel⟩ := walkPacked_ends_iff.2
    ⟨by omega, keys.map KvData.data, hread, t, hact, rfl⟩
  refine ⟨fuel, t.2.1, t.1, ?_, hlength, ?_⟩
  · rw [sdskvExistsMultiUlt, serveMulti_of_ok hdb hreceive, hfuel]
    simp [Loop.Run.map, BulkCalls.pushed, hcalls.2]
  · intro j
    rw [hbit, keyFlag]
    by_cases hj : j < keys.length
    · simp [hj]
    · simp [hj]

/-- A handler that ends has found all keys in its buffer. -/
theorem keysBytes_lt_of_existsMulti (hcalls : calls.Succeed) (hdb : dbs dbId = some s)
    (hinput : multiKeysIn dbId keys = some input) {fuel : ℕ} {r : MultiOut × Databases σ}
    (hdone : sdskvExistsMultiUlt ds calls fuel dbs input = .done r) :
    keysBytes keys < 2 ^ 64 := by
  have hreceive := receive_multiKeysIn hcalls hinput
  obtain ⟨hlt, rfl⟩ := multiKeysIn_eq_some_iff.1 hinput
  have hread := readPacked_keysBuffer keys (by omega)
  rw [sdskvExistsMultiUlt, serveMulti_of_ok hdb hreceive, Loop.Run.map_eq_done_iff] at hdone
  obtain ⟨r', hloop, -⟩ := hdone
  obtain ⟨t, hloop, -⟩ := Loop.Run.map_eq_done_iff.1 hloop
  obtain ⟨-, found, hfound, -⟩ := walkPacked_ends_iff.1 ⟨fuel, hloop⟩
  by_contra hwrap
  rw [if_neg hwrap] at hread
  cases hread.symm.trans hfound

end Server

section Client

/-- The client reads the bits of the bitmap. -/
theorem through_readFlag {exist : Bulk} {flags : List Int} {n : ℕ}
    (hexist : exist.length = flagsBytes n) (hflags : flags.length = n) :
    ∃ t, Loop.through (readFlag exist) (List.range n) (flags, 1) = some t ∧
      ∀ j < n, t.1[j]? = some (if testBit exist j then 1 else 0) := by
  obtain ⟨t, hthrough, -, hread, -⟩ := Loop.through_invariant (readFlag exist) (n := n)
    (fun i t => t.1.length = n ∧
      (∀ j < i, t.1[j]? = some (if testBit exist j then 1 else 0)) ∧ t.2 = bitMask i)
    (fun i t hi ht => by
      obtain ⟨flags, mask⟩ := t
      obtain ⟨hlength, hread, hmask⟩ := ht
      simp only at hlength hread hmask
      subst hmask
      have hbyte : i / 8 < exist.length := by
        rw [hexist, flagsBytes]
        split_ifs <;> omega
      have hnext : (if i % 8 = 7 then (1 : UInt8) else bitMask i <<< 1) = bitMask (i + 1) :=
        (bitMask_succ i).symm
      refine ⟨(flags.set i (if testBit exist i then 1 else 0), bitMask (i + 1)), ?_, ?_, ?_,
        rfl⟩
      · simp [readFlag, hbyte, hlength, hi, hnext, testBit]
      · rw [List.length_set, hlength]
      · intro j hj
        by_cases hij : i = j
        · subst hij
          exact List.getElem?_set_self (by omega)
        · rw [List.getElem?_set_ne hij]
          exact hread j (by omega))
    (t := (flags, 1)) ⟨hflags, fun j hj => absurd hj (Nat.not_lt_zero j), rfl⟩
  exact ⟨t, hthrough, hread⟩

/-- The flags say which keys exist, and so does the bitmap, which has just the bytes for the
keys and whose remaining bits are zero. -/
structure ExistsDecoded (contents : Bulk → Option Bulk) (keys : List KvData)
    (result : ExistsMultiResult) : Prop where
  ret : result.ret = SdskvReturn.success.code
  flags : ∀ (i : ℕ) (key : KvData), keys[i]? = some key →
    result.flags[i]? = some (if (contents key.data).isSome then 1 else 0)
  bit : ∀ (i : ℕ) (key : KvData), keys[i]? = some key →
    testBit result.exist i = (contents key.data).isSome
  length : result.exist.length = (keys.length + 7) / 8
  byte : ∀ i < keys.length, i / 8 < result.exist.length
  padding : ∀ j, keys.length ≤ j → testBit result.exist j = false

theorem flagsBytes_eq (n : ℕ) : flagsBytes n = (n + 7) / 8 := by
  rw [flagsBytes]
  split_ifs <;> omega

theorem keyFlag_of_getElem? {contents : Bulk → Option Bulk} {keys : List KvData} {i : ℕ}
    {key : KvData} (hkey : keys[i]? = some key) :
    keyFlag contents (keys.map KvData.data) i = (contents key.data).isSome := by
  rw [keyFlag, List.getElem?_map, hkey]
  rfl

/-- A call whose behaviour is defined has a number of segments that its counter can hold. -/
theorem length_lt_of_sdskvExistsMulti {σ : Type} {ds : DatastoreReads σ} {calls : BulkCalls}
    {fuel : ℕ} {dbs : Databases σ} {dbId : UInt64} {keys : List KvData} {flags : List Int}
    {result : ExistsMultiResult × Databases σ}
    (hdone : sdskvExistsMulti ds calls fuel dbs dbId keys flags = .done result) :
    ∃ input, multiKeysIn dbId keys = some input ∧ keys.length + 1 < 2 ^ 31 := by
  rw [sdskvExistsMulti] at hdone
  exact length_lt_of_request hdone

/-- `sdskv_exists_multi` decodes the bitmap of the handler into the flags of the keys exactly
when its counter can hold the number of segments and the size of the request does not
wrap. -/
theorem existsDecoded_iff {σ : Type} {ds : DatastoreReads σ} {view : σ → Bulk → Option Bulk}
    (h : ServesReads ds view) {calls : BulkCalls} (hcalls : calls.Succeed)
    {dbs : Databases σ} {dbId : UInt64} {s : σ} (hdb : dbs dbId = some s) (keys : List KvData)
    (flags : List Int) (hflags : flags.length = keys.length) :
    (∃ fuel result, sdskvExistsMulti ds calls fuel dbs dbId keys flags = .done result ∧
        ExistsDecoded (view s) keys result.1) ↔
      keys.length + 1 < 2 ^ 31 ∧
        8 * keys.length + (keys.map fun k => k.data.length).sum < 2 ^ 64 := by
  constructor
  · rintro ⟨fuel, result, hdone, -⟩
    obtain ⟨input, hinput, hlt⟩ := length_lt_of_sdskvExistsMulti hdone
    rw [sdskvExistsMulti, hinput] at hdone
    obtain ⟨r, hserver, -⟩ := Loop.Run.bind_eq_done_iff.1 hdone
    exact ⟨hlt, keysBytes_lt_of_existsMulti hcalls hdb hinput hserver⟩
  · rintro ⟨hlt, hfits⟩
    have hinput : multiKeysIn dbId keys = some _ := multiKeysIn_eq_some_iff.2 ⟨hlt, rfl⟩
    obtain ⟨fuel, exist, s', hserver, hlength, hbit⟩ :=
      sdskvExistsMultiUlt_done h hcalls hdb hinput hfits
    obtain ⟨t, hthrough, hread⟩ := through_readFlag hlength hflags
    have hindices : Loop.signedIndices 32 keys.length = some (List.range keys.length) :=
      Loop.signedIndices_eq_some_iff.2 ⟨by omega, rfl⟩
    have hpush : exist ++ (List.replicate (flagsBytes keys.length) 0).drop exist.length =
        exist := by
      simp [hlength]
    refine ⟨fuel, ({ ret := SdskvReturn.success.code, flags := t.1, exist := exist },
      Function.update dbs dbId (some s')), ?_, ?_⟩
    · rw [sdskvExistsMulti, hinput]
      simp only [hserver, Loop.Run.bind, hpush, hindices, hthrough]
      rfl
    · refine ⟨rfl, ?_, ?_, ?_, ?_, ?_⟩
      · intro i key hkey
        rw [← keyFlag_of_getElem? hkey, ← hbit]
        exact hread i (List.getElem?_eq_some_iff.1 hkey).1
      · intro i key hkey
        rw [← keyFlag_of_getElem? hkey, ← hbit]
      · rw [← flagsBytes_eq]
        exact hlength
      · intro i hi
        simp only [hlength, flagsBytes_eq]
        omega
      · intro j hj
        simp [hbit, keyFlag, hj]

theorem existsDecoded_byteKeys :
    ∃ fuel result, sdskvExistsMulti MapDataStore.reads .succeeding fuel
        (oneDatabase bindsByteKey) 5 [KvData.single 1, KvData.single 2] [7, 7] = .done result ∧
      ExistsDecoded bindsByteKey.get [KvData.single 1, KvData.single 2] result.1 :=
  (existsDecoded_iff MapDataStore.servesReads BulkCalls.succeed_succeeding rfl
    [KvData.single 1, KvData.single 2] [7, 7] rfl).2 ⟨by decide, by decide⟩

/-- With `2 ^ 31 - 1` keys there is a segment more than the counter can hold. -/
theorem not_existsDecoded_manyKeys :
    ¬ ∃ fuel result, sdskvExistsMulti MapDataStore.reads .succeeding fuel
        (oneDatabase bindsByteKey) 5 (List.replicate (2 ^ 31 - 1) (KvData.single 1))
        (List.replicate (2 ^ 31 - 1) 7) = .done result ∧
      ExistsDecoded bindsByteKey.get (List.replicate (2 ^ 31 - 1) (KvData.single 1))
        result.1 := by
  rintro ⟨fuel, result, hdone, -⟩
  obtain ⟨-, -, hlt⟩ := length_lt_of_sdskvExistsMulti hdone
  rw [List.length_replicate] at hlt
  omega

end Client

end Sdskv
