import Sdskv.Migration.Client
import Sdskv.Rpc.PutEquivalence

/-!
# Migrating a list of keys

The handler of `migrate_keys` does what its client asks for: it reads the keys back from
the region that `sdskv_migrate_keys` exposes, and for keys that exist it puts the pair
into the target and, if it is to remove the originals, erases the key.

The client function does not reach it. It creates its handle with the id of
`migrate_key_range`, whose handler is not implemented. Already the client does not get that far
as a rule: what it serialises as the data of a key lies at an address that is a number of bytes.
-/

namespace Sdskv

open OrderedMap Transition Wire

theorem cutKeys_bytes {packedKeys : Pointer} {offset : ℕ} {keys : List KvData}
    (h : packedKeys.drop offset = (keys.map KvData.data).flatten) :
    cutKeys packedKeys offset (keys.map fun k => k.data.length) = keys.map KvData.data := by
  induction keys generalizing offset with
  | nil => rfl
  | cons key keys ih =>
      rw [List.map_cons, List.flatten_cons] at h
      have hkey : bulkOfPointer (packedKeys.drop offset) key.data.length = key.data := by
        rw [bulkOfPointer, h, List.take_left]
      have hrest : cutKeys packedKeys (offset + key.data.length)
          (keys.map fun k => k.data.length) = keys.map KvData.data :=
        ih (by rw [← List.drop_drop, h, List.drop_left])
      rw [List.map_cons, List.map_cons, cutKeys, hkey, hrest]

/-- A client whose counter does not overflow exposes both the sizes and the keys. -/
theorem migrateKeysIn_eq_some_iff {header : MigrationHeader} {flag : Int} {keys : List KvData}
    {input : MigrateKeysIn} :
    migrateKeysIn header flag keys = some input ↔ keys.length + 1 < 2 ^ 31 ∧
      input =
        { header with
          numKeys := keys.length
          bulkSize := keysBytes keys % 2 ^ 64
          keysBulk := arrayBytes 8 (keys.map fun k => k.data.length) :: keys.map KvData.data
          flag := flag } := by
  simp only [migrateKeysIn, Option.map_eq_some_iff, signedSum_eq_some_iff, List.length_cons,
    List.length_map, List.sum_cons, sizesBytes, Nat.mod_add_mod, keysBytes]
  constructor
  · rintro ⟨size, ⟨hlt, rfl⟩, rfl⟩
    exact ⟨hlt, rfl⟩
  · rintro ⟨hlt, rfl⟩
    exact ⟨_, ⟨hlt, rfl⟩, rfl⟩

/-- The handler reads the keys back that the client exposes. -/
theorem keys_of_migrateKeysIn {header : MigrationHeader} {flag : Int} {keys : List KvData}
    {input : MigrateKeysIn} (hinput : migrateKeysIn header flag keys = some input)
    (hfits : keysBytes keys < 2 ^ 64) : input.keys = some (keys.map KvData.data) := by
  obtain ⟨hlt, rfl⟩ := migrateKeysIn_eq_some_iff.1 hinput
  have hsizes := readArray_sizes id keys (keys.map KvData.data).flatten
  have hdrop := drop_sizes id keys (keys.map KvData.data).flatten
  simp only [id_eq] at hsizes hdrop
  have hindices : Loop.indices 32 keys.length = some (List.range keys.length) :=
    if_pos (by omega)
  have hpulled : bulkPull (arrayBytes 8 (keys.map fun k => k.data.length) :: keys.map KvData.data)
      (keysBytes keys % 2 ^ 64) =
        arrayBytes 8 (keys.map fun k => k.data.length) ++ (keys.map KvData.data).flatten := by
    rw [bulkPull, List.flatten_cons, Nat.mod_eq_of_lt hfits]
    apply List.take_of_length_le
    rw [List.length_append, length_arrayBytes, List.length_map]
    exact (congrArg (8 * keys.length + ·) (length_flatten_data id keys)).le
  have hread := Loop.filterMap_getElem?_range (keys.map fun k => k.data.length)
  rw [List.length_map] at hread
  have hcut : cutKeys (keys.map KvData.data).flatten 0 (keys.map fun k => k.data.length) =
      keys.map KvData.data := cutKeys_bytes List.drop_zero
  simp only [MigrateKeysIn.keys, hpulled, hsizes, hdrop, hindices, Option.bind_eq_bind,
    Option.bind_some, hread, hcut]

section Handler

variable {σ τ : Type*} {source : AbstractDataStore σ} {target : AbstractDataStore τ}
  {lt lt' : Bulk → Bulk → Prop} [DecidableRel lt] [DecidableRel lt']
  (L : LawfulStore source lt) (L' : LawfulStore target lt')

/-- The pairs of the listed keys that exist. -/
def listedPairs (keys : List Bulk) (s : σ) : List (Bulk × Bulk) :=
  keys.filterMap fun key => (L.value s key).map fun value => (key, value)

/-- The pairs of the listed keys are in the target, and the source has lost the keys or is
unchanged. -/
def KeysMigrated (keys : List Bulk) (flag : Int) (w w' : σ × τ) : Prop :=
  (∀ k, L'.value w'.2 k =
      lookup lt' (assignAll lt' (L'.contents w.2) (listedPairs L keys w.1)) k) ∧
    (flag = sdskvKeepOriginal → ∀ k, L.value w'.1 k = L.value w.1 k) ∧
    (flag = sdskvRemoveOriginal →
      ∀ k, L.value w'.1 k = lookup lt (eraseAll lt (L.contents w.1) keys) k)

section Lookup

theorem lookup_eraseAll_of_total [IsStrictTotalOrder Bulk lt] (m : List (Bulk × Bulk))
    (keys : List Bulk) (k : Bulk) :
    lookup lt (eraseAll lt m keys) k = if k ∈ keys then none else lookup lt m k := by
  induction keys generalizing m with
  | nil => rfl
  | cons key keys ih =>
      rw [eraseAll, List.foldl_cons, ← eraseAll, ih, lookup_erase_of_total]
      by_cases hk : k ∈ keys
      · rw [if_pos hk, if_pos (List.mem_cons_of_mem key hk)]
      · by_cases hkey : key = k
        · rw [if_neg hk, if_pos hkey, if_pos (by rw [hkey]; exact List.mem_cons_self)]
        · rw [if_neg hk, if_neg hkey, if_neg]
          rw [List.mem_cons, not_or]
          exact ⟨Ne.symm hkey, hk⟩

variable [IsStrictTotalOrder Bulk lt']

theorem lookup_assignAll_listedPairs (m : List (Bulk × Bulk)) (keys : List Bulk) (s : σ)
    (k : Bulk) :
    lookup lt' (assignAll lt' m (listedPairs L keys s)) k =
      if k ∈ keys ∧ (L.value s k).isSome then L.value s k else lookup lt' m k := by
  induction keys generalizing m with
  | nil => simp [listedPairs, assignAll]
  | cons key keys ih =>
      cases hvalue : L.value s key with
      | none =>
          have hlisted : listedPairs L (key :: keys) s = listedPairs L keys s := by
            simp [listedPairs, hvalue]
          rw [hlisted, ih]
          by_cases hkey : k = key
          · subst hkey
            simp [hvalue]
          · simp [hkey]
      | some value =>
          have hlisted : listedPairs L (key :: keys) s =
              (key, value) :: listedPairs L keys s := by
            simp [listedPairs, hvalue]
          rw [hlisted, assignAll, List.foldl_cons, ← assignAll, ih, lookup_assign_of_total]
          by_cases hkey : k = key
          · subst hkey
            simp [hvalue]
          · simp [hkey, Ne.symm hkey]

end Lookup

variable [IsStrictTotalOrder Bulk lt] [IsStrictTotalOrder Bulk lt']
  (hput : ∀ t k v, (target.put t k v).1 = .success)
include hput

omit [IsStrictTotalOrder Bulk lt] [IsStrictTotalOrder Bulk lt'] in
/-- The steps on a key that is read: its pair is put into the target, and the original is
erased if that is asked for. -/
theorem reaches_of_read (flag : Int) (handler : MigrateHandler) {key value : Bulk}
    (todo : List Bulk) {w : σ × τ} (hget : (source.get w.1 key).1 = some value) :
    Reaches (migrationStep handler flag (distinctDatabases source target)) .delivered
      (w, .nextKey (key :: todo))
      ((if flag = sdskvRemoveOriginal then (source.erase (source.get w.1 key).2 key).2
        else (source.get w.1 key).2, (target.put w.2 key value).2), .nextKey todo) := by
  have hfirst : migrationStep handler flag (distinctDatabases source target)
      (w, .nextKey (key :: todo)) .delivered =
      some (((source.get w.1 key).2, w.2), .forward key value (.keys todo)) := by
    simp only [migrationStep, distinctDatabases, hget]
  have hforward : forwardPut (distinctDatabases source target)
      ((source.get w.1 key).2, w.2) key value .delivered =
      (true, (source.get w.1 key).2, (target.put w.2 key value).2) :=
    forwardPut_delivered hput _ key value
  refine Reaches.head hfirst ?_
  by_cases hflag : flag = sdskvRemoveOriginal
  · have herase : migrationStep handler flag (distinctDatabases source target)
        (((source.get w.1 key).2, (target.put w.2 key value).2),
          .erase key value (.keys todo)) .delivered =
        some (((source.erase (source.get w.1 key).2 key).2, (target.put w.2 key value).2),
          .nextKey todo) := rfl
    rw [if_pos hflag]
    refine Reaches.head ?_ (Reaches.head herase (Reaches.refl _ _ _))
    simp only [migrationStep, hforward, if_pos hflag]
  · rw [if_neg hflag]
    refine Reaches.head ?_ (Reaches.refl _ _ _)
    simp only [migrationStep, hforward, if_neg hflag]
    rfl

/-- One key: it is skipped, or its pair is put into the target and the original kept or
erased. -/
theorem reaches_nextKey (flag : Int) (handler : MigrateHandler) (key : Bulk)
    (todo : List Bulk) (w : σ × τ) :
    ∃ w', Reaches (migrationStep handler flag (distinctDatabases source target)) .delivered
        (w, .nextKey (key :: todo)) (w', .nextKey todo) ∧
      (∀ k, L'.value w'.2 k =
        if k = key ∧ (L.value w.1 k).isSome then L.value w.1 k else L'.value w.2 k) ∧
      (flag ≠ sdskvRemoveOriginal → ∀ k, L.value w'.1 k = L.value w.1 k) ∧
      (flag = sdskvRemoveOriginal →
        ∀ k, L.value w'.1 k = if k = key then none else L.value w.1 k) := by
  have hsw := isStrictWeakOrder_of_isStrictTotalOrder lt
  have hsw' := isStrictWeakOrder_of_isStrictTotalOrder lt'
  have hread : ∀ k, L.value (source.get w.1 key).2 k = L.value w.1 k := by
    intro k
    rw [LawfulStore.value, L.get_contents, ← LawfulStore.value]
  have hget : (source.get w.1 key).1 = L.value w.1 key := L.get_value w.1 key
  cases hvalue : L.value w.1 key with
  | none =>
      rw [hvalue] at hget
      refine ⟨((source.get w.1 key).2, w.2), Reaches.head ?_ (Reaches.refl _ _ _), ?_,
        fun _ => hread, ?_⟩
      · simp only [migrationStep, distinctDatabases, hget]
      · intro k
        rw [if_neg]
        rintro ⟨rfl, hsome⟩
        simp [hvalue] at hsome
      · intro _ k
        rw [hread]
        split_ifs with hk
        · rw [hk, hvalue]
        · rfl
  | some value =>
      rw [hvalue] at hget
      refine ⟨_, reaches_of_read hput flag handler todo hget, ?_, ?_, ?_⟩
      · intro k
        rw [L'.value_put_success (hput _ _ _)]
        simp only [incompRel_iff_eq]
        by_cases hk : key = k
        · subst hk
          simp [hvalue]
        · simp [hk, Ne.symm hk]
      · intro hflag
        simp only [if_neg hflag]
        exact hread
      · intro hflag k
        simp only [if_pos hflag]
        rw [L.value_erase, hread]
        simp only [incompRel_iff_eq, eq_comm]

/-- The loop over the keys ends with the listed keys migrated. -/
theorem reaches_done_keys (flag : Int) (handler : MigrateHandler) (todo : List Bulk)
    (w : σ × τ) :
    ∃ w', Reaches (migrationStep handler flag (distinctDatabases source target)) .delivered
        (w, .nextKey todo) (w', .done handler.initialRet) ∧
      (∀ k, L'.value w'.2 k =
        if k ∈ todo ∧ (L.value w.1 k).isSome then L.value w.1 k else L'.value w.2 k) ∧
      (flag ≠ sdskvRemoveOriginal → ∀ k, L.value w'.1 k = L.value w.1 k) ∧
      (flag = sdskvRemoveOriginal →
        ∀ k, L.value w'.1 k = if k ∈ todo then none else L.value w.1 k) := by
  induction todo generalizing w with
  | nil =>
      exact ⟨w, Reaches.head rfl (Reaches.refl _ _ _), by simp, fun _ _ => rfl, by simp⟩
  | cons key todo ih =>
      obtain ⟨w₁, hreach, htarget, hkeep, herase⟩ :=
        reaches_nextKey L L' hput flag handler key todo w
      obtain ⟨w', hreach', htarget', hkeep', herase'⟩ := ih w₁
      refine ⟨w', hreach.trans hreach', ?_, ?_, ?_⟩
      · intro k
        rw [htarget', htarget]
        by_cases hflag : flag = sdskvRemoveOriginal
        · rw [herase hflag]
          by_cases hk : k = key
          · simp [hk]
          · simp [hk]
        · rw [hkeep hflag]
          by_cases hk : k = key
          · subst hk
            cases L.value w.1 k <;> simp
          · simp [hk]
      · intro hflag k
        rw [hkeep' hflag, hkeep hflag]
      · intro hflag k
        rw [herase' hflag, herase hflag]
        by_cases hk : k = key
        · simp [hk]
        · simp [hk]

/-- Under its own id, the request of `sdskv_migrate_keys` would migrate the listed
keys. -/
theorem migrateKeysUlt_endsWith (server : ServerCalls) (hserver : server.Succeed)
    (header : MigrationHeader) (hfound : server.found header.sourceDbId = true)
    (keys : List KvData) (hlt : keys.length + 1 < 2 ^ 31) (hfits : keysBytes keys < 2 ^ 64)
    (flag : Int) (w : σ × τ) :
    ∃ input w', migrateKeysIn header flag keys = some input ∧
      (server.serve .migrateKeys input).EndsWith (distinctDatabases source target) w w'
        SdskvReturn.success.code ∧
      KeysMigrated L L' (keys.map KvData.data) flag w w' := by
  have hinput : migrateKeysIn header flag keys = some _ :=
    migrateKeysIn_eq_some_iff.2 ⟨hlt, rfl⟩
  have hkeys := keys_of_migrateKeysIn hinput hfits
  have hserved := ServerCalls.locate_prepare hserver hfound
    (.runs (.keys (keys.map KvData.data)) flag)
  obtain ⟨w', hreach, htarget, hkeep, herase⟩ :=
    reaches_done_keys L L' hput flag (.keys (keys.map KvData.data)) (keys.map KvData.data) w
  refine ⟨_, w', hinput, ?_, ?_, ?_, ?_⟩
  · change (server.migrateKeysUlt _).EndsWith _ _ _ _
    rw [ServerCalls.migrateKeysUlt, hkeys, hserved]
    exact hreach
  · intro k
    rw [lookup_assignAll_listedPairs]
    exact htarget k
  · intro h
    exact hkeep (by rw [h]; decide)
  · intro h k
    rw [lookup_eraseAll_of_total]
    exact herase h k

end Handler

section Client

/-- Nothing is sent, or the request reaches the handler of `migrate_key_range`, which answers at
once and never with success. -/
theorem sdskvMigrateKeys_answers (server : ServerCalls) (header : MigrationHeader) (flag : Int)
    (memory : ClientMemory) (keys : List KvData) :
    sdskvMigrateKeys server header flag memory keys = .undefined ∨
      ∃ ret, sdskvMigrateKeys server header flag memory keys = .answers ret ∧
        ret ≠ SdskvReturn.success.code := by
  rw [sdskvMigrateKeys]
  cases (migrateKeysIn header flag keys).bind (MigrateKeysIn.asKeyRange memory) with
  | none => exact Or.inl rfl
  | some input =>
      refine Or.inr ?_
      simp only [ServerCalls.serve, ServerCalls.migrateKeyRangeUlt, ServerCalls.locate]
      split_ifs with hinput hfound
      · exact ⟨_, rfl, makeHgError_ne_success hinput⟩
      · exact ⟨_, rfl, by decide⟩
      · exact ⟨_, rfl, by decide⟩

/-- `sdskv_migrate_keys` does not return `SDSKV_SUCCESS`. -/
theorem sdskvMigrateKeys_ret_ne_success {ω : Type*} (env : MigrationEnv ω)
    (client : ClientCalls) (server : ServerCalls) (header : MigrationHeader) (flag : Int)
    (memory : ClientMemory) (keys : List KvData) (w w' : ω) :
    ¬ client.Returns env (sdskvMigrateKeys server header flag memory keys) w w'
      SdskvReturn.success.code := by
  have hserved := sdskvMigrateKeys_answers server header flag memory keys
  unfold ClientCalls.Returns
  split
  · next hret hbefore =>
      rintro ⟨-, hcode⟩
      exact makeHgError_firstFailure_ne_success hbefore hcode
  · rintro ⟨r, hends, hcode⟩
    rcases hserved with hundefined | ⟨ret, hanswers, hne⟩
    · rw [hundefined] at hends
      exact hends
    · rw [hanswers] at hends
      obtain ⟨-, rfl⟩ := hends
      split at hcode
      · next hret hafter => exact makeHgError_firstFailure_ne_success hafter hcode
      · exact hne hcode

variable {σ τ : Type*} {source : AbstractDataStore σ} {target : AbstractDataStore τ}
  {lt lt' : Bulk → Bulk → Prop} [DecidableRel lt] [DecidableRel lt']

/-- On no input does `sdskv_migrate_keys` return `SDSKV_SUCCESS` with the listed keys
migrated. -/
theorem sdskvMigrateKeys_never_succeeds (L : LawfulStore source lt)
    (L' : LawfulStore target lt') (client : ClientCalls) (server : ServerCalls)
    (header : MigrationHeader) (flag : Int) (memory : ClientMemory) (keys : List KvData)
    (w : σ × τ) :
    ¬ ∃ w', client.Returns (distinctDatabases source target)
        (sdskvMigrateKeys server header flag memory keys) w w' SdskvReturn.success.code ∧
      KeysMigrated L L' (keys.map KvData.data) flag w w' := by
  rintro ⟨w', hreturns, -⟩
  exact sdskvMigrateKeys_ret_ne_success _ client server header flag memory keys w w' hreturns

end Client

/-- A single key of one byte. -/
def oneKey : List KvData := [KvData.single 1]

/-- A process that cannot read its first page, as usual, with zeros everywhere else. -/
def firstPageUnmapped : ClientMemory where
  byteAt a := if a < 4096 then none else some 0
  keysBulk := 0x7f0000000000
  padding := 0
  behind := 0

/-- The key is in the source and the target accepts it, and no call fails, but the client reads
at address 9, the size of its region, and does not return. -/
theorem sdskvMigrateKeys_readsAddress9 :
    sdskvMigrateKeys (quietServer 0) fiveToSix sdskvRemoveOriginal firstPageUnmapped oneKey =
        .undefined ∧
      ¬ ∃ w', quietClient.Returns
          (distinctDatabases (mapStore none false) (mapStore none false))
          (sdskvMigrateKeys (quietServer 0) fiveToSix sdskvRemoveOriginal firstPageUnmapped oneKey)
          (singleEntry false [1] [2], singleEntry false [3] [9]) w'
          SdskvReturn.success.code ∧
        KeysMigrated (mapStore_lawful none false) (mapStore_lawful none false) [[1]]
          sdskvRemoveOriginal (singleEntry false [1] [2], singleEntry false [3] [9]) w' := by
  constructor
  · have hread : (migrateKeysIn fiveToSix sdskvRemoveOriginal oneKey).bind
        (MigrateKeysIn.asKeyRange firstPageUnmapped) = none := rfl
    rw [sdskvMigrateKeys, hread]
  · rintro ⟨w', hreturns, -⟩
    exact sdskvMigrateKeys_ret_ne_success _ quietClient (quietServer 0) fiveToSix
      sdskvRemoveOriginal firstPageUnmapped oneKey _ w' hreturns

end Sdskv
