import Sdskv.Datastore.Map.PrefixScan
import Sdskv.Migration.Complete
import Sdskv.Rpc.Multi
import Sdskv.Rpc.Put

/-!
# The client side of a migration

A client stub fills a struct, creates a handle with the id of an RPC and forwards the
struct. Both sides register each RPC with an input type; the struct is serialised by the
routine of that type, whatever its own type is. `serve` is what the server does with the
input of an RPC: it runs the machine of a handler, or answers at once.

`sdskv_migrate_keys` forwards a `migrate_keys_in_t` under the id of `migrate_key_range`, so the
client serialises the words of one struct as those of the other: a number of keys is taken for a
size, and a number of bytes for a pointer to data of that size.

`sdskv_migrate_keys_prefixed` reaches the handler it is meant for. That handler leaves
`out.ret` unassigned when it gets to its end, so what the client returns is the content
that the variable happened to have.
-/

namespace Sdskv

open OrderedMap Transition Wire

/-- The RPCs of a migration that both sides register. -/
inductive MigrationRpc
  | migrateKeys
  | migrateKeyRange
  | migrateKeysPrefixed
  | migrateAllKeys
  deriving DecidableEq

/-- The fields that the inputs of all migrations begin with. -/
structure MigrationHeader where
  sourceDbId : UInt64
  targetAddr : HgString
  targetProviderId : UInt16
  targetDbId : UInt64

/-- `migrate_keys_in_t`. -/
structure MigrateKeysIn extends MigrationHeader where
  numKeys : ℕ
  bulkSize : ℕ
  keysBulk : HgBulk
  flag : Int

/-- `migrate_key_range_in_t`. -/
structure MigrateKeyRangeIn extends MigrationHeader where
  keyLb : KvData
  keyUb : KvData
  flag : Int

/-- `migrate_keys_prefixed_in_t`. -/
structure MigrateKeysPrefixedIn extends MigrationHeader where
  keyPrefix : KvData
  flag : Int

/-- `migrate_all_keys_in_t`. -/
structure MigrateAllKeysIn extends MigrationHeader where
  flag : Int

/-- The input type that an RPC is registered with. -/
def MigrationRpc.Input : MigrationRpc → Type
  | migrateKeys => MigrateKeysIn
  | migrateKeyRange => MigrateKeyRangeIn
  | migrateKeysPrefixed => MigrateKeysPrefixedIn
  | migrateAllKeys => MigrateAllKeysIn

/-- What an encoder can find in the memory of the client: the bytes at the addresses that can be
read, and around a filled `migrate_keys_in_t` the address that its bulk handle is, the padding
behind its `flag` and the word behind the struct. -/
structure ClientMemory where
  byteAt : ℕ → Option UInt8
  keysBulk : UInt64
  padding : UInt32
  behind : Int

/-- What `hg_proc_kv_data_t` serialises of a size and a pointer; of a size of zero no byte is
read. -/
def ClientMemory.kvData (memory : ClientMemory) (size data : UInt64) : Option KvData := do
  let bytes ← (List.range size.toNat).mapM fun i => memory.byteAt (data.toNat + i)
  if h : bytes.length < 2 ^ 64 then some { data := bytes, size_lt := h } else none

/-- A `migrate_keys_in_t` as the routine of `migrate_key_range_in_t` reads it: both types begin
with the same fields, and the words behind them are taken for the two bounds and the flag. -/
def MigrateKeysIn.asKeyRange (memory : ClientMemory) (input : MigrateKeysIn) :
    Option MigrateKeyRangeIn := do
  let keyLb ← memory.kvData (UInt64.ofNat input.numKeys) (UInt64.ofNat input.bulkSize)
  let keyUb ← memory.kvData memory.keysBulk
    (UInt64.ofNat ((input.flag % 2 ^ 32).toNat + 2 ^ 32 * memory.padding.toNat))
  some { input.toMigrationHeader with keyLb := keyLb, keyUb := keyUb, flag := memory.behind }

/-- The loop of `sdskv_migrate_keys_ult` that cuts the keys out of `packed_keys`. -/
def cutKeys (packedKeys : Pointer) : ℕ → List ℕ → List Bulk
  | _, [] => []
  | offset, size :: segSizes =>
      bulkOfPointer (packedKeys.drop offset) size ::
        cutKeys packedKeys (offset + size) segSizes

/-- The keys that `sdskv_migrate_keys_ult` finds in the region; `none` when its loop, with
a counter of 32 bits, does not end. -/
def MigrateKeysIn.keys (input : MigrateKeysIn) : Option (List Bulk) := do
  let buffer := bulkPull input.keysBulk input.bulkSize
  let segSizes := readArray 8 buffer input.numKeys
  let is ← Loop.indices 32 input.numKeys
  some (cutKeys (buffer.drop (8 * input.numKeys)) 0 (is.filterMap fun i => segSizes[i]?))

/-- What comes of a request: the server runs the machine of a handler, answers, or does not leave
its loop, or nothing is sent, since the client overflows its counter or reads what it must
not. -/
inductive Served
  | runs (handler : MigrateHandler) (flag : Int)
  | answers (ret : Int)
  | diverges
  | undefined

/-- How the calls of the server fare: `margo_get_input`, the lookup of the source database
and the Margo calls in front of the loop; `garbage` is the content of an `out.ret` that is
not initialised. -/
structure ServerCalls where
  getInput : ℕ
  found : UInt64 → Bool
  hrets : List ℕ
  garbage : Int

namespace ServerCalls

variable (calls : ServerCalls)

/-- `GET_INPUT` and the lookup of the source database. -/
def locate (sourceDbId : UInt64) (rest : Served) : Served :=
  if calls.getInput ≠ hgSuccess then .answers (makeHgError calls.getInput)
  else if calls.found sourceDbId then rest
  else .answers SdskvReturn.errUnknownDb.code

/-- The lookup of the target, the transfer of the keys and the handle of the put. -/
def prepare (rest : Served) : Served :=
  match firstFailure calls.hrets with
  | some hret => .answers (makeHgError hret)
  | none => rest

/-- `sdskv_migrate_keys_ult`. -/
def migrateKeysUlt (input : MigrateKeysIn) : Served :=
  calls.locate input.sourceDbId <| calls.prepare <|
    match input.keys with
    | some keys => .runs (.keys keys) input.flag
    | none => .diverges

/-- `sdskv_migrate_key_range_ult`. -/
def migrateKeyRangeUlt (input : MigrateKeyRangeIn) : Served :=
  calls.locate input.sourceDbId (.answers SdskvReturn.opNotImpl.code)

/-- `sdskv_migrate_keys_prefixed_ult`. -/
def migrateKeysPrefixedUlt (input : MigrateKeysPrefixedIn) : Served :=
  calls.locate input.sourceDbId <| calls.prepare <|
    .runs (.prefixed input.keyPrefix.data calls.garbage) input.flag

/-- `sdskv_migrate_all_keys_ult`. -/
def migrateAllKeysUlt (input : MigrateAllKeysIn) : Served :=
  calls.locate input.sourceDbId <| calls.prepare <| .runs .all input.flag

/-- The handler registered for an RPC, on an input of the type registered with it. -/
def serve : (rpc : MigrationRpc) → rpc.Input → Served
  | .migrateKeys, input => calls.migrateKeysUlt input
  | .migrateKeyRange, input => calls.migrateKeyRangeUlt input
  | .migrateKeysPrefixed, input => calls.migrateKeysPrefixedUlt input
  | .migrateAllKeys, input => calls.migrateAllKeysUlt input

end ServerCalls

section Stubs

variable (server : ServerCalls) (header : MigrationHeader) (flag : Int)

/-- The `migrate_keys_in_t` that `sdskv_migrate_keys` fills; `none` when its counter
overflows. -/
def migrateKeysIn (keys : List KvData) : Option MigrateKeysIn :=
  (signedSum (sizesBytes keys.length :: keys.map fun k => k.data.length)).map fun bulkSize =>
    { header with
      numKeys := keys.length
      bulkSize := bulkSize
      keysBulk := arrayBytes 8 (keys.map fun k => k.data.length) :: keys.map KvData.data
      flag := flag }

/-- `sdskv_migrate_keys`. Its handle has the id `sdskv_migrate_key_range_id`. -/
def sdskvMigrateKeys (memory : ClientMemory) (keys : List KvData) : Served :=
  match (migrateKeysIn header flag keys).bind (MigrateKeysIn.asKeyRange memory) with
  | none => .undefined
  | some input => server.serve .migrateKeyRange input

/-- `sdskv_migrate_key_range`. -/
def sdskvMigrateKeyRange (keyLb keyUb : KvData) : Served :=
  server.serve .migrateKeyRange { header with keyLb := keyLb, keyUb := keyUb, flag := flag }

/-- `sdskv_migrate_keys_prefixed`. -/
def sdskvMigrateKeysPrefixed (keyPrefix : KvData) : Served :=
  server.serve .migrateKeysPrefixed { header with keyPrefix := keyPrefix, flag := flag }

/-- `sdskv_migrate_all_keys`. -/
def sdskvMigrateAllKeys : Served :=
  server.serve .migrateAllKeys { header with flag := flag }

end Stubs

/-- The server answers a request with `ret` and leaves the world `w'`; every forwarded put
is delivered. -/
def Served.EndsWith {ω : Type*} (env : MigrationEnv ω) (w w' : ω) (ret : Int) : Served → Prop
  | runs handler flag =>
      Reaches (migrationStep handler flag env) .delivered (w, handler.start) (w', .done ret)
  | answers r => w' = w ∧ r = ret
  | diverges | undefined => False

/-- How the Margo calls of a client stub fare, before the request is sent and after. -/
structure ClientCalls where
  before : List ℕ
  after : List ℕ

/-- The stub returns `ret` and leaves the world `w'`. -/
def ClientCalls.Returns {ω : Type*} (client : ClientCalls) (env : MigrationEnv ω)
    (served : Served) (w w' : ω) (ret : Int) : Prop :=
  match firstFailure client.before with
  | some hret => w' = w ∧ makeHgError hret = ret
  | none => ∃ r, served.EndsWith env w w' r ∧
      (match firstFailure client.after with
        | some hret => makeHgError hret
        | none => r) = ret

/-- All Margo calls of the stub succeed. -/
def ClientCalls.Succeed (client : ClientCalls) : Prop :=
  firstFailure client.before = none ∧ firstFailure client.after = none

/-- All Margo calls of the server succeed. -/
def ServerCalls.Succeed (server : ServerCalls) : Prop :=
  server.getInput = hgSuccess ∧ firstFailure server.hrets = none

theorem ClientCalls.returns_iff {ω : Type*} {client : ClientCalls} (h : client.Succeed)
    (env : MigrationEnv ω) (served : Served) (w w' : ω) (ret : Int) :
    client.Returns env served w w' ret ↔ served.EndsWith env w w' ret := by
  simp [ClientCalls.Returns, h.1, h.2]

theorem ServerCalls.locate_prepare {server : ServerCalls} (h : server.Succeed)
    {sourceDbId : UInt64} (hfound : server.found sourceDbId = true) (rest : Served) :
    server.locate sourceDbId (server.prepare rest) = rest := by
  simp [ServerCalls.locate, ServerCalls.prepare, h.1, h.2, hfound]

/-- A handler gives one answer. -/
theorem Served.eq_of_endsWith {ω : Type*} {env : MigrationEnv ω} {w w₁ w₂ : ω} {r₁ r₂ : Int}
    {served : Served} (h₁ : served.EndsWith env w w₁ r₁) (h₂ : served.EndsWith env w w₂ r₂) :
    r₁ = r₂ := by
  cases served with
  | runs handler flag =>
      have heq := Reaches.eq_of_stuck h₁ h₂ rfl rfl
      cases heq
      rfl
  | answers r => exact h₁.2.symm.trans h₂.2
  | diverges | undefined => exact h₁.elim

section Prefixed

variable {σ τ : Type*} {source : AbstractDataStore σ} {target : AbstractDataStore τ}
  {lt lt' : Bulk → Bulk → Prop} [DecidableRel lt] [DecidableRel lt']
  (L : LawfulStore source lt) (L' : LawfulStore target lt')

/-- The pairs with the prefix are in the target, and the source has lost them or is
unchanged. -/
def PrefixMigrated (keyPrefix : Bulk) (flag : Int) (w w' : σ × τ) : Prop :=
  L'.contents w'.2 =
      assignAll lt' (L'.contents w.2) (matching keyPrefix (L.contents w.1)) ∧
    (flag = sdskvKeepOriginal → L.contents w'.1 = L.contents w.1) ∧
    (flag = sdskvRemoveOriginal → L.contents w'.1 = notMatching keyPrefix (L.contents w.1))

variable [IsStrictWeakOrder Bulk lt]

/-- The handler terminates with the pairs migrated and answers what `out.ret` held. -/
theorem migrateKeysPrefixed_endsWith (hput : ∀ t k v, (target.put t k v).1 = .success)
    (server : ServerCalls) (hserver : server.Succeed) (header : MigrationHeader)
    (hfound : server.found header.sourceDbId = true) (keyPrefix : KvData)
    (hlist : L.ListsPrefix keyPrefix.data) (flag : Int)
    (hflag : flag = sdskvKeepOriginal ∨ flag = sdskvRemoveOriginal) (w : σ × τ)
    (hempty : ∀ p ∈ L.contents w.1, p.1 ≠ []) :
    ∃ w', (sdskvMigrateKeysPrefixed server header flag keyPrefix).EndsWith
        (distinctDatabases source target) w w' server.garbage ∧
      PrefixMigrated L L' keyPrefix.data flag w w' := by
  have hserved : sdskvMigrateKeysPrefixed server header flag keyPrefix =
      .runs (.prefixed keyPrefix.data server.garbage) flag :=
    ServerCalls.locate_prepare hserver hfound _
  rw [hserved]
  rcases hflag with rfl | rfl
  · obtain ⟨w', hreach, htarget, hsource⟩ := migratePages_keep L L' hput
      (.prefixed keyPrefix.data server.garbage) hlist
      (show sdskvKeepOriginal ≠ sdskvRemoveOriginal by decide) w (Or.inl hempty)
    exact ⟨w', hreach, htarget, fun _ => hsource, fun h => absurd h (by decide)⟩
  · obtain ⟨w', hreach, htarget, hsource⟩ := migratePages_remove L L' hput
      (.prefixed keyPrefix.data server.garbage) hlist w
    exact ⟨w', hreach, htarget, fun h => absurd h (by decide), fun _ => hsource⟩

/-- `sdskv_migrate_keys_prefixed` returns `SDSKV_SUCCESS` with the pairs migrated exactly
when the variable that its handler does not assign happens to hold that value. -/
theorem migrateKeysPrefixed_success_iff (hput : ∀ t k v, (target.put t k v).1 = .success)
    (client : ClientCalls) (hclient : client.Succeed) (server : ServerCalls)
    (hserver : server.Succeed) (header : MigrationHeader)
    (hfound : server.found header.sourceDbId = true) (keyPrefix : KvData)
    (hlist : L.ListsPrefix keyPrefix.data) (flag : Int)
    (hflag : flag = sdskvKeepOriginal ∨ flag = sdskvRemoveOriginal) (w : σ × τ)
    (hempty : ∀ p ∈ L.contents w.1, p.1 ≠ []) :
    (∃ w', client.Returns (distinctDatabases source target)
        (sdskvMigrateKeysPrefixed server header flag keyPrefix) w w'
          SdskvReturn.success.code ∧
      PrefixMigrated L L' keyPrefix.data flag w w') ↔
      server.garbage = SdskvReturn.success.code := by
  obtain ⟨w₁, hends, hmigrated⟩ :=
    migrateKeysPrefixed_endsWith L L' hput server hserver header hfound keyPrefix hlist flag
      hflag w hempty
  simp only [ClientCalls.returns_iff hclient]
  constructor
  · rintro ⟨w', hends', -⟩
    exact Served.eq_of_endsWith hends hends'
  · intro hgarbage
    rw [hgarbage] at hends
    exact ⟨w₁, hends, hmigrated⟩

end Prefixed

section Examples

/-- A migration from database 5 to database 6. -/
def fiveToSix : MigrationHeader :=
  { sourceDbId := 5, targetAddr := ⟨[], List.not_mem_nil⟩, targetProviderId := 1, targetDbId := 6 }

/-- No call of the client fails. -/
def quietClient : ClientCalls := { before := [hgSuccess], after := [hgSuccess, hgSuccess] }

/-- No call of the server fails, and it knows every database. -/
def quietServer (garbage : Int) : ServerCalls :=
  { getInput := hgSuccess, found := fun _ => true, hrets := [hgSuccess], garbage := garbage }

/-- A map database without the empty key, from which a listing of a prefix would not return. -/
abbrev FilledMap := {s : MapState none false // ∀ p ∈ s.1.map, p.1 ≠ []}

theorem filledMap_put (s : FilledMap) {key : Bulk} (hkey : key ≠ []) (data : Bulk) :
    ∀ p ∈ ((mapStore none false).put s.1 key data).2.1.map, p.1 ≠ [] := by
  obtain ⟨⟨s, hless, hno, hwf⟩, hs⟩ := s
  simp only [mapStore, MapDataStore.put_eq, hno, Bool.false_eq_true, false_and, if_false]
  intro p hp
  rcases OrderedMap.mem_assign _ hp with hnew | hmem | ⟨q, hq, hsame⟩
  · exact hnew ▸ hkey
  · exact hs p hmem
  · exact hsame ▸ hs q hq

/-- A put of the empty key is refused. -/
def filledPut (s : FilledMap) (key data : Bulk) : SdskvReturn × FilledMap :=
  if hkey : key = [] then (.errInvalidArg, s)
  else (((mapStore none false).put s.1 key data).1, ⟨_, filledMap_put s hkey data⟩)

/-- The map backend over these states. -/
def filledStore : AbstractDataStore FilledMap where
  put := filledPut
  putMulti := putMulti fun s key ksize value vsize =>
    filledPut s (bulkOfPointer key ksize) (bulkOfPointer value vsize)
  putPacked := putPacked fun s key ksize value vsize =>
    filledPut s (bulkOfPointer key ksize) (bulkOfPointer value vsize)
  erase s key := (((mapStore none false).erase s.1 key).1,
    ⟨((mapStore none false).erase s.1 key).2, fun p hp => s.2 p (List.mem_of_mem_filter hp)⟩)
  get s key := ((mapStore none false).get s.1 key).map id fun _ => s
  listKeyvals s := (mapStore none false).listKeyvals s.1

def filledStore_lawful : LawfulStore filledStore (keycmp none) where
  contents s := s.1.1.map
  sorted s := (mapStore_lawful none false).sorted s.1
  get_value s := (mapStore_lawful none false).get_value s.1
  get_contents _ _ := rfl
  put_success s k v h := by
    simp only [filledStore, filledPut] at h ⊢
    split_ifs at h ⊢ with hkey
    exact (mapStore_lawful none false).put_success s.1 k v h
  put_failure s k v h := by
    simp only [filledStore, filledPut] at h ⊢
    split_ifs at h ⊢ with hkey
    · rfl
    · exact (mapStore_lawful none false).put_failure s.1 k v h
  erase_contents s := (mapStore_lawful none false).erase_contents s.1

/-- No byte exceeds `0xff`, so in no order a key with this prefix is hidden. -/
theorem vlistKeyvals_lastByte {s : MapDataStore} (hless : s.less = none) (hwf : s.WellFormed)
    (hs : ∀ p ∈ s.map, p.1 ≠ []) (startKey : Bulk) (count : ℕ) :
    s.vlistKeyvals startKey count [0xff] =
      .pairs (page (keycmp none) s.map startKey count [0xff]) := by
  obtain ⟨_, _, _, less, _, map⟩ := s
  obtain rfl : less = none := hless
  have hlong : ∀ p ∈ map, [(0xff : UInt8)].length ≤ p.1.length := fun p hp =>
    List.length_pos_iff.2 (hs p hp)
  refine (MapDataStore.vlistKeyvals_eq_page_iff hwf startKey hlong).2 fun before p after _ _ =>
    Or.inr ?_
  rintro ⟨key, value⟩ - ⟨hle, hexceeds⟩
  obtain ⟨b, key, rfl⟩ := List.exists_cons_of_length_pos hle
  have hlt : unsignedCharLess 0xff b := by
    simpa [stringLess, List.cons_lex_cons_iff] using hexceeds
  exact Nat.not_le.2 hlt (Nat.lt_succ_iff.1 b.toNat_lt)

theorem filledStore_listsPrefix : filledStore_lawful.ListsPrefix [0xff] :=
  fun s => vlistKeyvals_lastByte s.1.2.1 s.1.2.2.2 s.2

/-- The keys `0xff01` and `0x01`. -/
def filledSource : FilledMap :=
  ⟨⟨{ MapDataStore.new with map := [([0xff, 1], [2]), ([1], [3])] }, rfl, rfl, by
    rw [MapDataStore.WellFormed, OrderedMap.Sorted]
    decide⟩, by decide⟩

/-- One pair is moved and one is not, with a zero on the stack. -/
theorem migrateKeysPrefixed_success_zero :
    ∃ w', quietClient.Returns (distinctDatabases filledStore (mapStore none false))
        (sdskvMigrateKeysPrefixed (quietServer 0) fiveToSix sdskvRemoveOriginal
          (KvData.single 0xff))
        (filledSource, singleEntry false [1] [9]) w' SdskvReturn.success.code ∧
      PrefixMigrated filledStore_lawful (mapStore_lawful none false) [0xff]
        sdskvRemoveOriginal (filledSource, singleEntry false [1] [9]) w' :=
  (migrateKeysPrefixed_success_iff filledStore_lawful (mapStore_lawful none false)
    (mapStore_put_success none) quietClient ⟨rfl, rfl⟩ (quietServer 0) ⟨rfl, rfl⟩ fiveToSix rfl
    (KvData.single 0xff) filledStore_listsPrefix sdskvRemoveOriginal (Or.inr rfl)
    (filledSource, singleEntry false [1] [9]) (by decide)).2 rfl

/-- With another content on the stack the same call does not return `SDSKV_SUCCESS`. -/
theorem migrateKeysPrefixed_garbage :
    ¬ ∃ w', quietClient.Returns (distinctDatabases filledStore (mapStore none false))
        (sdskvMigrateKeysPrefixed (quietServer 32767) fiveToSix sdskvRemoveOriginal
          (KvData.single 0xff))
        (filledSource, singleEntry false [1] [9]) w' SdskvReturn.success.code ∧
      PrefixMigrated filledStore_lawful (mapStore_lawful none false) [0xff]
        sdskvRemoveOriginal (filledSource, singleEntry false [1] [9]) w' := by
  rintro ⟨w', hreturns, -⟩
  rw [ClientCalls.returns_iff ⟨rfl, rfl⟩] at hreturns
  obtain ⟨w₁, hends, -⟩ := migrateKeysPrefixed_endsWith filledStore_lawful
    (mapStore_lawful none false) (mapStore_put_success none) (quietServer 32767) ⟨rfl, rfl⟩
    fiveToSix rfl (KvData.single 0xff) filledStore_listsPrefix sdskvRemoveOriginal (Or.inr rfl)
    (filledSource, singleEntry false [1] [9]) (by decide)
  exact absurd (Served.eq_of_endsWith hends hreturns) (by decide)

end Examples

end Sdskv
