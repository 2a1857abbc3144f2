import Sdskv.Migration.Client
import Sdskv.Rpc.PutBatch

/-!
# The batched requests and their local buffers

The migration of a list of keys, with its accesses checked like those of the requests in
`Multi.lean` and `PutBatch.lean`.

`serveBatched` is the server on any of the nine requests, and `InBounds` says that no answer
of another party leads it out of the buffers that it has allocated for the request.
-/

namespace Sdskv

open Wire

section Handlers

variable {σ : Type} (ds : DatastoreReads σ) (calls : BulkCalls) (fuel : ℕ) (dbs : Databases σ)

/-- The local buffer of `sdskv_migrate_keys_ult`. -/
def MigrateKeysIn.receive (input : MigrateKeysIn) : Except ℕ Bulk :=
  calls.receive
    (calls.pull input.keysBulk input.bulkSize (List.replicate input.bulkSize 0))

/-- What a put that succeeds leaves of the source: the key is erased if it is to be. -/
def eraseMigrated (flag : Int) (s : σ) (key : Bulk) : σ :=
  if flag = sdskvRemoveOriginal then (ds.erase s key).2 else s

/-- The iteration of `sdskv_migrate_keys_ult`; `forwarded i` says whether its put is sent and
answered with success. If not, the handler returns. -/
def migrateKeysBody (flag : Int) (forwarded : ℕ → Bool) (buffer : Bulk) (packedKeys i : ℕ)
    (t : ℕ × σ) : Option ((ℕ × σ) ⊕ σ) := do
  let size ← readWord buffer (8 * i)
  let key ← readBytes buffer (packedKeys + t.1) size
  match ds.get t.2 key with
  | (none, s) => some (.inl (t.1 + size, s))
  | (some _, s) =>
      if forwarded i then some (.inl (t.1 + size, eraseMigrated ds flag s key))
      else some (.inr s)

/-- `sdskv_migrate_keys_ult` with its accesses checked. -/
def sdskvMigrateKeysChecked (forwarded : ℕ → Bool) (input : MigrateKeysIn) :
    Loop.Run (Int × Databases σ) :=
  serveMulti dbs input.sourceDbId id (input.receive calls) fun buffer s =>
    (Loop.countedUntil 32 input.numKeys
      (migrateKeysBody ds input.flag forwarded buffer (sizesBytes input.numKeys)) fuel 0
      (0, s)).map fun
        | .inl t => (SdskvReturn.success.code, t.2)
        | .inr s' => (SdskvReturn.errMigration.code, s')

end Handlers

/-- The request messages of the batched operations. -/
inductive BatchedRequest
  | putMulti (input : PutMultiIn)
  | putPacked (input : PutPackedIn)
  | getMulti (input : GetMultiIn)
  | getPacked (input : GetMultiIn)
  | lengthMulti (input : KeysIn)
  | lengthPacked (input : KeysIn)
  | existsMulti (input : KeysIn)
  | eraseMulti (input : KeysIn)
  | migrateKeys (input : MigrateKeysIn)

/-- The server on a batched request, without its answer. -/
def serveBatched {σ : Type} (ds : DatastoreReads σ) (reads : RegionReads σ) (calls : BulkCalls)
    (forwarded : ℕ → Bool) (fuel : ℕ) (dbs : Databases σ) :
    BatchedRequest → Loop.Run (Databases σ)
  | .putMulti input =>
      (sdskvPutMultiUlt ds.toDatastoreWrites reads calls fuel dbs input).map Prod.snd
  | .putPacked input =>
      (sdskvPutPackedUlt ds.toDatastoreWrites reads calls fuel dbs input).map Prod.snd
  | .getMulti input => (sdskvGetMultiUlt ds calls fuel dbs input).map Prod.snd
  | .getPacked input => (sdskvGetPackedUlt ds calls fuel dbs input).map Prod.snd
  | .lengthMulti input => (sdskvLengthMultiUlt ds calls fuel dbs input).map Prod.snd
  | .lengthPacked input => (sdskvLengthPackedUlt ds calls fuel dbs input).map Prod.snd
  | .existsMulti input => (sdskvExistsMultiUlt ds calls fuel dbs input).map Prod.snd
  | .eraseMulti input => (sdskvEraseMultiUlt ds calls fuel dbs input).map Prod.snd
  | .migrateKeys input =>
      (sdskvMigrateKeysChecked ds calls fuel dbs forwarded input).map Prod.snd

/-- Every byte that the server accesses for the request lies inside of the buffer that it has
allocated for it, whatever the calls it makes answer and however long it runs. -/
def InBounds {σ : Type} (ds : DatastoreReads σ) (reads : RegionReads σ) (dbs : Databases σ)
    (request : BatchedRequest) : Prop :=
  ∀ calls forwarded fuel, serveBatched ds reads calls forwarded fuel dbs request ≠ .fault

theorem MigrateKeysIn.receive_succeeding {input : MigrateKeysIn} (calls : BulkCalls)
    (buffer : Bulk) (h : input.receive calls = .ok buffer) :
    input.receive .succeeding = .ok buffer :=
  BulkCalls.pull_succeeding (BulkCalls.receive_eq_ok h)

end Sdskv
