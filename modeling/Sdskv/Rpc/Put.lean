import Mathlib.Logic.Function.Basic
import Sdskv.Datastore.Interface
import Sdskv.Rpc.Types

/-!
# The put and erase requests

`sdskv_put` sends the value inside the message, or exposes it for a bulk transfer when the
message would be too long.

The client function here runs the handler of the server on the message it sends. A bulk
handle is the list of the exposed segments, and a transfer reads their concatenation. The
answers of the Margo calls that a handler makes are the argument `hrets`, in the order of the
calls; the first failure ends the handler.
-/

namespace Sdskv

open Wire

/-- The segments behind an `hg_bulk_t`. -/
abbrev HgBulk := List Bulk

/-- `margo_bulk_transfer` with `HG_BULK_PULL`: the first `size` bytes. -/
def bulkPull (handle : HgBulk) (size : ℕ) : Bulk := handle.flatten.take size

/-- `provider->databases`. -/
abbrev Databases (σ : Type*) := UInt64 → Option σ

/-- `FIND_DATABASE` followed by the rest of a handler. -/
def withDatabase {σ : Type*} (dbs : Databases σ) (dbId : UInt64) (f : σ → Int × σ) :
    Int × Databases σ :=
  match dbs dbId with
  | none => (SdskvReturn.errUnknownDb.code, dbs)
  | some s => ((f s).1, Function.update dbs dbId (some (f s).2))

/-- Change the state of one database, if it is there. -/
def updateDatabase {σ : Type*} (dbs : Databases σ) (dbId : UInt64) (g : σ → σ) : Databases σ :=
  match dbs dbId with
  | none => dbs
  | some s => Function.update dbs dbId (some (g s))

theorem withDatabase_snd {σ : Type*} (dbs : Databases σ) (dbId : UInt64) (f : σ → Int × σ) :
    (withDatabase dbs dbId f).2 = updateDatabase dbs dbId fun s => (f s).2 := by
  cases h : dbs dbId <;> simp [withDatabase, updateDatabase, h]

theorem updateDatabase_id {σ : Type*} (dbs : Databases σ) (dbId : UInt64) :
    updateDatabase dbs dbId (fun s => s) = dbs := by
  cases h : dbs dbId with
  | none => simp [updateDatabase, h]
  | some s =>
      rw [updateDatabase, h]
      simp only [← h, Function.update_eq_self]

theorem updateDatabase_updateDatabase {σ : Type*} (dbs : Databases σ) (dbId : UInt64)
    (g g' : σ → σ) :
    updateDatabase (updateDatabase dbs dbId g) dbId g' =
      updateDatabase dbs dbId fun s => g' (g s) := by
  cases h : dbs dbId <;> simp [updateDatabase, h]

theorem updateDatabase_apply {σ : Type*} (dbs : Databases σ) (dbId dbId' : UInt64)
    (g : σ → σ) :
    updateDatabase dbs dbId g dbId' =
      if dbId' = dbId then (dbs dbId).map g else dbs dbId' := by
  cases h : dbs dbId with
  | none =>
      split_ifs with hid
      · rw [updateDatabase, h, hid]
        exact h
      · simp [updateDatabase, h]
  | some s => simp [updateDatabase, h, Function.update_apply]

/-- `bulk_put_in_t`. -/
structure BulkPutIn where
  dbId : UInt64
  key : KvData
  vsize : ℕ
  handle : HgBulk

section Server

variable {σ : Type*} (ds : DatastoreWrites σ)

/-- `sdskv_put_ult`, on what `margo_get_input` answers. -/
def sdskvPutUlt (dbs : Databases σ) : Except ℕ PutIn → Int × Databases σ
  | .error hret => (makeHgError hret, dbs)
  | .ok input => withDatabase dbs input.dbId fun s =>
      let (ret, s') := ds.put s input.key.data input.value.data
      (ret.code, s')

/-- `sdskv_bulk_put_ult`: an empty value is not transferred. -/
def sdskvBulkPutUlt (hrets : List ℕ) (dbs : Databases σ) (input : BulkPutIn) :
    Int × Databases σ :=
  withDatabase dbs input.dbId fun s =>
    if input.vsize > 0 then
      match firstFailure hrets with
      | some hret => (makeHgError hret, s)
      | none =>
          let (ret, s') := ds.put s input.key.data (bulkPull input.handle input.vsize)
          (ret.code, s')
    else
      let (ret, s') := ds.put s input.key.data []
      (ret.code, s')

/-- `sdskv_erase_ult`. -/
def sdskvEraseUlt (dbs : Databases σ) (dbId : UInt64) (key : KvData) : Int × Databases σ :=
  withDatabase dbs dbId fun s =>
    let (erased, s') := ds.erase s key.data
    (if erased then SdskvReturn.success.code else SdskvReturn.errErase.code, s')

end Server

section Client

/-- `MAX_RPC_MESSAGE_SIZE`. -/
def maxRpcMessageSize : ℕ := 4000

variable {σ : Type*} (proc : HgProc) (ds : DatastoreWrites σ) (hrets : List ℕ)
  (dbs : Databases σ) (dbId : UInt64)

/-- `sdskv_put`. -/
def sdskvPut (key value : KvData) : Int × Databases σ :=
  let msize := key.data.length + value.data.length + 2 * 8
  if msize ≤ maxRpcMessageSize then
    let message := (hgProcPutIn proc).encode { dbId := dbId, key := key, value := value }
    sdskvPutUlt ds dbs (margoGetInput proc (hgProcPutIn proc) message)
  else
    sdskvBulkPutUlt ds hrets dbs
      { dbId := dbId, key := key, vsize := value.data.length, handle := [value.data] }

end Client

end Sdskv
