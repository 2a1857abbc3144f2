import Sdskv.Rpc.Put

/-!
# The requests on a single key

The handlers of get, length, exists and erase, next to those of put. A get sends the
value inside the answer, or pushes it into the memory of the client when the message
would be too long; the client says how much room it has.

`serve` runs the handler of a request, and `answers` is what a client sees of a run. An
output field that a handler leaves unassigned is `none`.
-/

namespace Sdskv

/-- The methods of `AbstractDataStore` that the requests on a single key call. -/
structure DatastoreReads (σ : Type*) extends DatastoreWrites σ where
  get : σ → Bulk → Option Bulk × σ
  length : σ → Bulk → Option ℕ × σ
  «exists» : σ → Pointer → ℕ → Bool × σ

/-- The reads of a backend answer from the contents `view` of its states, and keep them. -/
structure ServesReads {σ : Type*} (ds : DatastoreReads σ) (view : σ → Bulk → Option Bulk) :
    Prop where
  get : ∀ s k, (ds.get s k).1 = view s k ∧ view (ds.get s k).2 = view s
  length : ∀ s k, (ds.length s k).1 = (view s k).map List.length ∧
    view (ds.length s k).2 = view s
  «exists» : ∀ s p n, (ds.exists s p n).1 = (view s (bulkOfPointer p n)).isSome ∧
    view (ds.exists s p n).2 = view s

/-- `AbstractDataStore::length`, for the backends that do not override it. -/
def lengthOfGet {σ : Type*} (get : σ → Bulk → Option Bulk × σ) (s : σ) (key : Bulk) :
    Option ℕ × σ :=
  let (data, s') := get s key
  (data.map List.length, s')

/-- `FIND_DATABASE` followed by the rest of a handler that fills a struct; `unknown` is
the struct when the database is not found. -/
def answerFrom {σ α : Type*} (dbs : Databases σ) (dbId : UInt64) (unknown : α)
    (f : σ → α × σ) : α × Databases σ :=
  match dbs dbId with
  | none => (unknown, dbs)
  | some s => ((f s).1, Function.update dbs dbId (some (f s).2))

/-- `get_in_t`. -/
structure GetIn where
  dbId : UInt64
  key : KvData
  vsize : ℕ

/-- `get_out_t`. -/
structure GetOut where
  ret : Int
  value : Bulk
  vsize : ℕ
  deriving DecidableEq

/-- `bulk_get_out_t`, with the bytes that are pushed to the client. -/
structure BulkGetOut where
  vsize : ℕ
  ret : Int
  pushed : Bulk
  deriving DecidableEq

/-- `length_out_t`. -/
structure LengthOut where
  size : Option ℕ
  ret : Int
  deriving DecidableEq

/-- `exists_out_t`. -/
structure ExistsOut where
  flag : Option Bool
  ret : Int
  deriving DecidableEq

section Handlers

variable {σ : Type*} (ds : DatastoreReads σ) (dbs : Databases σ)

/-- The body of `sdskv_get_ult` on what `get` returns. -/
def getAnswer (vsize : ℕ) : Option Bulk → GetOut
  | some vdata =>
      if vdata.length ≤ vsize then
        { ret := SdskvReturn.success.code, value := vdata, vsize := vdata.length }
      else { ret := SdskvReturn.errSize.code, value := [], vsize := vdata.length }
  | none => { ret := SdskvReturn.errUnknownKey.code, value := [], vsize := 0 }

/-- `sdskv_get_ult`. -/
def sdskvGetUlt (input : GetIn) : GetOut × Databases σ :=
  answerFrom dbs input.dbId
    { ret := SdskvReturn.errUnknownDb.code, value := [], vsize := 0 } fun s =>
      let (vdata, s') := ds.get s input.key.data
      (getAnswer input.vsize vdata, s')

/-- The body of `sdskv_bulk_get_ult` on what `get` returns. -/
def bulkGetAnswer (hrets : List ℕ) (vsize : ℕ) : Option Bulk → BulkGetOut
  | none => { vsize := 0, ret := SdskvReturn.errUnknownKey.code, pushed := [] }
  | some vdata =>
      if vdata.length > vsize then
        { vsize := vdata.length, ret := SdskvReturn.errSize.code, pushed := [] }
      else if vdata.length > 0 then
        match firstFailure hrets with
        | some hret => { vsize := 0, ret := makeHgError hret, pushed := [] }
        | none =>
            { vsize := vdata.length, ret := SdskvReturn.success.code, pushed := vdata }
      else { vsize := 0, ret := SdskvReturn.success.code, pushed := [] }

/-- `sdskv_bulk_get_ult`. -/
def sdskvBulkGetUlt (hrets : List ℕ) (input : GetIn) : BulkGetOut × Databases σ :=
  answerFrom dbs input.dbId
    { vsize := 0, ret := SdskvReturn.errUnknownDb.code, pushed := [] } fun s =>
      let (vdata, s') := ds.get s input.key.data
      (bulkGetAnswer hrets input.vsize vdata, s')

/-- The body of `sdskv_length_ult` on what `length` returns. -/
def lengthAnswer : Option ℕ → LengthOut
  | some vsize => { size := some vsize, ret := SdskvReturn.success.code }
  | none => { size := some 0, ret := SdskvReturn.errUnknownKey.code }

/-- `sdskv_length_ult`. -/
def sdskvLengthUlt (dbId : UInt64) (key : KvData) : LengthOut × Databases σ :=
  answerFrom dbs dbId { size := none, ret := SdskvReturn.errUnknownDb.code } fun s =>
    let (vsize, s') := ds.length s key.data
    (lengthAnswer vsize, s')

/-- `sdskv_exists_ult`. -/
def sdskvExistsUlt (dbId : UInt64) (key : KvData) : ExistsOut × Databases σ :=
  answerFrom dbs dbId { flag := none, ret := SdskvReturn.errUnknownDb.code } fun s =>
    let (flag, s') := ds.exists s key.data key.data.length
    ({ flag := some flag, ret := SdskvReturn.success.code }, s')

end Handlers

section Success

theorem getAnswer_success {vsize : ℕ} {vdata : Option Bulk}
    (h : (getAnswer vsize vdata).ret = SdskvReturn.success.code) :
    ∃ w, vdata = some w ∧ getAnswer vsize vdata =
      { ret := SdskvReturn.success.code, value := w, vsize := w.length } := by
  cases vdata with
  | none => simp [getAnswer] at h
  | some w =>
      by_cases hsize : w.length ≤ vsize
      · exact ⟨w, rfl, by rw [getAnswer, if_pos hsize]⟩
      · simp [getAnswer, hsize] at h

theorem bulkGetAnswer_success {hrets : List ℕ} {vsize : ℕ} {vdata : Option Bulk}
    (h : (bulkGetAnswer hrets vsize vdata).ret = SdskvReturn.success.code) :
    ∃ w, vdata = some w ∧ bulkGetAnswer hrets vsize vdata =
      { vsize := w.length, ret := SdskvReturn.success.code, pushed := w } := by
  cases vdata with
  | none => simp [bulkGetAnswer] at h
  | some w =>
      refine ⟨w, rfl, ?_⟩
      simp only [bulkGetAnswer] at h ⊢
      split_ifs at h ⊢ with hsize hpos
      · simp at h
      · cases hfail : firstFailure hrets with
        | some hret =>
            rw [hfail] at h
            exact absurd h (makeHgError_firstFailure_ne_success hfail)
        | none => rfl
      · have hnil : w = [] := List.length_eq_zero_iff.1 (by omega)
        rw [hnil]
        rfl

theorem lengthAnswer_success {vsize : Option ℕ}
    (h : (lengthAnswer vsize).ret = SdskvReturn.success.code) :
    ∃ n, vsize = some n ∧ lengthAnswer vsize =
      { size := some n, ret := SdskvReturn.success.code } := by
  cases vsize with
  | none => simp [lengthAnswer] at h
  | some n => exact ⟨n, rfl, rfl⟩

variable {σ : Type*} {ds : DatastoreReads σ} {dbs : Databases σ}

/-- A get that succeeds sends the value that the database has for the key. -/
theorem sdskvGetUlt_success {input : GetIn}
    (h : (sdskvGetUlt ds dbs input).1.ret = SdskvReturn.success.code) :
    ∃ s w, dbs input.dbId = some s ∧ (ds.get s input.key.data).1 = some w ∧
      (sdskvGetUlt ds dbs input).1 =
        { ret := SdskvReturn.success.code, value := w, vsize := w.length } := by
  cases hdb : dbs input.dbId with
  | none => simp [sdskvGetUlt, answerFrom, hdb] at h
  | some s =>
      simp only [sdskvGetUlt, answerFrom, hdb] at h ⊢
      obtain ⟨w, hw, hanswer⟩ := getAnswer_success h
      exact ⟨s, w, rfl, hw, hanswer⟩

/-- A bulk get that succeeds pushes the value that the database has for the key. -/
theorem sdskvBulkGetUlt_success {hrets : List ℕ} {input : GetIn}
    (h : (sdskvBulkGetUlt ds dbs hrets input).1.ret = SdskvReturn.success.code) :
    ∃ s w, dbs input.dbId = some s ∧ (ds.get s input.key.data).1 = some w ∧
      (sdskvBulkGetUlt ds dbs hrets input).1 =
        { vsize := w.length, ret := SdskvReturn.success.code, pushed := w } := by
  cases hdb : dbs input.dbId with
  | none => simp [sdskvBulkGetUlt, answerFrom, hdb] at h
  | some s =>
      simp only [sdskvBulkGetUlt, answerFrom, hdb] at h ⊢
      obtain ⟨w, hw, hanswer⟩ := bulkGetAnswer_success h
      exact ⟨s, w, rfl, hw, hanswer⟩

/-- A length request that succeeds sends the length that the database has for the key. -/
theorem sdskvLengthUlt_success {dbId : UInt64} {key : KvData}
    (h : (sdskvLengthUlt ds dbs dbId key).1.ret = SdskvReturn.success.code) :
    ∃ s n, dbs dbId = some s ∧ (ds.length s key.data).1 = some n ∧
      (sdskvLengthUlt ds dbs dbId key).1 =
        { size := some n, ret := SdskvReturn.success.code } := by
  cases hdb : dbs dbId with
  | none => simp [sdskvLengthUlt, answerFrom, hdb] at h
  | some s =>
      simp only [sdskvLengthUlt, answerFrom, hdb] at h ⊢
      obtain ⟨n, hn, hanswer⟩ := lengthAnswer_success h
      exact ⟨s, n, rfl, hn, hanswer⟩

end Success

/-- A request on a single key; `hrets` are the answers of the Margo calls of its
handler. -/
inductive KeyRequest
  | put (input : Except ℕ PutIn)
  | bulkPut (hrets : List ℕ) (input : BulkPutIn)
  | get (input : GetIn)
  | bulkGet (hrets : List ℕ) (input : GetIn)
  | length (dbId : UInt64) (key : KvData)
  | «exists» (dbId : UInt64) (key : KvData)
  | erase (dbId : UInt64) (key : KvData)

/-- The answer to a request. -/
inductive KeyAnswer
  | ret (ret : Int)
  | get (out : GetOut)
  | bulkGet (out : BulkGetOut)
  | length (out : LengthOut)
  | «exists» (out : ExistsOut)
  deriving DecidableEq

section Serve

variable {σ : Type*} (ds : DatastoreReads σ)

/-- Run the handler of a request. -/
def serve (dbs : Databases σ) : KeyRequest → KeyAnswer × Databases σ
  | .put input => Prod.map .ret id (sdskvPutUlt ds.toDatastoreWrites dbs input)
  | .bulkPut hrets input =>
      Prod.map .ret id (sdskvBulkPutUlt ds.toDatastoreWrites hrets dbs input)
  | .get input => Prod.map .get id (sdskvGetUlt ds dbs input)
  | .bulkGet hrets input => Prod.map .bulkGet id (sdskvBulkGetUlt ds dbs hrets input)
  | .length dbId key => Prod.map .length id (sdskvLengthUlt ds dbs dbId key)
  | .exists dbId key => Prod.map .exists id (sdskvExistsUlt ds dbs dbId key)
  | .erase dbId key => Prod.map .ret id (sdskvEraseUlt ds.toDatastoreWrites dbs dbId key)

/-- The answers to a run of requests. -/
def answers : Databases σ → List KeyRequest → List KeyAnswer
  | _, [] => []
  | dbs, request :: requests =>
      (serve ds dbs request).1 :: answers (serve ds dbs request).2 requests

end Serve

end Sdskv
