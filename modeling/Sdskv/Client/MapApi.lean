import Sdskv.Client.GetPaths
import Sdskv.Rpc.PutEquivalence

/-!
# The client functions on a store of maps

`ClientCall.spec` is what the client functions are for: every database is a function from keys to
values, and a call reads it or changes it at its keys. `perform` runs the client function and the
handler that it selects. When the transport does not fail, a call gives the reply of the
specification and leaves its contents, for every backend that `ServesMap`.

The specification shows a trace of the implementation: where `sdskv_get` finds nothing, a large
buffer makes it set `*vsize` to 0.
-/

namespace Sdskv

section Functions

variable {σ : Type*} (ds : DatastoreReads σ) (net : Transport) (dbs : Databases σ)
  (dbId : UInt64) (key : KvData)

/-- `sdskv_exists`; the result is the return value and `*flag`. -/
def sdskvExists (flag : Bool) : Int × Bool × Databases σ :=
  match firstFailure net.client with
  | some hret => (makeHgError hret, flag, dbs)
  | none =>
      let (out, dbs') := sdskvExistsUlt ds dbs dbId key
      (out.ret, if out.ret = 0 then out.flag.getD flag else flag, dbs')

/-- `sdskv_erase`. -/
def sdskvErase : Int × Databases σ :=
  match firstFailure net.client with
  | some hret => (makeHgError hret, dbs)
  | none => sdskvEraseUlt ds.toDatastoreWrites dbs dbId key

end Functions

/-- A call of a client function, with what its output arguments hold before. -/
inductive ClientCall
  | put (dbId : UInt64) (key value : KvData)
  | get (dbId : UInt64) (key : KvData) (value : ValueObject) (vsize : ℕ)
  | length (dbId : UInt64) (key : KvData) (vsize : ℕ)
  | «exists» (dbId : UInt64) (key : KvData) (flag : Bool)
  | erase (dbId : UInt64) (key : KvData)

/-- The return value of a call, with its output arguments. -/
inductive ClientReply
  | status (ret : Int)
  | value (ret : Int) (value : ValueObject) (vsize : ℕ)
  | size (ret : Int) (vsize : ℕ)
  | flag (ret : Int) (flag : Bool)

namespace ClientCall

/-- Run the client function of a call. -/
def perform {σ : Type*} (proc : HgProc) (ds : DatastoreReads σ) (net : Transport)
    (dbs : Databases σ) : ClientCall → ClientReply × Databases σ
  | put dbId key value =>
      Prod.map .status id (sdskvPut proc ds.toDatastoreWrites net.server dbs dbId key value)
  | get dbId key value vsize =>
      let (ret, value, vsize, dbs') := sdskvGet ds net dbs dbId key value vsize
      (.value ret value vsize, dbs')
  | length dbId key vsize =>
      let (ret, vsize, dbs') := sdskvLength ds net dbs dbId key vsize
      (.size ret vsize, dbs')
  | «exists» dbId key flag =>
      let (ret, flag, dbs') := sdskvExists ds net dbs dbId key flag
      (.flag ret flag, dbs')
  | erase dbId key => Prod.map .status id (sdskvErase ds net dbs dbId key)

section Spec

/-- What `*vsize` is when `sdskv_get` finds nothing. -/
def missingSize (vsize : ℕ) : ℕ := if vsize + 8 + 4 ≤ maxRpcMessageSize then vsize else 0

/-- The reply to a get with a buffer. -/
def getReply (value : ValueObject) (vsize : ℕ) : Option Bulk → ClientReply
  | some w =>
      if w.length ≤ vsize then .value SdskvReturn.success.code (value.write w) w.length
      else .value SdskvReturn.errSize.code value w.length
  | none => .value SdskvReturn.errUnknownKey.code value (missingSize vsize)

/-- The reply to a request for a length. -/
def lengthReply (reply : Int → ℕ → ClientReply) (vsize : ℕ) : Option Bulk → ClientReply
  | some w => reply SdskvReturn.success.code w.length
  | none => reply SdskvReturn.errUnknownKey.code vsize

variable (eraseAnswer : Bool → Bool) (contents : Databases (Bulk → Option Bulk))

/-- What a call replies and how it changes the contents of the databases. -/
def spec : ClientCall → ClientReply × Databases (Bulk → Option Bulk)
  | put dbId key value =>
      answerFrom contents dbId (.status SdskvReturn.errUnknownDb.code) fun f =>
        (.status SdskvReturn.success.code, Function.update f key.data (some value.data))
  | get dbId key value vsize =>
      if value.isNull then
        answerFrom contents dbId (.value SdskvReturn.errUnknownDb.code value vsize) fun f =>
          (lengthReply (fun ret n => .value ret value n) vsize (f key.data), f)
      else
        answerFrom contents dbId (.value SdskvReturn.errUnknownDb.code value (missingSize vsize))
          fun f => (getReply value vsize (f key.data), f)
  | length dbId key vsize =>
      answerFrom contents dbId (.size SdskvReturn.errUnknownDb.code vsize) fun f =>
        (lengthReply .size vsize (f key.data), f)
  | «exists» dbId key flag =>
      answerFrom contents dbId (.flag SdskvReturn.errUnknownDb.code flag) fun f =>
        (.flag SdskvReturn.success.code (f key.data).isSome, f)
  | erase dbId key =>
      answerFrom contents dbId (.status SdskvReturn.errUnknownDb.code) fun f =>
        (.status (if eraseAnswer (f key.data).isSome then SdskvReturn.success.code
          else SdskvReturn.errErase.code), Function.update f key.data none)

end Spec

end ClientCall

section Simulation

variable {σ : Type*} {ds : DatastoreReads σ} {I : σ → Prop} {view : σ → Bulk → Option Bulk}
  {eraseAnswer : Bool → Bool} {dbs : Databases σ} {net : Transport}

/-- What a reply is made of the answer of a handler is made of it on the contents. -/
theorem simulates_answer {α β : Type*} (F : α → β) (hI : ∀ dbId s, dbs dbId = some s → I s)
    {dbId : UInt64} {unknown : α} {f : σ → α × σ}
    {g : (Bulk → Option Bulk) → β × (Bulk → Option Bulk)}
    (h : ∀ s, I s →
      F (f s).1 = (g (view s)).1 ∧ view (f s).2 = (g (view s)).2 ∧ I (f s).2) :
    Simulates I view (Prod.map F id (answerFrom dbs dbId unknown f))
      (answerFrom (contentsOf view dbs) dbId (F unknown) g) := by
  have hmap : Prod.map F id (answerFrom dbs dbId unknown f) =
      answerFrom dbs dbId (F unknown) fun s => (F (f s).1, (f s).2) := by
    rw [answerFrom, answerFrom]
    cases dbs dbId <;> rfl
  rw [hmap]
  exact answerFrom_simulates hI dbId (F unknown) h

/-- A request for a length, for a reply that is made of the return value and the size. -/
theorem length_simulates (h : ServesMap ds I view eraseAnswer)
    (hI : ∀ dbId s, dbs dbId = some s → I s) (hclient : firstFailure net.client = none)
    (dbId : UInt64) (key : KvData) (vsize : ℕ) (reply : Int → ℕ → ClientReply) :
    Simulates I view
      (reply (sdskvLength ds net dbs dbId key vsize).1 (sdskvLength ds net dbs dbId key vsize).2.1,
        (sdskvLength ds net dbs dbId key vsize).2.2)
      (answerFrom (contentsOf view dbs) dbId (reply SdskvReturn.errUnknownDb.code vsize) fun f =>
        (ClientCall.lengthReply reply vsize (f key.data), f)) := by
  simp only [sdskvLength, hclient]
  refine simulates_answer (fun out : LengthOut =>
    reply out.ret (if out.ret = 0 then out.size.getD vsize else vsize)) hI fun s hs => ?_
  obtain ⟨hlength, hrest⟩ := h.length s key.data hs
  refine ⟨?_, hrest⟩
  simp only [hlength]
  cases view s key.data <;> rfl

/-- The result of a get as an answer of a handler; `missing` is what `*vsize` becomes when
nothing is found. -/
def getOutcome (value : ValueObject) (vsize missing : ℕ) :
    Option Bulk → Int × ValueObject × ℕ
  | some w => foundOutcome value vsize w
  | none => (SdskvReturn.errUnknownKey.code, value, missing)

/-- A get with a buffer changes the databases as its handler does, on both paths. -/
theorem sdskvGet_eq (hclient : firstFailure net.client = none)
    (hserver : firstFailure net.server = none) (dbId : UInt64) (key : KvData)
    {value : ValueObject} (hvalue : value.isNull = false) (vsize : ℕ) :
    (seenByCaller (sdskvGet ds net dbs dbId key value vsize),
        (sdskvGet ds net dbs dbId key value vsize).2.2.2) =
      answerFrom dbs dbId
        (SdskvReturn.errUnknownDb.code, value, ClientCall.missingSize vsize) fun s =>
          (getOutcome value vsize (ClientCall.missingSize vsize) (ds.get s key.data).1,
            (ds.get s key.data).2) := by
  rw [sdskvGet, hvalue, if_neg Bool.false_ne_true, ClientCall.missingSize]
  by_cases hsize : vsize + 8 + 4 ≤ maxRpcMessageSize
  · simp only [if_pos hsize, seen_getInline ds net dbs dbId key hclient]
    have hdbs : (getInline ds net dbs dbId key value vsize).2.2.2 =
        (sdskvGetUlt ds dbs { dbId := dbId, key := key, vsize := vsize }).2 := by
      simp only [getInline, hclient]
      split_ifs <;> rfl
    rw [hdbs, sdskvGetUlt, answerFrom, answerFrom, fetchedValue]
    cases dbs dbId with
    | none => rfl
    | some s =>
        simp only [Option.bind_some]
        cases (ds.get s key.data).1 <;> rfl
  · simp only [if_neg hsize, seen_getBulk ds net dbs dbId key hclient hserver hvalue]
    have hdbs : (getBulk ds net dbs dbId key value vsize).2.2.2 =
        (sdskvBulkGetUlt ds dbs net.server { dbId := dbId, key := key, vsize := vsize }).2 := by
      simp only [getBulk, hclient]
    rw [hdbs, sdskvBulkGetUlt, answerFrom, answerFrom, fetchedValue]
    cases dbs dbId with
    | none => rfl
    | some s =>
        simp only [Option.bind_some]
        cases (ds.get s key.data).1 <;> rfl

theorem get_simulates (h : ServesMap ds I view eraseAnswer)
    (hI : ∀ dbId s, dbs dbId = some s → I s) (hclient : firstFailure net.client = none)
    (hserver : firstFailure net.server = none) (proc : HgProc) (dbId : UInt64) (key : KvData)
    (value : ValueObject) (vsize : ℕ) :
    Simulates I view ((ClientCall.get dbId key value vsize).perform proc ds net dbs)
      ((ClientCall.get dbId key value vsize).spec eraseAnswer (contentsOf view dbs)) := by
  cases hvalue : value.isNull with
  | true =>
      simp only [ClientCall.perform, ClientCall.spec, sdskvGet, hvalue, if_true]
      exact length_simulates h hI hclient dbId key vsize fun ret n => .value ret value n
  | false =>
      have hperform : (ClientCall.get dbId key value vsize).perform proc ds net dbs =
          Prod.map (fun r : Int × ValueObject × ℕ => ClientReply.value r.1 r.2.1 r.2.2) id
            (seenByCaller (sdskvGet ds net dbs dbId key value vsize),
              (sdskvGet ds net dbs dbId key value vsize).2.2.2) := rfl
      rw [hperform, sdskvGet_eq hclient hserver dbId key hvalue]
      simp only [ClientCall.spec, hvalue, Bool.false_eq_true, if_false]
      refine simulates_answer _ hI fun s hs => ?_
      obtain ⟨hget, hrest⟩ := h.get s key.data hs
      refine ⟨?_, hrest⟩
      simp only [hget]
      cases view s key.data with
      | none => rfl
      | some w =>
          simp only [getOutcome, foundOutcome, ClientCall.getReply]
          split_ifs <;> rfl

/-- A call simulates its specification. -/
theorem perform_simulates (h : ServesMap ds I view eraseAnswer)
    (hI : ∀ dbId s, dbs dbId = some s → I s)
    (hclient : ∀ hret ∈ net.client, hret = hgSuccess)
    (hserver : ∀ hret ∈ net.server, hret = hgSuccess) (proc : HgProc) (call : ClientCall) :
    Simulates I view (call.perform proc ds net dbs)
      (call.spec eraseAnswer (contentsOf view dbs)) := by
  have hnone : firstFailure net.client = none := firstFailure_eq_none hclient
  cases call with
  | put dbId key value =>
      rw [ClientCall.perform, sdskvPut_eq proc ds.toDatastoreWrites hserver]
      refine simulates_answer _ hI fun s hs => ?_
      obtain ⟨hret, hrest⟩ := h.put s key.data value.data hs
      exact ⟨congrArg (fun r => ClientReply.status (SdskvReturn.code r)) hret, hrest⟩
  | get dbId key value vsize =>
      exact get_simulates h hI hnone (firstFailure_eq_none hserver) proc dbId key value vsize
  | length dbId key vsize => exact length_simulates h hI hnone dbId key vsize .size
  | «exists» dbId key flag =>
      simp only [ClientCall.perform, sdskvExists, hnone]
      refine simulates_answer (fun out : ExistsOut =>
        ClientReply.flag out.ret (if out.ret = 0 then out.flag.getD flag else flag)) hI
          fun s hs => ?_
      obtain ⟨hexists, hrest⟩ := h.exists s key.data key.data.length hs
      refine ⟨?_, hrest⟩
      simp only [hexists, bulkOfPointer, List.take_length]
      rfl
  | erase dbId key =>
      simp only [ClientCall.perform, sdskvErase, hnone]
      refine simulates_answer _ hI fun s hs => ?_
      obtain ⟨herase, hrest⟩ := h.erase s key.data hs
      exact ⟨by simp only [herase], hrest⟩

end Simulation

end Sdskv
