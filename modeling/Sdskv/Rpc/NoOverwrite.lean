import Sdskv.Datastore.BerkeleyDB.Basic
import Sdskv.Datastore.LevelDB.Basic
import Sdskv.Datastore.Map.Basic
import Sdskv.Rpc.PutBatch
import Sdskv.Transition.Run

/-!
# Databases that refuse overwriting

On a database attached with `db_no_overwrite` a bound key should keep its value
until it is erased. The rule is enforced in the `put` of each backend, and the
batched puts of the base class inherit it. `put_multi` of the BerkeleyDB backend is
its own bulk put, which passes no `DB_NOOVERWRITE` and replaces bindings.

A handler makes at most one call of a write method, `WriteRequest.call`. `KeepsBinding` is the
condition of a backend on its calls for one binding; `keepsBinding_run` lifts it to runs of
write requests. Each backend then has one proof of its condition.
-/

namespace Sdskv

open Transition

/-- A call of a write method of a datastore. -/
inductive WriteCall
  | put (key value : Bulk)
  | putMulti (keys values : List (Pointer × ℕ))
  | putPacked (args : PackedArgs)
  | erase (key : Bulk)

namespace WriteCall

/-- The state after a call. -/
def run {σ : Type} (ds : DatastoreWrites σ) (s : σ) : WriteCall → σ
  | put key value => (ds.put s key value).2
  | putMulti keys values => (ds.putMulti s keys values).2
  | putPacked args => (ds.putPacked s args.keys args.ksizes args.values args.vsizes).2
  | erase key => (ds.erase s key).2

/-- The call erases the key `k` or a key equivalent to it. -/
def Erases (lt : Bulk → Bulk → Prop) (k : Bulk) : WriteCall → Prop
  | erase key => IncompRel lt key k
  | _ => False

end WriteCall

/-- A write request as its handler receives it, with the answers of the calls that the handler
makes and, for a batch, a number of tests of its loop. -/
inductive WriteRequest
  | put (input : Except ℕ PutIn)
  | bulkPut (hrets : List ℕ) (input : BulkPutIn)
  | putMulti (calls : BulkCalls) (fuel : ℕ) (input : PutMultiIn)
  | putPacked (calls : BulkCalls) (fuel : ℕ) (input : PutPackedIn)
  | erase (dbId : UInt64) (key : KvData)

namespace WriteRequest

/-- The databases after a request whose handler has ended. -/
def serve {σ : Type} (ds : DatastoreWrites σ) (reads : RegionReads σ) (dbs : Databases σ) :
    WriteRequest → Option (Databases σ)
  | put input => some (sdskvPutUlt ds dbs input).2
  | bulkPut hrets input => some (sdskvBulkPutUlt ds hrets dbs input).2
  | putMulti calls fuel input =>
      (sdskvPutMultiUlt ds reads calls fuel dbs input).toOption.map Prod.snd
  | putPacked calls fuel input =>
      (sdskvPutPackedUlt ds reads calls fuel dbs input).toOption.map Prod.snd
  | erase dbId key => some (sdskvEraseUlt ds dbs dbId key).2

/-- The call of the datastore that the handler of a request makes, if it comes to it. -/
def call : WriteRequest → Option (UInt64 × WriteCall)
  | put (.ok input) => some (input.dbId, .put input.key.data input.value.data)
  | put (.error _) => none
  | bulkPut hrets input =>
      if input.vsize > 0 then
        match firstFailure hrets with
        | some _ => none
        | none => some (input.dbId, .put input.key.data (bulkPull input.handle input.vsize))
      else some (input.dbId, .put input.key.data [])
  | putMulti calls fuel input =>
      (input.receive calls).toOption.bind fun buffers =>
        (putPointers fuel input.numKeys buffers).toOption.map fun t =>
          (input.dbId, .putMulti t.kptrs t.vptrs)
  | putPacked calls fuel input =>
      (input.receive calls).toOption.bind fun localBuffer =>
        (putPackedArgs fuel input.numKeys localBuffer).toOption.map fun args =>
          (input.dbId, .putPacked args)
  | erase dbId key => some (dbId, .erase key.data)

/-- The request erases the key `k`, or a key equivalent to it, of a database. -/
def Erases (lt : Bulk → Bulk → Prop) (dbId : UInt64) (k : Bulk) (r : WriteRequest) : Prop :=
  ∃ c, r.call = some (dbId, c) ∧ c.Erases lt k

/-- The call that the request makes in a database is one that `ok` admits there. -/
def Admitted {σ : Type} (ok : σ → WriteCall → Prop) (dbs : Databases σ) (dbId : UInt64)
    (r : WriteRequest) : Prop :=
  ∀ s c, dbs dbId = some s → r.call = some (dbId, c) → ok s c

end WriteRequest

section Serve

variable {σ : Type} {ds : DatastoreWrites σ} {reads : RegionReads σ} {dbs dbs' : Databases σ}

/-- A batched handler that has ended has made its call, or has failed before it. -/
theorem serveMulti_call {α β : Type} {dbId : UInt64} {received : Except ℕ β}
    {loop : β → Loop.Run α} {call : σ → α → Option (Int × σ)} (c : α → WriteCall)
    (hcall : ∀ s a r, call s a = some r → r.2 = (c a).run ds s)
    (hserve : ((serveMulti dbs dbId id received fun buffers s =>
      (loop buffers).bind fun a => .ofOption (call s a)).toOption.map Prod.snd) = some dbs') :
    dbs' = match received.toOption.bind fun buffers =>
        (loop buffers).toOption.map fun a => (dbId, c a) with
      | none => dbs
      | some (dbId, c) => updateDatabase dbs dbId fun s => c.run ds s := by
  obtain ⟨result, hdone, rfl⟩ := Option.map_eq_some_iff.1 hserve
  rw [Loop.Run.toOption_eq_some_iff] at hdone
  cases hdb : dbs dbId with
  | none =>
      rw [serveMulti, hdb] at hdone
      cases hdone
      split
      · rfl
      · next hmade =>
          obtain ⟨buffers, -, hmade⟩ := Option.bind_eq_some_iff.1 hmade
          obtain ⟨a, -, hpair⟩ := Option.map_eq_some_iff.1 hmade
          cases hpair
          rw [updateDatabase, hdb]
  | some s =>
      cases received with
      | error hret =>
          rw [serveMulti_of_error hdb rfl] at hdone
          cases hdone
          rfl
      | ok buffers =>
          rw [serveMulti_of_ok hdb rfl] at hdone
          obtain ⟨r, hloop, rfl⟩ := Loop.Run.map_eq_done_iff.1 hdone
          obtain ⟨a, ha, hthen⟩ := Loop.Run.bind_eq_done_iff.1 hloop
          rw [Loop.Run.ofOption_eq_done_iff] at hthen
          simp only [Except.toOption, Option.bind_some, ha, Loop.Run.toOption, Option.map_some,
            updateDatabase, hdb, hcall s a r hthen]

theorem snd_of_callPutMulti {s : σ} {t : PutPointers} {r : Int × σ}
    (h : callPutMulti ds reads s t = some r) : r.2 = (ds.putMulti s t.kptrs t.vptrs).2 := by
  obtain ⟨_, -, h⟩ := Option.bind_eq_some_iff.1 h
  cases h
  rfl

theorem snd_of_callPutPacked {s : σ} {args : PackedArgs} {r : Int × σ}
    (h : callPutPacked ds reads s args = some r) :
    r.2 = (ds.putPacked s args.keys args.ksizes args.values args.vsizes).2 := by
  obtain ⟨_, -, h⟩ := Option.bind_eq_some_iff.1 h
  cases h
  rfl

/-- Serving a request is running its call on the database. -/
theorem WriteRequest.serve_eq {r : WriteRequest} (hserve : r.serve ds reads dbs = some dbs') :
    dbs' = match r.call with
      | none => dbs
      | some (dbId, c) => updateDatabase dbs dbId fun s => c.run ds s := by
  cases r with
  | put input =>
      cases input with
      | error hret =>
          cases hserve
          rfl
      | ok input =>
          cases hserve
          exact withDatabase_snd dbs input.dbId _
  | bulkPut hrets input =>
      cases hserve
      rw [sdskvBulkPutUlt, withDatabase_snd, call]
      split_ifs
      · cases firstFailure hrets with
        | none => rfl
        | some hret => exact updateDatabase_id dbs input.dbId
      · rfl
  | putMulti calls fuel input =>
      exact serveMulti_call (fun t => .putMulti t.kptrs t.vptrs)
        (fun s t r h => snd_of_callPutMulti h) hserve
  | putPacked calls fuel input =>
      exact serveMulti_call .putPacked (fun s args r h => snd_of_callPutPacked h) hserve
  | erase dbId key =>
      cases hserve
      exact withDatabase_snd dbs dbId _

end Serve

/-- Every call that `ok` admits, but an erase of `k`, preserves `P`. -/
def KeepsBinding {σ : Type} (ds : DatastoreWrites σ) (lt : Bulk → Bulk → Prop) (k : Bulk)
    (P : σ → Prop) (ok : σ → WriteCall → Prop) : Prop :=
  ∀ s c, ok s c → ¬ c.Erases lt k → P s → P (c.run ds s)

/-- The database is there and satisfies `P`. -/
def Holds {σ : Type*} (P : σ → Prop) (dbId : UInt64) (dbs : Databases σ) : Prop :=
  ∃ s, dbs dbId = some s ∧ P s

section Run

variable {σ : Type} {ds : DatastoreWrites σ} {reads : RegionReads σ} {lt : Bulk → Bulk → Prop}
  {k : Bulk} {P : σ → Prop} {ok : σ → WriteCall → Prop}

/-- One request preserves the binding. -/
theorem keepsBinding_step (hkeeps : KeepsBinding ds lt k P ok) (dbId : UInt64)
    (dbs : Databases σ) (r : WriteRequest) (dbs' : Databases σ) (h : Holds P dbId dbs)
    (herase : ¬ r.Erases lt dbId k) (hadmitted : r.Admitted ok dbs dbId)
    (hserve : r.serve ds reads dbs = some dbs') : Holds P dbId dbs' := by
  obtain ⟨s, hs, hP⟩ := h
  rw [WriteRequest.serve_eq hserve]
  cases hcall : r.call with
  | none => exact ⟨s, hs, hP⟩
  | some target =>
      obtain ⟨dbId', c⟩ := target
      by_cases hid : dbId' = dbId
      · subst hid
        have hkept := hkeeps s c (hadmitted s c hs hcall)
          (fun hc => herase ⟨c, hcall, hc⟩) hP
        refine ⟨c.run ds s, ?_, hkept⟩
        dsimp only
        rw [updateDatabase_apply, if_pos rfl, hs]
        rfl
      · refine ⟨s, ?_, hP⟩
        dsimp only
        rw [updateDatabase_apply, if_neg (Ne.symm hid), hs]

/-- A run without an erase of the key preserves the binding. -/
theorem keepsBinding_run (hkeeps : KeepsBinding ds lt k P ok) (dbId : UInt64)
    {dbs dbs' : Databases σ} {requests : List WriteRequest} (h : Holds P dbId dbs)
    (hok : holdsAlong (WriteRequest.serve ds reads)
      (fun dbs r => ¬ r.Erases lt dbId k ∧ r.Admitted ok dbs dbId) dbs requests)
    (hrun : run? (WriteRequest.serve ds reads) dbs requests = some dbs') :
    Holds P dbId dbs' :=
  invariant_of_run (fun dbs r dbs' hI hok hs =>
    keepsBinding_step hkeeps dbId dbs r dbs' hI hok.1 hok.2 hs) h hok hrun

end Run

/-- The map backend keeps a binding, with no condition on the keys of a batch. -/
theorem MapDataStore.keepsBinding (less : Option ComparatorFn)
    [IsStrictWeakOrder Bulk (keycmp less)] (k v : Bulk) :
    KeepsBinding MapDataStore.writes (keycmp less) k
      (fun s => s.less = less ∧ s.noOverwrite = true ∧ s.get k = some v)
      fun _ _ => True := by
  have hput : ∀ (s : MapDataStore) (key data : Bulk),
      s.less = less ∧ s.noOverwrite = true ∧ s.get k = some v →
      (s.put key data).2.less = less ∧ (s.put key data).2.noOverwrite = true ∧
        (s.put key data).2.get k = some v := by
    rintro s key data ⟨rfl, hno, hget⟩
    refine ⟨by simp, by simp [hno], ?_⟩
    rw [get_put, if_neg, hget]
    rintro ⟨hkey, hnot⟩
    apply hnot
    refine ⟨hno, ?_⟩
    rw [get_congr hkey, hget]
    rfl
  have hraw : ∀ (s : MapDataStore) key ksize value vsize,
      s.less = less ∧ s.noOverwrite = true ∧ s.get k = some v →
      (s.putRaw key ksize value vsize).2.less = less ∧
        (s.putRaw key ksize value vsize).2.noOverwrite = true ∧
        (s.putRaw key ksize value vsize).2.get k = some v := by
    intro s key ksize value vsize h
    rw [putRaw_eq]
    exact hput s _ _ h
  intro s c _ herase h
  cases c with
  | put key value => exact hput s key value h
  | putMulti keys values => exact putMulti_invariant hraw h keys values
  | putPacked args => exact putPacked_invariant hraw h _ _ _ _
  | erase key =>
      obtain ⟨rfl, hno, hget⟩ := h
      have hkey : ¬ IncompRel (keycmp s.less) key k := herase
      refine ⟨rfl, hno, ?_⟩
      rw [WriteCall.run, writes, get_erase, if_neg hkey, hget]

namespace LevelDBDataStore

variable {δ : Type} {db : LevelDB δ} {lt : Bulk → Bulk → Prop} [DecidableRel lt]

/-- `Get` does not fail for a key. -/
def GetAnswers (db : LevelDB δ) (s : LevelDBDataStore δ) (key : Bulk) : Prop :=
  (db.get s.dbm key).1 ≠ .error

/-- No `Get` that the puts of a call make fails. -/
def GetsAnswer (db : LevelDB δ) (s : LevelDBDataStore δ) : WriteCall → Prop
  | .put key _ => GetAnswers db s key
  | .putMulti keys values => AlongPuts (put db) (GetAnswers db) s keys values
  | .putPacked args => AlongPuts (put db) (GetAnswers db) s (offsetRegions args.keys 0 args.ksizes)
      (offsetRegions args.values 0 args.vsizes)
  | .erase _ => True

theorem put_keeps (spec : db.Spec lt) (k v : Bulk) (s : LevelDBDataStore δ) (key : Pointer)
    (ksize : ℕ) (value : Pointer) (vsize : ℕ) (hget : GetAnswers db s (bulkOfPointer key ksize))
    (h : s.noOverwrite = true ∧ spec.view s.dbm k = some v) :
    (put db s key ksize value vsize).2.noOverwrite = true ∧
      spec.view (put db s key ksize value vsize).2.dbm k = some v := by
  obtain ⟨hno, hview⟩ := h
  set key' := bulkOfPointer key ksize with hkey'
  have hafter : spec.view (db.get s.dbm key').2.2 k = some v := by
    rw [spec.get_view, hview]
  simp only [put, hno, if_true, «exists», ← hkey']
  by_cases hfound : (db.get s.dbm key').1 = .ok
  · simp only [hfound, decide_true, if_true]
    exact ⟨trivial, hafter⟩
  · have hnone : spec.view s.dbm key' = none := by
      cases hstatus : (db.get s.dbm key').1 with
      | ok => exact absurd hstatus hfound
      | notFound => exact spec.get_notFound _ _ hstatus
      | error => exact absurd hstatus hget
    have hother : ¬ IncompRel lt key' k := by
      intro hinc
      rw [spec.view_congr _ _ _ hinc, hview] at hnone
      cases hnone
    simp only [hfound, decide_false, Bool.false_eq_true, if_false, putUnchecked, ← hkey']
    refine ⟨trivial, ?_⟩
    by_cases hput : (db.put (db.get s.dbm key').2.2 key' (bulkOfPointer value vsize)).1 = .ok
    · rw [spec.put_ok _ _ _ hput, if_neg hother, hafter]
    · rw [spec.put_not_ok _ _ _ hput, hafter]

/-- The LevelDB backend keeps a binding as long as no `Get` fails. -/
theorem keepsBinding (spec : db.Spec lt) (k v : Bulk) :
    KeepsBinding (writes db) lt k
      (fun s => s.noOverwrite = true ∧ spec.view s.dbm k = some v) (GetsAnswer db) := by
  have hput := put_keeps spec k v
  intro s c hok herase h
  cases c with
  | put key value =>
      refine hput s _ _ _ _ ?_ h
      rw [bulkOfPointer, List.take_length]
      exact hok
  | putMulti keys values => exact putMultiLoop_along hput h .success hok
  | putPacked args =>
      simp only [WriteCall.run, writes, putPacked, putPackedLoop_eq]
      exact putMultiLoop_along hput h .success hok
  | erase key =>
      obtain ⟨hno, hview⟩ := h
      have hkey : ¬ IncompRel lt key k := herase
      refine ⟨hno, ?_⟩
      by_cases hdelete : (db.delete s.dbm key).1 = .ok
      · simp only [WriteCall.run, writes, erase]
        rw [spec.delete_ok _ _ hdelete, if_neg hkey, hview]
      · simp only [WriteCall.run, writes, erase]
        rw [spec.delete_not_ok _ _ hdelete, hview]

end LevelDBDataStore

namespace BerkeleyDBDataStore

variable {δ : Type} {db : BerkeleyDb δ} {lt : Bulk → Bulk → Prop} [DecidableRel lt]

theorem put_keeps (spec : db.Spec lt) (k v : Bulk) (s : BerkeleyDBDataStore δ)
    (key : Pointer) (ksize : ℕ) (val : Pointer) (vsize : ℕ)
    (h : s.noOverwrite = true ∧ spec.view s.dbm k = some v) :
    (put db s key ksize val vsize).2.noOverwrite = true ∧
      spec.view (put db s key ksize val vsize).2.dbm k = some v := by
  obtain ⟨hno, hview⟩ := h
  set key' := bulkOfPointer key ksize with hkey'
  simp only [put, hno, ← hkey']
  refine ⟨trivial, ?_⟩
  by_cases hzero : (db.put s.dbm key' (bulkOfPointer val vsize) true).1 = .zero
  · have hother : ¬ IncompRel lt key' k := by
      intro hinc
      have hbound : spec.view s.dbm key' ≠ none := by
        rw [spec.view_congr _ _ _ hinc, hview]
        simp
      rw [spec.put_noOverwrite _ _ _ hbound] at hzero
      cases hzero
    rw [spec.put_zero _ _ _ _ hzero, bindAll_of_forall_not _ _ _ _ (by simpa using hother)]
    exact hview
  · rw [spec.put_not_zero _ _ _ _ hzero, hview]

/-- `put_multi` keeps the bindings of the keys it does not name. -/
theorem putMulti_view (spec : db.Spec lt) (k : Bulk) (s : BerkeleyDBDataStore δ)
    (keys values : List (Pointer × ℕ))
    (h : ∀ p ∈ keys, ¬ IncompRel lt (bulkOfPointer p.1 p.2) k) :
    spec.view (putMulti db s keys values).2.dbm k = spec.view s.dbm k := by
  set items := (DbMultipleDataBuilder.appendAll
    (dbtUlen (keyBufferSize (keys.map Prod.snd)))
    (keys.map fun p => bulkOfPointer p.1 p.2)).items with hitems
  set data := (DbMultipleDataBuilder.appendAll
    (dbtUlen (valueBufferSize (values.map Prod.snd)))
    (values.map fun p => bulkOfPointer p.1 p.2)).items with hdata
  have hpairs : ∀ p ∈ items.zip data, ¬ IncompRel lt p.1 k := by
    rintro ⟨key, value⟩ hp
    have hkey : key ∈ keys.map fun p => bulkOfPointer p.1 p.2 :=
      DbMultipleDataBuilder.mem_appendAll (List.of_mem_zip hp).1
    obtain ⟨p, hmem, rfl⟩ := List.mem_map.1 hkey
    exact h p hmem
  simp only [putMulti, ← hitems, ← hdata]
  by_cases hzero : (db.putMultiple s.dbm items data (!s.noOverwrite)).1 = .zero
  · rw [spec.putMultiple_zero _ _ _ _ hzero, bindAll_of_forall_not _ _ _ _ hpairs]
  · obtain ⟨n, hn⟩ := spec.putMultiple_not_zero _ _ _ _ hzero
    rw [hn, bindAll_of_forall_not _ _ _ _ fun p hp => hpairs p (List.mem_of_mem_take hp)]

/-- No key of a `put_multi` is bound. -/
def PutsUnbound (view : δ → Bulk → Option Bulk) (s : BerkeleyDBDataStore δ) : WriteCall → Prop
  | .putMulti keys _ => ∀ p ∈ keys, view s.dbm (bulkOfPointer p.1 p.2) = none
  | _ => True

/-- The BerkeleyDB backend keeps a binding as long as no `put_multi` names a bound
key. -/
theorem keepsBinding (spec : db.Spec lt) (k v : Bulk) :
    KeepsBinding (writes db) lt k
      (fun s => s.noOverwrite = true ∧ spec.view s.dbm k = some v) (PutsUnbound spec.view) := by
  have hput := put_keeps spec k v
  intro s c hok herase h
  cases c with
  | put key value => exact hput s _ _ _ _ h
  | putMulti keys values =>
      obtain ⟨hno, hview⟩ := h
      refine ⟨hno, ?_⟩
      have hother : ∀ p ∈ keys, ¬ IncompRel lt (bulkOfPointer p.1 p.2) k := by
        intro p hp hinc
        have hnone := hok p hp
        rw [spec.view_congr _ _ _ hinc, hview] at hnone
        cases hnone
      exact (putMulti_view spec k s keys values hother).trans hview
  | putPacked args => exact putPacked_invariant hput h _ _ _ _
  | erase key =>
      obtain ⟨hno, hview⟩ := h
      have hkey : ¬ IncompRel lt key k := herase
      refine ⟨hno, ?_⟩
      by_cases hdel : (db.del s.dbm key).1 = .zero
      · simp only [WriteCall.run, writes, erase]
        rw [spec.del_zero _ _ hdel, if_neg hkey, hview]
      · simp only [WriteCall.run, writes, erase]
        rw [spec.del_not_zero _ _ hdel, hview]

end BerkeleyDBDataStore

/-- In every run of write requests whose calls are admitted by `ok`, a key that is bound keeps
its value until it is erased, whatever the datastore reads of the regions of a batch. -/
def NeverOverwrites {σ : Type} (ds : DatastoreWrites σ) (lt : Bulk → Bulk → Prop)
    (noOverwrite : σ → Prop) (value : σ → Bulk → Option Bulk) (ok : σ → WriteCall → Prop) :
    Prop :=
  ∀ (reads : RegionReads σ) (dbId : UInt64) (k v : Bulk) (dbs dbs' : Databases σ)
    (requests : List WriteRequest),
    Holds (fun s => noOverwrite s ∧ value s k = some v) dbId dbs →
    holdsAlong (WriteRequest.serve ds reads)
      (fun dbs r => ¬ r.Erases lt dbId k ∧ r.Admitted ok dbs dbId) dbs requests →
    run? (WriteRequest.serve ds reads) dbs requests = some dbs' →
    Holds (fun s => noOverwrite s ∧ value s k = some v) dbId dbs'

/-- The three backends never overwrite a binding, the BerkeleyDB backend as long as no
`put_multi` names a bound key, and the LevelDB backend as long as no `Get` of a put fails. -/
theorem neverOverwrites_backends {δ ε : Type} (less : Option ComparatorFn)
    [IsStrictWeakOrder Bulk (keycmp less)] (ldb : LevelDB δ) (lt : Bulk → Bulk → Prop)
    [DecidableRel lt] (spec : ldb.Spec lt) (bdb : BerkeleyDb ε) (lt' : Bulk → Bulk → Prop)
    [DecidableRel lt'] (spec' : bdb.Spec lt') :
    NeverOverwrites MapDataStore.writes (keycmp less)
      (fun s => s.less = less ∧ s.noOverwrite = true) MapDataStore.get (fun _ _ => True) ∧
    NeverOverwrites (LevelDBDataStore.writes ldb) lt (fun s => s.noOverwrite = true)
      (fun s => spec.view s.dbm) (LevelDBDataStore.GetsAnswer ldb) ∧
    NeverOverwrites (BerkeleyDBDataStore.writes bdb) lt' (fun s => s.noOverwrite = true)
      (fun s => spec'.view s.dbm) (BerkeleyDBDataStore.PutsUnbound spec'.view) := by
  refine ⟨?_, ?_, ?_⟩
  · intro reads dbId k v dbs dbs' requests h hok hrun
    have hkeeps := MapDataStore.keepsBinding less k v
    simp only [← and_assoc] at hkeeps
    exact keepsBinding_run hkeeps dbId h hok hrun
  · intro reads dbId k v dbs dbs' requests h hok hrun
    exact keepsBinding_run (LevelDBDataStore.keepsBinding spec k v) dbId h hok hrun
  · intro reads dbId k v dbs dbs' requests h hok hrun
    exact keepsBinding_run (BerkeleyDBDataStore.keepsBinding spec' k v) dbId h hok hrun

/-- A BerkeleyDB database that refuses overwriting and binds a key of 12 bytes. -/
def boundBerkeleyDBs : Databases (BerkeleyDBDataStore (List (Bulk × Bulk))) := fun _ =>
  some { noOverwrite := true, dbm := [(List.replicate 12 1, [1])] }

/-- A batched put of one pair to database 1. -/
def putMultiOne (k v : KvData) : WriteRequest :=
  .putMulti .succeeding 2
    { dbId := 1
      numKeys := 1
      keysBulkHandle := [Wire.arrayBytes 8 [k.data.length], k.data]
      keysBulkSize := 8 + k.data.length
      valsBulkHandle := [Wire.arrayBytes 8 [v.data.length], v.data]
      valsBulkSize := 8 + v.data.length }

/-- The datastore reads every region. -/
def allRegions : RegionReads (BerkeleyDBDataStore (List (Bulk × Bulk))) := fun _ regions => regions

/-- The databases after a run of batched puts of one pair each. -/
def afterPuts (pairs : List (KvData × KvData)) :
    Option (Databases (BerkeleyDBDataStore (List (Bulk × Bulk)))) :=
  run? (WriteRequest.serve (BerkeleyDBDataStore.writes (orderedBerkeleyDb vectorLess)) allRegions)
    boundBerkeleyDBs (pairs.map fun q => putMultiOne q.1 q.2)

/-- A batched put erases nothing. -/
theorem WriteRequest.not_erases_putMulti {lt : Bulk → Bulk → Prop} {dbId : UInt64} {k : Bulk}
    (calls : BulkCalls) (fuel : ℕ) (input : PutMultiIn) :
    ¬ (putMulti calls fuel input).Erases lt dbId k := by
  rintro ⟨c, hcall, hc⟩
  obtain ⟨buffers, -, hmade⟩ := Option.bind_eq_some_iff.1 hcall
  obtain ⟨t, -, hpair⟩ := Option.map_eq_some_iff.1 hmade
  cases hpair
  exact hc

/-- A batched put of another key keeps the binding. -/
theorem neverOverwrites_backends_otherKey : ∃ dbs',
    afterPuts [(⟨List.replicate 12 2, by decide⟩, ⟨[2], by decide⟩)] = some dbs' ∧
    Holds (fun s => s.noOverwrite = true ∧
      OrderedMap.lookup vectorLess s.dbm (List.replicate 12 1) = some [1]) 1 dbs' := by
  obtain ⟨-, -, hberkeley⟩ := neverOverwrites_backends none
    (orderedLevelDB vectorLess) vectorLess (orderedLevelDB_spec vectorLess)
    (orderedBerkeleyDb vectorLess) vectorLess (orderedBerkeleyDb_spec vectorLess)
  have hends :
      (afterPuts [(⟨List.replicate 12 2, by decide⟩, ⟨[2], by decide⟩)]).isSome = true := by
    decide +kernel
  have hcalled : ((putMultiOne ⟨List.replicate 12 2, by decide⟩ ⟨[2], by decide⟩).call.map
      fun c => match c.2 with
        | .putMulti keys _ => keys.map fun p => bulkOfPointer p.1 p.2
        | _ => []) = some [List.replicate 12 2] := by
    decide +kernel
  obtain ⟨dbs', hrun⟩ := Option.isSome_iff_exists.1 hends
  refine ⟨dbs', hrun, ?_⟩
  apply hberkeley allRegions 1 _ [1] boundBerkeleyDBs dbs' _ ?_ ?_ hrun
  · exact ⟨_, rfl, rfl, by decide +kernel⟩
  · refine ⟨⟨WriteRequest.not_erases_putMulti _ _ _, ?_⟩, fun _ _ => trivial⟩
    rintro s c ⟨⟩ hcall
    dsimp only at hcall
    rw [hcall, Option.map_some, Option.some.injEq] at hcalled
    cases c with
    | putMulti keys values =>
        dsimp only at hcalled
        intro p hp
        have hkey := List.mem_map_of_mem (f := fun p => bulkOfPointer p.1 p.2) hp
        rw [hcalled, List.mem_singleton] at hkey
        rw [hkey]
        decide +kernel
    | _ => trivial

/-- `put_multi` of a bound key replaces its value on a BerkeleyDB database that
refuses overwriting. -/
theorem berkeleyDB_putMulti_overwrites :
    ¬ NeverOverwrites (BerkeleyDBDataStore.writes (orderedBerkeleyDb vectorLess))
      vectorLess (fun s => s.noOverwrite = true)
      (fun s => OrderedMap.lookup vectorLess s.dbm) fun _ _ => True := by
  intro h
  have hafter : ((afterPuts [(⟨List.replicate 12 1, by decide⟩, ⟨[2], by decide⟩)]).bind
      fun dbs => dbs 1).map (fun s => s.dbm) = some [(List.replicate 12 1, [2])] := by
    decide +kernel
  cases hrun : afterPuts [(⟨List.replicate 12 1, by decide⟩, ⟨[2], by decide⟩)] with
  | none =>
      rw [hrun] at hafter
      cases hafter
  | some dbs' =>
      have hbound := h allRegions 1 (List.replicate 12 1) [1] boundBerkeleyDBs dbs'
        [putMultiOne ⟨List.replicate 12 1, by decide⟩ ⟨[2], by decide⟩]
        ⟨_, rfl, rfl, by decide +kernel⟩
        ⟨⟨WriteRequest.not_erases_putMulti _ _ _, fun _ _ _ _ => trivial⟩, fun _ _ => trivial⟩ hrun
      obtain ⟨s, hs, -, hvalue⟩ := hbound
      rw [hrun, Option.bind_some, hs, Option.map_some, Option.some.injEq] at hafter
      dsimp only at hvalue
      rw [hafter] at hvalue
      revert hvalue
      decide +kernel

end Sdskv
