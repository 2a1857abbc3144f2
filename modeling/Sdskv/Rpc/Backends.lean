import Sdskv.Datastore.BerkeleyDB.Reads
import Sdskv.Datastore.LevelDB.Basic
import Sdskv.Datastore.Map.Basic
import Sdskv.Rpc.Read
import Sdskv.Transition.Run

/-!
# The three backends give the same answers

`mapSpec` is what a database is for: a function from keys to values, changed by put and
erase at one key. A backend that `ServesMap` answers every run of requests as `mapSpec`
does on the contents of its databases. The three backends differ in one point, the answer
to an erase of a key that is not there: the map and the BerkeleyDB backend report it, the
LevelDB backend reports success, because `Delete` does not tell the difference. A second
difference shows from `2 ^ 32` bytes on, where a key or a value does not fit into the `Dbt`
that the BerkeleyDB backend makes of it.
-/

namespace Sdskv

open Transition

/-- A database as a function from keys to values; `eraseAnswer` is the answer of `erase`
for a key that is there or not. -/
def mapSpec (eraseAnswer : Bool → Bool) : DatastoreReads (Bulk → Option Bulk) where
  put f k v := (.success, Function.update f k (some v))
  putMulti := putMulti fun f k ksize v vsize =>
    (.success, Function.update f (bulkOfPointer k ksize) (some (bulkOfPointer v vsize)))
  putPacked := putPacked fun f k ksize v vsize =>
    (.success, Function.update f (bulkOfPointer k ksize) (some (bulkOfPointer v vsize)))
  erase f k := (eraseAnswer (f k).isSome, Function.update f k none)
  get f k := (f k, f)
  length f k := ((f k).map List.length, f)
  «exists» f p n := ((f (bulkOfPointer p n)).isSome, f)

/-- The methods of a backend act on the contents `view` of its states as those of
`mapSpec`, on the states that satisfy `I`. -/
structure ServesMap {σ : Type*} (ds : DatastoreReads σ) (I : σ → Prop)
    (view : σ → Bulk → Option Bulk) (eraseAnswer : Bool → Bool) : Prop where
  put : ∀ s k v, I s → (ds.put s k v).1 = .success ∧
    view (ds.put s k v).2 = Function.update (view s) k (some v) ∧ I (ds.put s k v).2
  erase : ∀ s k, I s → (ds.erase s k).1 = eraseAnswer (view s k).isSome ∧
    view (ds.erase s k).2 = Function.update (view s) k none ∧ I (ds.erase s k).2
  get : ∀ s k, I s → (ds.get s k).1 = view s k ∧
    view (ds.get s k).2 = view s ∧ I (ds.get s k).2
  length : ∀ s k, I s → (ds.length s k).1 = (view s k).map List.length ∧
    view (ds.length s k).2 = view s ∧ I (ds.length s k).2
  «exists» : ∀ s p n, I s → (ds.exists s p n).1 = (view s (bulkOfPointer p n)).isSome ∧
    view (ds.exists s p n).2 = view s ∧ I (ds.exists s p n).2

/-- The contents of all databases. -/
def contentsOf {σ : Type*} (view : σ → Bulk → Option Bulk) (dbs : Databases σ) :
    Databases (Bulk → Option Bulk) :=
  fun dbId => (dbs dbId).map view

section Simulation

variable {σ : Type*} {ds : DatastoreReads σ} {I : σ → Prop} {view : σ → Bulk → Option Bulk}
  {eraseAnswer : Bool → Bool} {dbs : Databases σ}

/-- A handler simulates another one: same answer, the contents are changed in the same
way, and the states keep `I`. -/
def Simulates {α : Type*} (I : σ → Prop) (view : σ → Bulk → Option Bulk)
    (r : α × Databases σ) (r' : α × Databases (Bulk → Option Bulk)) : Prop :=
  r.1 = r'.1 ∧ contentsOf view r.2 = r'.2 ∧ ∀ dbId s, r.2 dbId = some s → I s

/-- What the body of a handler does on one database, the handler does on all of them. -/
theorem answerFrom_simulates {α : Type*} (hI : ∀ dbId s, dbs dbId = some s → I s)
    (dbId : UInt64) (unknown : α) {f : σ → α × σ}
    {g : (Bulk → Option Bulk) → α × (Bulk → Option Bulk)}
    (h : ∀ s, I s → (f s).1 = (g (view s)).1 ∧ view (f s).2 = (g (view s)).2 ∧ I (f s).2) :
    Simulates I view (answerFrom dbs dbId unknown f)
      (answerFrom (contentsOf view dbs) dbId unknown g) := by
  cases hdb : dbs dbId with
  | none =>
      have hview : contentsOf view dbs dbId = none := by rw [contentsOf, hdb]; rfl
      rw [answerFrom, answerFrom, hdb, hview]
      exact ⟨rfl, rfl, hI⟩
  | some s =>
      have hview : contentsOf view dbs dbId = some (view s) := by rw [contentsOf, hdb]; rfl
      obtain ⟨hanswer, hcontents, hkeep⟩ := h s (hI dbId s hdb)
      rw [answerFrom, answerFrom, hdb, hview]
      refine ⟨hanswer, ?_, ?_⟩
      · funext dbId'
        by_cases hid : dbId' = dbId
        · subst hid
          simp [contentsOf, hcontents]
        · simp [contentsOf, hid]
      · intro dbId' t ht
        by_cases hid : dbId' = dbId
        · subst hid
          simp only [Function.update_self, Option.some.injEq] at ht
          exact ht ▸ hkeep
        · simp only [Function.update_of_ne hid] at ht
          exact hI dbId' t ht

theorem simulates_map {α β : Type*} (f : α → β) {r : α × Databases σ}
    {r' : α × Databases (Bulk → Option Bulk)} (h : Simulates I view r r') :
    Simulates I view (Prod.map f id r) (Prod.map f id r') :=
  ⟨congrArg f h.1, h.2⟩

theorem serve_simulates (h : ServesMap ds I view eraseAnswer)
    (hI : ∀ dbId s, dbs dbId = some s → I s) (request : KeyRequest) :
    Simulates I view (serve ds dbs request)
      (serve (mapSpec eraseAnswer) (contentsOf view dbs) request) := by
  cases request with
  | put input =>
      cases input with
      | error hret => exact ⟨rfl, rfl, hI⟩
      | ok input =>
          refine simulates_map _ (answerFrom_simulates hI _ _ fun s hs => ?_)
          obtain ⟨hret, hrest⟩ := h.put s input.key.data input.value.data hs
          exact ⟨congrArg SdskvReturn.code hret, hrest⟩
  | bulkPut hrets input =>
      refine simulates_map _ (answerFrom_simulates hI _ _ fun s hs => ?_)
      split_ifs
      · split
        · exact ⟨rfl, rfl, hs⟩
        · obtain ⟨hret, hrest⟩ :=
            h.put s input.key.data (bulkPull input.handle input.vsize) hs
          exact ⟨congrArg SdskvReturn.code hret, hrest⟩
      · obtain ⟨hret, hrest⟩ := h.put s input.key.data [] hs
        exact ⟨congrArg SdskvReturn.code hret, hrest⟩
  | get input =>
      refine simulates_map _ (answerFrom_simulates hI _ _ fun s hs => ?_)
      obtain ⟨hget, hrest⟩ := h.get s input.key.data hs
      exact ⟨congrArg (getAnswer input.vsize) hget, hrest⟩
  | bulkGet hrets input =>
      refine simulates_map _ (answerFrom_simulates hI _ _ fun s hs => ?_)
      obtain ⟨hget, hrest⟩ := h.get s input.key.data hs
      exact ⟨congrArg (bulkGetAnswer hrets input.vsize) hget, hrest⟩
  | length dbId key =>
      refine simulates_map _ (answerFrom_simulates hI _ _ fun s hs => ?_)
      obtain ⟨hlength, hrest⟩ := h.length s key.data hs
      exact ⟨congrArg lengthAnswer hlength, hrest⟩
  | «exists» dbId key =>
      refine simulates_map _ (answerFrom_simulates hI _ _ fun s hs => ?_)
      obtain ⟨hexists, hrest⟩ := h.exists s key.data key.data.length hs
      exact ⟨congrArg (fun flag => ExistsOut.mk (some flag) _) hexists, hrest⟩
  | erase dbId key =>
      refine simulates_map _ (answerFrom_simulates hI _ _ fun s hs => ?_)
      obtain ⟨herase, hrest⟩ := h.erase s key.data hs
      exact ⟨by simp only [herase]; rfl, hrest⟩

/-- A backend answers a run as the specification does on the contents. -/
theorem answers_eq_spec (h : ServesMap ds I view eraseAnswer)
    (hI : ∀ dbId s, dbs dbId = some s → I s) (requests : List KeyRequest) :
    answers ds dbs requests = answers (mapSpec eraseAnswer) (contentsOf view dbs) requests := by
  induction requests generalizing dbs with
  | nil => rfl
  | cons request requests ih =>
      obtain ⟨hanswer, hcontents, hkeep⟩ := serve_simulates h hI request
      rw [answers, answers, hanswer, ih hkeep, hcontents]

end Simulation

section Backends

/-- The map backend. -/
def MapDataStore.reads : DatastoreReads MapDataStore :=
  { MapDataStore.writes with
    get := fun s key => (s.get key, s)
    length := fun s key => (s.length key, s)
    «exists» := fun s key ksize => (s.existsRaw key ksize, s) }

/-- The LevelDB backend. -/
def LevelDBDataStore.reads {δ : Type*} (db : LevelDB δ) : DatastoreReads (LevelDBDataStore δ) :=
  { LevelDBDataStore.writes db with
    get := LevelDBDataStore.get db
    length := lengthOfGet (LevelDBDataStore.get db)
    «exists» := LevelDBDataStore.exists db }

/-- The BerkeleyDB backend. -/
def BerkeleyDBDataStore.reads {δ : Type*} (db : BerkeleyDbReads δ) :
    DatastoreReads (BerkeleyDBDataStore δ) :=
  { BerkeleyDBDataStore.writes db.toBerkeleyDb with
    get := BerkeleyDBDataStore.get db
    length := lengthOfGet (BerkeleyDBDataStore.get db)
    «exists» := BerkeleyDBDataStore.exists db }

/-- A map database with the default order and overwriting allowed. -/
def MapDataStore.Default (s : MapDataStore) : Prop :=
  s.less = none ∧ s.noOverwrite = false

/-- For a total order, a change at the keys equivalent to `k` is a change at `k`. -/
theorem eq_update_of_total (lt : Bulk → Bulk → Prop) [DecidableRel lt]
    [IsStrictTotalOrder Bulk lt] {f g : Bulk → Option Bulk} {k : Bulk} {value : Option Bulk}
    (h : ∀ k', g k' = if IncompRel lt k k' then value else f k') :
    g = Function.update f k value := by
  funext k'
  rw [h, Function.update_apply]
  simp only [OrderedMap.incompRel_iff_eq, eq_comm]

theorem MapDataStore.servesReads : ServesReads MapDataStore.reads MapDataStore.get where
  get _ _ := ⟨rfl, rfl⟩
  length s k := ⟨s.length_eq k, rfl⟩
  «exists» s _ _ := ⟨s.exists_eq _, rfl⟩

theorem MapDataStore.servesMap :
    ServesMap MapDataStore.reads MapDataStore.Default MapDataStore.get id where
  put s k v hs := by
    obtain ⟨name, path, compFunName, less, noOverwrite, map⟩ := s
    obtain ⟨rfl, rfl⟩ := hs
    refine ⟨rfl, ?_, rfl, rfl⟩
    exact eq_update_of_total (keycmp none) fun k' =>
      OrderedMap.lookup_assign (keycmp none) map k v k'
  erase s k hs := by
    obtain ⟨name, path, compFunName, less, noOverwrite, map⟩ := s
    obtain ⟨rfl, rfl⟩ := hs
    refine ⟨MapDataStore.erase_fst _ k, ?_, rfl, rfl⟩
    exact eq_update_of_total (keycmp none) fun k' =>
      OrderedMap.lookup_erase (keycmp none) map k k'
  get s k hs := ⟨rfl, rfl, hs⟩
  length s k hs := ⟨(servesReads.length s k).1, rfl, hs⟩
  «exists» s p n hs := ⟨(servesReads.exists s p n).1, rfl, hs⟩

section LevelDB

variable {δ : Type*} {db : LevelDB δ} (S : db.Spec stringLess) (hdb : db.NoErrors)
include hdb

theorem LevelDB.get_fst (d : δ) (k : Bulk) :
    (if (db.get d k).1 = .ok then some (db.get d k).2.1 else none) = S.view d k := by
  cases hstatus : (db.get d k).1 with
  | ok => rw [if_pos rfl, S.get_ok d k hstatus]
  | notFound => rw [if_neg (by decide), S.get_notFound d k hstatus]
  | error => exact absurd hstatus (hdb.get d k)

theorem LevelDBDataStore.servesReads :
    ServesReads (LevelDBDataStore.reads db) fun s => S.view s.dbm where
  get s k := ⟨LevelDB.get_fst S hdb s.dbm k, S.get_view _ _⟩
  length s k :=
    ⟨congrArg (Option.map List.length) (LevelDB.get_fst S hdb s.dbm k), S.get_view _ _⟩
  «exists» s p n := by
    refine ⟨?_, S.get_view _ _⟩
    rw [← LevelDB.get_fst S hdb]
    by_cases hok : (db.get s.dbm (bulkOfPointer p n)).1 = .ok <;>
      simp [reads, LevelDBDataStore.exists, hok]

theorem LevelDBDataStore.servesMap :
    ServesMap (LevelDBDataStore.reads db) (fun s => s.noOverwrite = false)
      (fun s => S.view s.dbm) fun _ => true where
  put s k v hs := by
    have hput : (LevelDBDataStore.reads db).put s k v =
        (.success, { s with dbm := (db.put s.dbm k v).2 }) := by
      simp [reads, writes, put, putUnchecked, hs, bulkOfPointer, hdb.put]
    rw [hput]
    exact ⟨rfl, eq_update_of_total stringLess (S.put_ok _ _ _ (hdb.put _ _ _)), hs⟩
  erase s k hs :=
    ⟨decide_eq_true (hdb.delete _ _),
      eq_update_of_total stringLess (S.delete_ok _ _ (hdb.delete _ _)), hs⟩
  get s k hs := ⟨((servesReads S hdb).get s k).1, S.get_view _ _, hs⟩
  length s k hs := ⟨((servesReads S hdb).length s k).1, S.get_view _ _, hs⟩
  «exists» s p n hs := ⟨((servesReads S hdb).exists s p n).1, S.get_view _ _, hs⟩

end LevelDB

section BerkeleyDB

variable {δ : Type*} {db : BerkeleyDbReads δ} {S : db.Spec stringLess}
  (hdb : BerkeleyDbReads.NoErrors S)
include hdb

theorem BerkeleyDBDataStore.get_fst (s : BerkeleyDBDataStore δ) (k : Bulk) :
    (s.get db k).1 = S.view s.dbm k := by
  have hstatus := hdb.get s.dbm k
  cases hview : S.view s.dbm k with
  | none =>
      rw [hview] at hstatus
      simp [get, hstatus, readStatus]
  | some v =>
      rw [hview] at hstatus
      have hzero := S.get_zero _ _ hstatus
      rw [hview] at hzero
      simp [get, hstatus, readStatus, hzero]

theorem BerkeleyDBDataStore.servesReads :
    ServesReads (BerkeleyDBDataStore.reads db) fun s => S.view s.dbm where
  get s k := ⟨BerkeleyDBDataStore.get_fst hdb s k, S.get_view _ _⟩
  length s k :=
    ⟨congrArg (Option.map List.length) (BerkeleyDBDataStore.get_fst hdb s k), S.get_view _ _⟩
  «exists» s p n := by
    refine ⟨?_, S.exists_view _ _⟩
    have hstatus := hdb.exists s.dbm (bulkOfPointer p n)
    cases hview : S.view s.dbm (bulkOfPointer p n) <;>
      simp [reads, BerkeleyDBDataStore.exists, hstatus, hview, readStatus]

theorem BerkeleyDBDataStore.servesMap :
    ServesMap (BerkeleyDBDataStore.reads db) (fun s => s.noOverwrite = false)
      (fun s => S.view s.dbm) id where
  put s k v hs := by
    have hput : (BerkeleyDBDataStore.reads db).put s k v =
        (.success, { s with dbm := (db.put s.dbm k v false).2 }) := by
      simp [reads, writes, put, hs, bulkOfPointer, hdb.put_zero]
    rw [hput]
    refine ⟨rfl, eq_update_of_total stringLess fun k' => ?_, hs⟩
    rw [S.put_zero _ _ _ _ (hdb.put_zero _ _ _)]
    rfl
  erase s k hs := by
    have herased : (s.erase db.toBerkeleyDb k).1 = (S.view s.dbm k).isSome := by
      rw [Bool.eq_iff_iff, ← Option.ne_none_iff_isSome, ← hdb.del_zero_iff]
      exact decide_eq_true_iff
    refine ⟨herased, eq_update_of_total stringLess fun k' => ?_, hs⟩
    by_cases hview : S.view s.dbm k = none
    · -- nothing is deleted, and nothing is there under an equivalent key
      have hsame := S.del_not_zero s.dbm k fun h => (hdb.del_zero_iff _ _).1 h hview
      change S.view (db.del s.dbm k).2 k' = _
      rw [hsame]
      split_ifs with hinc
      · rw [← S.view_congr s.dbm k k' hinc, hview]
      · rfl
    · exact S.del_zero _ _ ((hdb.del_zero_iff _ _).2 hview) k'
  get s k hs := ⟨((servesReads hdb).get s k).1, S.get_view _ _, hs⟩
  length s k hs := ⟨((servesReads hdb).length s k).1, S.get_view _ _, hs⟩
  «exists» s p n hs := ⟨((servesReads hdb).exists s p n).1, S.exists_view _ _, hs⟩

end BerkeleyDB

/-- The key of the request, and the value of a put, have sizes that a `Dbt` can hold. -/
def KeyRequest.FitsDbt : KeyRequest → Prop
  | .put (.error _) => True
  | .put (.ok input) => input.key.data.length < 2 ^ 32 ∧ input.value.data.length < 2 ^ 32
  | .bulkPut _ input => input.key.data.length < 2 ^ 32 ∧ input.vsize < 2 ^ 32
  | .get input | .bulkGet _ input => input.key.data.length < 2 ^ 32
  | .length _ key | .exists _ key | .erase _ key => key.data.length < 2 ^ 32

section Dbts

variable {δ : Type*} (db : BerkeleyDbReads δ) (dbs : Databases (BerkeleyDBDataStore δ))

theorem BerkeleyDBDataStore.put_onDbts (s : BerkeleyDBDataStore δ) (k v : Bulk) :
    (BerkeleyDBDataStore.reads db.onDbts).put s k v =
      (BerkeleyDBDataStore.reads db).put s (dbt k) (dbt v) := by
  simp only [reads, writes, put, bulkOfPointer, List.take_length, BerkeleyDbReads.onDbts,
    BerkeleyDb.onDbts]

theorem BerkeleyDBDataStore.get_onDbts (s : BerkeleyDBDataStore δ) {k : Bulk}
    (hk : k.length < 2 ^ 32) : s.get db.onDbts k = s.get db k := by
  simp only [get, BerkeleyDbReads.onDbts, dbt_of_lt hk]

/-- The 32 bits of a `Dbt` do not show in a request that fits. -/
theorem serve_onDbts {request : KeyRequest} (h : request.FitsDbt) :
    serve (BerkeleyDBDataStore.reads db.onDbts) dbs request =
      serve (BerkeleyDBDataStore.reads db) dbs request := by
  cases request with
  | put input =>
      cases input with
      | error hret => rfl
      | ok input =>
          simp only [serve, sdskvPutUlt, BerkeleyDBDataStore.put_onDbts, dbt_of_lt h.1,
            dbt_of_lt h.2]
  | bulkPut hrets input =>
      have hpull : (bulkPull input.handle input.vsize).length < 2 ^ 32 :=
        lt_of_le_of_lt (List.length_take_le _ _) h.2
      have hempty : ([] : Bulk).length < 2 ^ 32 := by decide
      simp only [serve, sdskvBulkPutUlt, BerkeleyDBDataStore.put_onDbts, dbt_of_lt h.1,
        dbt_of_lt hpull, dbt_of_lt hempty]
  | get input =>
      simp only [serve, sdskvGetUlt, BerkeleyDBDataStore.reads,
        BerkeleyDBDataStore.get_onDbts db _ h]
  | bulkGet hrets input =>
      simp only [serve, sdskvBulkGetUlt, BerkeleyDBDataStore.reads,
        BerkeleyDBDataStore.get_onDbts db _ h]
  | length dbId key =>
      simp only [serve, sdskvLengthUlt, BerkeleyDBDataStore.reads, lengthOfGet,
        BerkeleyDBDataStore.get_onDbts db _ h]
  | «exists» dbId key =>
      simp only [serve, sdskvExistsUlt, BerkeleyDBDataStore.reads, BerkeleyDBDataStore.exists,
        BerkeleyDbReads.onDbts, bulkOfPointer, List.take_length, dbt_of_lt h]
  | erase dbId key =>
      simp only [serve, sdskvEraseUlt, BerkeleyDBDataStore.reads, BerkeleyDBDataStore.writes,
        BerkeleyDBDataStore.erase, BerkeleyDbReads.onDbts, BerkeleyDb.onDbts, dbt_of_lt h]

theorem answers_onDbts {requests : List KeyRequest}
    (h : ∀ request ∈ requests, request.FitsDbt) :
    answers (BerkeleyDBDataStore.reads db.onDbts) dbs requests =
      answers (BerkeleyDBDataStore.reads db) dbs requests := by
  induction requests generalizing dbs with
  | nil => rfl
  | cons request requests ih =>
      rw [answers, answers, serve_onDbts db dbs (h _ List.mem_cons_self),
        ih _ fun request' h' => h request' (List.mem_cons_of_mem _ h')]

end Dbts

/-- The request does not erase a key that is not there. -/
def ErasesPresent (contents : Databases (Bulk → Option Bulk)) : KeyRequest → Prop
  | .erase dbId key => ∀ f, contents dbId = some f → (f key.data).isSome
  | _ => True

/-- The contents after a request. -/
def contentsStep (contents : Databases (Bulk → Option Bulk)) (request : KeyRequest) :
    Option (Databases (Bulk → Option Bulk)) :=
  some (serve (mapSpec id) contents request).2

/-- The answers of `erase` do not matter for the contents. -/
theorem serve_mapSpec_snd (eraseAnswer : Bool → Bool)
    (contents : Databases (Bulk → Option Bulk)) (request : KeyRequest) :
    (serve (mapSpec eraseAnswer) contents request).2 =
      (serve (mapSpec id) contents request).2 := by
  cases request with
  | erase dbId key =>
      simp only [serve, Prod.map_snd, id_eq, sdskvEraseUlt, withDatabase]
      split <;> rfl
  | _ => rfl

theorem serve_mapSpec_fst_iff (contents : Databases (Bulk → Option Bulk)) (request : KeyRequest) :
    (serve (mapSpec id) contents request).1 =
        (serve (mapSpec fun _ => true) contents request).1 ↔
      ErasesPresent contents request := by
  cases request with
  | erase dbId key =>
      cases hdb : contents dbId with
      | none => simp [serve, sdskvEraseUlt, withDatabase, ErasesPresent, hdb]
      | some f =>
          have hne : SdskvReturn.errErase.code ≠ SdskvReturn.success.code := by decide
          cases hkey : (f key.data).isSome <;>
            simp [serve, sdskvEraseUlt, withDatabase, ErasesPresent, hdb, mapSpec, hkey, hne]
  | _ => exact iff_of_true rfl trivial

/-- Two ways to answer an erase of an absent key are told apart by a run exactly when it
makes one. -/
theorem answers_mapSpec_iff (contents : Databases (Bulk → Option Bulk))
    (requests : List KeyRequest) :
    answers (mapSpec id) contents requests =
        answers (mapSpec fun _ => true) contents requests ↔
      holdsAlong contentsStep ErasesPresent contents requests := by
  induction requests generalizing contents with
  | nil => exact iff_of_true rfl trivial
  | cons request requests ih =>
      rw [answers, answers, List.cons.injEq, serve_mapSpec_fst_iff,
        serve_mapSpec_snd fun _ => true, ih, holdsAlong_cons]
      refine and_congr_right fun _ => ?_
      constructor
      · rintro h contents' ⟨⟩
        exact h
      · exact fun h => h _ rfl

/-- From databases with the same contents, the three backends give the same answers to a
run of requests that fit into `Dbt`s exactly when no request of the run erases a key that is
not there. -/
theorem backends_agree_iff {δ ε : Type*} {ldb : LevelDB δ} (SL : ldb.Spec stringLess)
    (hldb : ldb.NoErrors) {bdb : BerkeleyDbReads ε} (SB : bdb.Spec stringLess)
    (hbdb : BerkeleyDbReads.NoErrors SB) (dbsM : Databases MapDataStore)
    (dbsL : Databases (LevelDBDataStore δ)) (dbsB : Databases (BerkeleyDBDataStore ε))
    (hM : ∀ dbId s, dbsM dbId = some s → s.Default)
    (hL : ∀ dbId s, dbsL dbId = some s → s.noOverwrite = false)
    (hB : ∀ dbId s, dbsB dbId = some s → s.noOverwrite = false)
    (contents : Databases (Bulk → Option Bulk))
    (hcM : contentsOf MapDataStore.get dbsM = contents)
    (hcL : contentsOf (fun s => SL.view s.dbm) dbsL = contents)
    (hcB : contentsOf (fun s => SB.view s.dbm) dbsB = contents) (requests : List KeyRequest)
    (hfits : ∀ request ∈ requests, request.FitsDbt) :
    (answers MapDataStore.reads dbsM requests =
        answers (LevelDBDataStore.reads ldb) dbsL requests ∧
      answers MapDataStore.reads dbsM requests =
        answers (BerkeleyDBDataStore.reads bdb.onDbts) dbsB requests) ↔
      holdsAlong contentsStep ErasesPresent contents requests := by
  rw [answers_onDbts bdb dbsB hfits, answers_eq_spec MapDataStore.servesMap hM,
    answers_eq_spec (LevelDBDataStore.servesMap SL hldb) hL,
    answers_eq_spec (BerkeleyDBDataStore.servesMap hbdb) hB, hcM, hcL, hcB]
  simp only [answers_mapSpec_iff, and_true]

/-- A put of a value that does not fit into a `Dbt`, and a request for its length: the
BerkeleyDB backend answers the size modulo `2 ^ 32`. -/
theorem answers_ne_of_longValue {ε : Type*} {bdb : BerkeleyDbReads ε}
    {SB : bdb.Spec stringLess} (hbdb : BerkeleyDbReads.NoErrors SB)
    {dbsM : Databases MapDataStore} {dbsB : Databases (BerkeleyDBDataStore ε)} {dbId : UInt64}
    {m : MapDataStore} {b : BerkeleyDBDataStore ε} (hm : dbsM dbId = some m) (hM : m.Default)
    (hb : dbsB dbId = some b) (hB : b.noOverwrite = false) (key value : KvData)
    (hlong : 2 ^ 32 ≤ value.data.length) :
    answers MapDataStore.reads dbsM
        [.put (.ok { dbId := dbId, key := key, value := value }), .length dbId key] ≠
      answers (BerkeleyDBDataStore.reads bdb.onDbts) dbsB
        [.put (.ok { dbId := dbId, key := key, value := value }), .length dbId key] := by
  have hmap : (MapDataStore.reads.length (MapDataStore.reads.put m key.data value.data).2
      key.data).1 = some value.data.length := by
    obtain ⟨-, hview, hkeep⟩ := MapDataStore.servesMap.put m key.data value.data hM
    rw [(MapDataStore.servesMap.length _ key.data hkeep).1, hview, Function.update_self]
    rfl
  have hber : ((BerkeleyDBDataStore.reads bdb.onDbts).length
      ((BerkeleyDBDataStore.reads bdb.onDbts).put b key.data value.data).2 key.data).1 =
        some (value.data.length % 2 ^ 32) := by
    have hserves := BerkeleyDBDataStore.servesMap hbdb
    obtain ⟨-, hview, hkeep⟩ := hserves.put b (dbt key.data) (dbt value.data) hB
    rw [BerkeleyDBDataStore.put_onDbts]
    refine (hserves.length _ (dbt key.data) hkeep).1.trans ?_
    rw [hview, Function.update_self, Option.map_some, length_dbt]
  intro h
  simp only [answers, serve, sdskvPutUlt, withDatabase, hm, hb, sdskvLengthUlt, answerFrom,
    Prod.map_fst, Prod.map_snd, id_eq, Function.update_self, hmap, hber, lengthAnswer,
    List.cons.injEq, KeyAnswer.length.injEq, LengthOut.mk.injEq, Option.some.injEq] at h
  omega

/-- One database of each backend under id 5, all of them empty. -/
def oneDatabase {σ : Type*} (s : σ) : Databases σ :=
  fun dbId => if dbId = 5 then some s else none

theorem contentsOf_oneDatabase {σ : Type*} (view : σ → Bulk → Option Bulk) (s : σ) :
    contentsOf view (oneDatabase s) = oneDatabase (view s) := by
  funext dbId
  by_cases h : dbId = 5 <;> simp [contentsOf, oneDatabase, h]

theorem oneDatabase_eq_some {σ : Type*} {s t : σ} {dbId : UInt64}
    (h : oneDatabase s dbId = some t) : t = s := by
  unfold oneDatabase at h
  split_ifs at h
  exact (Option.some.inj h).symm

/-- An empty database of each backend. -/
def emptyLevel : LevelDBDataStore (List (Bulk × Bulk)) := { noOverwrite := false, dbm := [] }

def emptyBerkeley : BerkeleyDBDataStore (List (Bulk × Bulk)) :=
  { noOverwrite := false, dbm := [] }

/-- A map database that binds the key 1. -/
def bindsByteKey : MapDataStore := (MapDataStore.new.put [1] [2]).2

/-- A key of one byte. -/
def byteKey : KvData := KvData.single 1

/-- A put, an overwriting put, a get, and the erase of the key. -/
def overwriteRun : List KeyRequest :=
  [.put (.ok { dbId := 5, key := byteKey, value := byteKey }),
    .put (.ok { dbId := 5, key := byteKey, value := KvData.empty }),
    .get { dbId := 5, key := byteKey, vsize := 3 }, .erase 5 byteKey]

theorem overwriteRun_fitsDbt : ∀ request ∈ overwriteRun, request.FitsDbt := by
  have hkey : byteKey.data.length < 2 ^ 32 := by decide
  have hempty : KvData.empty.data.length < 2 ^ 32 := by decide
  simpa [overwriteRun, KeyRequest.FitsDbt] using ⟨hkey, ⟨hkey, hempty⟩, hkey⟩

theorem backends_agree_overwrite :
    answers MapDataStore.reads (oneDatabase MapDataStore.new) overwriteRun =
        answers (LevelDBDataStore.reads (orderedLevelDB stringLess)) (oneDatabase emptyLevel)
          overwriteRun ∧
      answers MapDataStore.reads (oneDatabase MapDataStore.new) overwriteRun =
        answers (BerkeleyDBDataStore.reads (orderedBerkeleyDbReads stringLess).onDbts)
          (oneDatabase emptyBerkeley) overwriteRun := by
  refine (backends_agree_iff (orderedLevelDB_spec stringLess)
    (orderedLevelDB_noErrors stringLess) (orderedBerkeleyDbReads_spec stringLess)
    (orderedBerkeleyDbReads_noErrors stringLess) (oneDatabase MapDataStore.new)
    (oneDatabase emptyLevel) (oneDatabase emptyBerkeley)
    (fun _ _ h => oneDatabase_eq_some h ▸ ⟨rfl, rfl⟩)
    (fun _ _ h => oneDatabase_eq_some h ▸ rfl) (fun _ _ h => oneDatabase_eq_some h ▸ rfl)
    (oneDatabase fun _ => none) (contentsOf_oneDatabase _ _) (contentsOf_oneDatabase _ _)
    (contentsOf_oneDatabase _ _) overwriteRun overwriteRun_fitsDbt).2 ?_
  refine ⟨trivial, ?_⟩
  rintro _ ⟨⟩
  refine ⟨trivial, ?_⟩
  rintro _ ⟨⟩
  refine ⟨trivial, ?_⟩
  rintro _ ⟨⟩
  refine ⟨?_, fun _ _ => trivial⟩
  rintro f ⟨⟩
  rfl

/-- An erase of a key that is not there: `SDSKV_ERR_ERASE` from the map backend and
`SDSKV_SUCCESS` from the LevelDB backend. -/
theorem backends_differ_absent :
    answers MapDataStore.reads (oneDatabase MapDataStore.new) [.erase 5 byteKey] ≠
      answers (LevelDBDataStore.reads (orderedLevelDB stringLess)) (oneDatabase emptyLevel)
        [.erase 5 byteKey] := by
  decide

end Backends

end Sdskv
