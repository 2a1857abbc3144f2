import Sdskv.Datastore.Interface
import Sdskv.Transition.Run

/-!
# The migration handlers

`migrate_keys` reads the keys of a list one by one; `migrate_keys_prefixed` and
`migrate_all_keys` take pages of 64 pairs from the source. All three forward each pair
to the target with a put request, and erase it from the source afterwards when the flag
is `SDSKV_REMOVE_ORIGINAL`. A handler holds no lock meanwhile, so its calls are the
atomic steps of a machine: `Phase` is the point it has reached.

The calls act on a world `ω` through `MigrationEnv`. For a source and a target that are
distinct databases the world is the pair of their states. How the forwarded request
fares on the network is the argument `Forward` of a step.
-/

namespace Sdskv

/-- What the calls of a migration do: the source's `get`, `list_keyvals` and `erase`, and
the put request served by the target, with its return value. -/
structure MigrationEnv (ω : Type*) where
  get : ω → Bulk → Option Bulk × ω
  listKeyvals : ω → Bulk → ℕ → Bulk → Listing
  erase : ω → Bulk → ω
  put : ω → Bulk → Bulk → Int × ω

/-- A source and a target that are distinct databases. -/
def distinctDatabases {σ τ : Type*} (source : AbstractDataStore σ)
    (target : AbstractDataStore τ) : MigrationEnv (σ × τ) where
  get w key := ((source.get w.1 key).1, (source.get w.1 key).2, w.2)
  listKeyvals w := source.listKeyvals w.1
  erase w key := ((source.erase w.1 key).2, w.2)
  put w key value :=
    ((target.put w.2 key value).1.code, w.1, (target.put w.2 key value).2)

/-- The network's part in a forwarded put: the answer arrives, `margo_provider_forward`
fails with the put applied or not, or `margo_get_output` fails. -/
inductive Forward
  | delivered
  | forwardFails (applied : Bool)
  | outputFails
  deriving DecidableEq

/-- Forward a put: whether it was acknowledged with `SDSKV_SUCCESS`, and the world after
it. -/
def forwardPut {ω : Type*} (env : MigrationEnv ω) (w : ω) (key value : Bulk) :
    Forward → Bool × ω
  | .delivered =>
      (decide ((env.put w key value).1 = SdskvReturn.success.code), (env.put w key value).2)
  | .forwardFails true => (false, (env.put w key value).2)
  | .forwardFails false => (false, w)
  | .outputFails => (false, (env.put w key value).2)

/-- The handlers with their own input; `garbage` is the content of `out.ret`, which
`migrate_keys_prefixed` does not initialise. -/
inductive MigrateHandler
  | keys (keys : List Bulk)
  | prefixed (keyPrefix : Bulk) (garbage : Int)
  | all

namespace MigrateHandler

/-- `out.ret` when the handler starts. -/
def initialRet : MigrateHandler → Int
  | keys _ => SdskvReturn.success.code
  | prefixed _ garbage => garbage
  | all => SdskvReturn.success.code

/-- The prefix that the pages are listed with. -/
def keyPrefix : MigrateHandler → Bulk
  | prefixed keyPrefix _ => keyPrefix
  | _ => []

end MigrateHandler

/-- Where a handler continues after a pair: with the keys that are left, or with the
pairs `rest` that are left of a page `batch`. -/
inductive Continuation
  | keys (todo : List Bulk)
  | page (startKey : Bulk) (batch rest : List (Bulk × Bulk))

/-- The next atomic step of a handler, or its answer. -/
inductive Phase
  | nextKey (todo : List Bulk)
  | list (startKey : Bulk)
  | forward (key value : Bulk) (k : Continuation)
  | erase (key value : Bulk) (k : Continuation)
  | done (ret : Int)

section Machine

variable (handler : MigrateHandler) (flag : Int)

/-- The number of pairs of a page. -/
def pageSize : ℕ := 64

/-- The start key of the next page: with the original kept, the last key of this one. -/
def nextStartKey (startKey : Bulk) (batch : List (Bulk × Bulk)) : Bulk :=
  if flag ≠ sdskvRemoveOriginal then (batch.getLast?.map Prod.fst).getD startKey
  else startKey

/-- The end of the loop body over a page. -/
def nextPage (startKey : Bulk) (batch : List (Bulk × Bulk)) : Phase :=
  if batch.length = pageSize then .list (nextStartKey flag startKey batch)
  else .done handler.initialRet

/-- Continue after a pair. -/
def Continuation.resume : Continuation → Phase
  | keys todo => .nextKey todo
  | page startKey batch [] => nextPage handler flag startKey batch
  | page startKey batch (p :: rest) => .forward p.1 p.2 (page startKey batch rest)

/-- The first step of a handler once its database is found and its handles are
created. -/
def MigrateHandler.start : MigrateHandler → Phase
  | keys todo => .nextKey todo
  | _ => .list []

/-- The handler up to its loop: `found` tells whether the source database is known, and
`hrets` are the answers of the Margo calls that look the target up, fetch the keys and
create the handle. -/
def MigrateHandler.begin (found : Bool) (hrets : List ℕ) : Phase :=
  if found then
    match firstFailure hrets with
    | some hret => .done (makeHgError hret)
    | none => handler.start
  else .done SdskvReturn.errUnknownDb.code

/-- One atomic step; there is none after the answer, nor while a listing does not
return. -/
def migrationStep {ω : Type*} (env : MigrationEnv ω) (s : ω × Phase) (net : Forward) :
    Option (ω × Phase) :=
  match s.2 with
  | .nextKey [] => some (s.1, .done handler.initialRet)
  | .nextKey (key :: todo) =>
      match env.get s.1 key with
      | (none, w) => some (w, .nextKey todo)
      | (some value, w) => some (w, .forward key value (.keys todo))
  | .list startKey =>
      match env.listKeyvals s.1 startKey pageSize handler.keyPrefix with
      | .pairs [] => some (s.1, .done handler.initialRet)
      | .pairs (p :: rest) =>
          some (s.1, (Continuation.page startKey (p :: rest) (p :: rest)).resume handler flag)
      | .throws err => some (s.1, .done err)
      | .diverges => none
  | .forward key value k =>
      match forwardPut env s.1 key value net with
      | (true, w) =>
          if flag = sdskvRemoveOriginal then some (w, .erase key value k)
          else some (w, k.resume handler flag)
      | (false, w) => some (w, .done SdskvReturn.errMigration.code)
  | .erase key _ k => some (env.erase s.1 key, k.resume handler flag)
  | .done _ => none

end Machine

/-- The pairs that are read from the source and not yet dealt with. -/
def Continuation.pending : Continuation → List (Bulk × Bulk)
  | keys _ => []
  | page _ _ rest => rest

def Phase.pending : Phase → List (Bulk × Bulk)
  | forward key value k => (key, value) :: k.pending
  | erase key value k => (key, value) :: k.pending
  | _ => []

/-- The pair that the target has acknowledged and that is about to be erased. -/
def Phase.erasing : Phase → Option (Bulk × Bulk)
  | erase key value _ => some (key, value)
  | _ => none

theorem resume_spec (handler : MigrateHandler) (flag : Int) (k : Continuation) :
    (k.resume handler flag).pending = k.pending ∧
      (k.resume handler flag).erasing = none := by
  cases k with
  | keys todo => exact ⟨rfl, rfl⟩
  | page startKey batch rest =>
      cases rest with
      | nil =>
          simp only [Continuation.resume, nextPage]
          split_ifs <;> exact ⟨rfl, rfl⟩
      | cons p rest => exact ⟨rfl, rfl⟩

@[simp] theorem pending_resume (handler : MigrateHandler) (flag : Int) (k : Continuation) :
    (k.resume handler flag).pending = k.pending :=
  (resume_spec handler flag k).1

@[simp] theorem erasing_resume (handler : MigrateHandler) (flag : Int) (k : Continuation) :
    (k.resume handler flag).erasing = none :=
  (resume_spec handler flag k).2

theorem begin_spec (handler : MigrateHandler) (found : Bool) (hrets : List ℕ) :
    (handler.begin found hrets).pending = [] ∧
      (handler.begin found hrets).erasing = none := by
  unfold MigrateHandler.begin
  split_ifs
  · split
    · exact ⟨rfl, rfl⟩
    · cases handler <;> exact ⟨rfl, rfl⟩
  · exact ⟨rfl, rfl⟩

@[simp] theorem pending_begin (handler : MigrateHandler) (found : Bool) (hrets : List ℕ) :
    (handler.begin found hrets).pending = [] :=
  (begin_spec handler found hrets).1

@[simp] theorem erasing_begin (handler : MigrateHandler) (found : Bool) (hrets : List ℕ) :
    (handler.begin found hrets).erasing = none :=
  (begin_spec handler found hrets).2

/-- What one step of a handler does: it answers, reads a key, lists a page, forwards a
pair or erases one. -/
theorem migrationStep_cases {ω : Type*} {env : MigrationEnv ω} {handler : MigrateHandler}
    {flag : Int} {s s' : ω × Phase} {net : Forward}
    (h : migrationStep handler flag env s net = some s') :
    (s'.1 = s.1 ∧ s.2.pending = [] ∧ s'.2.pending = [] ∧ s'.2.erasing = none) ∨
    (∃ key, s'.1 = (env.get s.1 key).2 ∧ s.2.pending = [] ∧ s'.2.erasing = none ∧
      (s'.2.pending = [] ∨
        ∃ value, s'.2.pending = [(key, value)] ∧ (env.get s.1 key).1 = some value)) ∨
    (∃ startKey batch, s'.1 = s.1 ∧ s.2.pending = [] ∧ s'.2.erasing = none ∧
      s'.2.pending = batch ∧
      env.listKeyvals s.1 startKey pageSize handler.keyPrefix = .pairs batch) ∨
    (∃ key value k, s.2 = .forward key value k ∧
      s'.1 = (forwardPut env s.1 key value net).2 ∧
      ((forwardPut env s.1 key value net).1 = true ∧ flag = sdskvRemoveOriginal ∧
          s'.2 = .erase key value k ∨
        flag ≠ sdskvRemoveOriginal ∧ s'.2 = k.resume handler flag ∨
        (forwardPut env s.1 key value net).1 = false ∧
          s'.2 = .done SdskvReturn.errMigration.code)) ∨
    (∃ key value k, s.2 = .erase key value k ∧ s'.1 = env.erase s.1 key ∧
      s'.2 = k.resume handler flag) := by
  obtain ⟨w, phase⟩ := s
  cases phase with
  | nextKey todo =>
      cases todo with
      | nil =>
          cases h
          exact Or.inl ⟨rfl, rfl, rfl, rfl⟩
      | cons key todo =>
          refine Or.inr (Or.inl ⟨key, ?_⟩)
          rcases hget : env.get w key with ⟨_ | value, w'⟩
          · simp only [migrationStep, hget] at h
            cases h
            exact ⟨rfl, rfl, rfl, Or.inl rfl⟩
          · simp only [migrationStep, hget] at h
            cases h
            exact ⟨rfl, rfl, rfl, Or.inr ⟨value, rfl, rfl⟩⟩
  | list startKey =>
      simp only [migrationStep] at h
      split at h
      · cases h
        exact Or.inl ⟨rfl, rfl, rfl, rfl⟩
      · rename_i p rest hlist
        cases h
        exact Or.inr (Or.inr (Or.inl ⟨startKey, p :: rest, rfl, rfl, by simp, by
          simp [Continuation.pending], hlist⟩))
      · cases h
        exact Or.inl ⟨rfl, rfl, rfl, rfl⟩
      · cases h
  | forward key value k =>
      refine Or.inr (Or.inr (Or.inr (Or.inl ⟨key, value, k, rfl, ?_⟩)))
      rcases hput : forwardPut env w key value net with ⟨_ | _, w'⟩
      · simp only [migrationStep, hput] at h
        cases h
        exact ⟨rfl, Or.inr (Or.inr ⟨rfl, rfl⟩)⟩
      · simp only [migrationStep, hput] at h
        split_ifs at h with hflag
        · cases h
          exact ⟨rfl, Or.inl ⟨rfl, hflag, rfl⟩⟩
        · cases h
          exact ⟨rfl, Or.inr (Or.inl ⟨hflag, rfl⟩)⟩
  | erase key value k =>
      cases h
      exact Or.inr (Or.inr (Or.inr (Or.inr ⟨key, value, k, rfl, rfl, rfl⟩)))
  | done ret => cases h

theorem SdskvReturn.code_eq_success_iff (r : SdskvReturn) :
    r.code = SdskvReturn.success.code ↔ r = .success := by
  cases r <;> decide

section DistinctDatabases

variable {σ τ : Type*} {source : AbstractDataStore σ} {target : AbstractDataStore τ}
  {lt' : Bulk → Bulk → Prop} [DecidableRel lt']

theorem forwardPut_source (w : σ × τ) (key value : Bulk) (net : Forward) :
    (forwardPut (distinctDatabases source target) w key value net).2.1 = w.1 := by
  cases net with
  | forwardFails applied => cases applied <;> rfl
  | _ => rfl

theorem forwardPut_delivered (hput : ∀ t k v, (target.put t k v).1 = .success)
    (w : σ × τ) (key value : Bulk) :
    forwardPut (distinctDatabases source target) w key value .delivered =
      (true, w.1, (target.put w.2 key value).2) := by
  simp [forwardPut, distinctDatabases, hput]

section Source

variable {lt : Bulk → Bulk → Prop} [DecidableRel lt]

/-- A step that only reads: neither database changes its contents, and the pairs that
the handler has then are bindings of the source with different keys. -/
structure ReadsSource (L : LawfulStore source lt) (s s' : (σ × τ) × Phase) : Prop where
  source_eq : L.contents s'.1.1 = L.contents s.1.1
  target_eq : s'.1.2 = s.1.2
  idle : s.2.pending = []
  erasing : s'.2.erasing = none
  pending : ∀ p ∈ s'.2.pending, L.value s.1.1 p.1 = some p.2
  distinct : s'.2.pending.Pairwise fun p q => ¬ IncompRel lt p.1 q.1

variable [IsStrictWeakOrder Bulk lt] {L : LawfulStore source lt}

/-- What a step does on distinct databases: it reads from the source, forwards a pair or
erases one. -/
theorem migrationStep_cases_distinct (hlist : L.ListsEntries) {handler : MigrateHandler}
    {flag : Int} {s s' : (σ × τ) × Phase} {net : Forward}
    (h : migrationStep handler flag (distinctDatabases source target) s net = some s') :
    ReadsSource L s s' ∨
    (∃ key value k, s.2 = .forward key value k ∧
      s'.1 = (forwardPut (distinctDatabases source target) s.1 key value net).2 ∧
      ((forwardPut (distinctDatabases source target) s.1 key value net).1 = true ∧
          flag = sdskvRemoveOriginal ∧ s'.2 = .erase key value k ∨
        flag ≠ sdskvRemoveOriginal ∧ s'.2 = k.resume handler flag ∨
        (forwardPut (distinctDatabases source target) s.1 key value net).1 = false ∧
          s'.2 = .done SdskvReturn.errMigration.code)) ∨
    (∃ key value k, s.2 = .erase key value k ∧
      s'.1 = ((source.erase s.1.1 key).2, s.1.2) ∧ s'.2 = k.resume handler flag) := by
  rcases migrationStep_cases h with ⟨hworld, hidle, hpending, herasing⟩ |
    ⟨key, hworld, hidle, herasing, hpending⟩ |
    ⟨startKey, batch, hworld, hidle, herasing, hpending, hbatch⟩ | hforward | herase
  · left
    exact ⟨by rw [hworld], by rw [hworld], hidle, herasing, by simp [hpending],
      by simp [hpending]⟩
  · left
    have hsource : L.contents s'.1.1 = L.contents s.1.1 := by
      rw [hworld]
      exact L.get_contents s.1.1 key
    refine ⟨hsource, by rw [hworld]; rfl, hidle, herasing, ?_, ?_⟩
    · rcases hpending with hnil | ⟨value, hsingle, hget⟩
      · simp [hnil]
      · intro p hp
        rw [hsingle, List.mem_singleton] at hp
        subst hp
        rw [LawfulStore.value, ← L.get_value]
        exact hget
    · rcases hpending with hnil | ⟨value, hsingle, -⟩
      · simp [hnil]
      · simp [hsingle]
  · left
    have hsub : batch.Sublist (L.contents s.1.1) := hlist _ _ _ _ _ hbatch
    refine ⟨by rw [hworld], by rw [hworld], hidle, herasing, ?_, ?_⟩
    · intro p hp
      rw [hpending] at hp
      exact L.value_of_mem (hsub.subset hp)
    · rw [hpending]
      refine List.Pairwise.imp ?_ (List.Pairwise.sublist hsub (L.sorted s.1.1))
      exact fun hlt hinc => hinc.1 hlt
  · exact Or.inr (Or.inl hforward)
  · exact Or.inr (Or.inr herase)

end Source

variable [IsStrictWeakOrder Bulk lt'] (L' : LawfulStore target lt')

/-- A put that is acknowledged with success binds the key in the target. -/
theorem value_forwardPut_of_acked {w : σ × τ} {key value : Bulk} {net : Forward}
    (h : (forwardPut (distinctDatabases source target) w key value net).1 = true)
    (k : Bulk) :
    L'.value (forwardPut (distinctDatabases source target) w key value net).2.2 k =
      if IncompRel lt' key k then some value else L'.value w.2 k := by
  cases net with
  | delivered =>
      have hsuccess : (target.put w.2 key value).1 = .success := by
        rw [← SdskvReturn.code_eq_success_iff]
        exact of_decide_eq_true h
      exact L'.value_put_success hsuccess k
  | forwardFails applied => cases applied <;> cases h
  | outputFails => cases h

/-- Whatever the network does, a key of the target keeps its value or gets the
forwarded one. -/
theorem value_forwardPut (w : σ × τ) (key value : Bulk) (net : Forward) (k : Bulk) :
    L'.value (forwardPut (distinctDatabases source target) w key value net).2.2 k =
        L'.value w.2 k ∨
      IncompRel lt' key k ∧
        L'.value (forwardPut (distinctDatabases source target) w key value net).2.2 k =
          some value := by
  have hput : L'.value (target.put w.2 key value).2 k = L'.value w.2 k ∨
      IncompRel lt' key k ∧ L'.value (target.put w.2 key value).2 k = some value := by
    by_cases hsuccess : (target.put w.2 key value).1 = .success
    · rw [L'.value_put_success hsuccess k]
      by_cases hkey : IncompRel lt' key k
      · exact Or.inr ⟨hkey, if_pos hkey⟩
      · exact Or.inl (if_neg hkey)
    · exact Or.inl (L'.value_put_failure hsuccess k)
  cases net with
  | delivered => exact hput
  | forwardFails applied =>
      cases applied with
      | true => exact hput
      | false => exact Or.inl rfl
  | outputFails => exact hput

end DistinctDatabases

end Sdskv
