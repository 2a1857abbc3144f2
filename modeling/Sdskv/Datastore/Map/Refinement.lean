import Sdskv.Container.ClassMap
import Sdskv.Datastore.Map.Basic

/-!
# The map backend is a finite map on classes of keys

`ClassState lt` is what a map backend is for: a value for every class of
equivalent keys. `classExec` says what each operation answers there and how it
changes the value of one class. The backend simulates it: `exec_refines` is the
step lemma, one case per operation, and `runOps_refines` is the same statement
over a run of any length.

`lastEffectivePut` reads the same state off the history of the run. A put is
effective when it is not refused, so the value of a key is that of the last
effective put of an equivalent key since its last erase.
-/

namespace Sdskv

open OrderedMap

/-- A call of a method of `MapDataStore`, one constructor per overload. -/
inductive MapOp
  | put (key data : Bulk)
  | putMove (key data : Bulk)
  | putRaw (key : Pointer) (ksize : ℕ) (value : Pointer) (vsize : ℕ)
  | get (key : Bulk)
  | getValues (key : Bulk)
  | length (key : Bulk)
  | lengthRaw (key : Pointer) (ksize : ℕ)
  | exists (key : Bulk)
  | existsRaw (key : Pointer) (ksize : ℕ)
  | erase (key : Bulk)

/-- What a call answers. -/
inductive MapAnswer
  | code (r : SdskvReturn)
  | data (d : Option Bulk)
  | values (found : Bool) (vs : List Bulk)
  | size (n : Option ℕ)
  | flag (b : Bool)

/-- Run one call on the backend. -/
def MapOp.exec (s : MapDataStore) : MapOp → MapAnswer × MapDataStore
  | .put key data => (.code (s.put key data).1, (s.put key data).2)
  | .putMove key data => (.code (s.putMove key data).1, (s.putMove key data).2)
  | .putRaw key ksize value vsize =>
      (.code (s.putRaw key ksize value vsize).1, (s.putRaw key ksize value vsize).2)
  | .get key => (.data (s.get key), s)
  | .getValues key => (.values (s.getValues key).1 (s.getValues key).2, s)
  | .length key => (.size (s.length key), s)
  | .lengthRaw key ksize => (.size (s.lengthRaw key ksize), s)
  | .exists key => (.flag (s.exists key), s)
  | .existsRaw key ksize => (.flag (s.existsRaw key ksize), s)
  | .erase key => (.flag (s.erase key).1, (s.erase key).2)

/-- Run the calls in order and collect the answers. -/
def runOps : MapDataStore → List MapOp → List MapAnswer × MapDataStore
  | s, [] => ([], s)
  | s, op :: ops =>
      let (a, s') := op.exec s
      let (as, s'') := runOps s' ops
      (a :: as, s'')

/-- A store opened by `openDatabase` and then configured as
`sdskv_provider_attach_database` does it. -/
def openedMap (less : Option ComparatorFn) (noOverwrite : Bool)
    (dbName path compFunName : String) : MapDataStore :=
  let s := (MapDataStore.new.openDatabase dbName path).2
  let s := less.elim s (s.setComparisonFunction compFunName)
  if noOverwrite then s.setNoOverwrite else s

section Specification

variable (lt : Bulk → Bulk → Prop) [IsStrictWeakOrder Bulk lt]

/-- A value for every class of equivalent keys. -/
abbrev ClassState := KeyClass lt → Option Bulk

open Classical in
/-- A put is refused when overwriting is off and the class has a value. -/
noncomputable def classPut (noOverwrite : Bool) (c : ClassState lt) (key data : Bulk) :
    SdskvReturn × ClassState lt :=
  if noOverwrite ∧ (c (classOf lt key)).isSome then (.errKeyexists, c)
  else (.success, Function.update c (classOf lt key) (some data))

open Classical in
/-- What each call answers and does on the classes of keys. -/
noncomputable def classExec (noOverwrite : Bool) (c : ClassState lt) :
    MapOp → MapAnswer × ClassState lt
  | .put key data | .putMove key data =>
      (.code (classPut lt noOverwrite c key data).1, (classPut lt noOverwrite c key data).2)
  | .putRaw key ksize value vsize =>
      let r := classPut lt noOverwrite c (bulkOfPointer key ksize) (bulkOfPointer value vsize)
      (.code r.1, r.2)
  | .get key => (.data (c (classOf lt key)), c)
  | .getValues key =>
      (.values (c (classOf lt key)).isSome [(c (classOf lt key)).getD []], c)
  | .length key => (.size ((c (classOf lt key)).map List.length), c)
  | .lengthRaw key ksize =>
      (.size ((c (classOf lt (bulkOfPointer key ksize))).map List.length), c)
  | .exists key => (.flag (c (classOf lt key)).isSome, c)
  | .existsRaw key ksize =>
      (.flag (c (classOf lt (bulkOfPointer key ksize))).isSome, c)
  | .erase key =>
      (.flag (c (classOf lt key)).isSome, Function.update c (classOf lt key) none)

/-- The calls in order, on the classes of keys. -/
noncomputable def classRun (noOverwrite : Bool) :
    ClassState lt → List MapOp → List MapAnswer × ClassState lt
  | c, [] => ([], c)
  | c, op :: ops =>
      let r := classExec lt noOverwrite c op
      let rs := classRun noOverwrite r.2 ops
      (r.1 :: rs.1, rs.2)

omit [IsStrictWeakOrder Bulk lt] in
variable [DecidableRel lt] in
/-- How one call of the history changes the value of `k`. -/
def effectOn (noOverwrite : Bool) (k : Bulk) (bound : Option Bulk) : MapOp → Option Bulk
  | .put key data | .putMove key data =>
      if IncompRel lt key k ∧ ¬ (noOverwrite ∧ bound.isSome) then some data else bound
  | .putRaw key ksize value vsize =>
      if IncompRel lt (bulkOfPointer key ksize) k ∧ ¬ (noOverwrite ∧ bound.isSome) then
        some (bulkOfPointer value vsize)
      else bound
  | .erase key => if IncompRel lt key k then none else bound
  | _ => bound

omit [IsStrictWeakOrder Bulk lt] in
variable [DecidableRel lt] in
/-- The value of the last effective put of a key equivalent to `k` since its last
erase. -/
def lastEffectivePut (noOverwrite : Bool) (ops : List MapOp) (k : Bulk) : Option Bulk :=
  ops.foldl (effectOn lt noOverwrite k) none

end Specification

namespace MapOp

@[simp] theorem exec_less (s : MapDataStore) (op : MapOp) :
    (op.exec s).2.less = s.less := by
  cases op <;> simp [exec, MapDataStore.putMove, MapDataStore.putRaw_eq]

@[simp] theorem exec_noOverwrite (s : MapDataStore) (op : MapOp) :
    (op.exec s).2.noOverwrite = s.noOverwrite := by
  cases op <;> simp [exec, MapDataStore.putMove, MapDataStore.putRaw_eq]

end MapOp

section Simulation

variable (s : MapDataStore) [IsStrictWeakOrder Bulk (keycmp s.less)]

theorem classMap_get (key : Bulk) :
    classMap (keycmp s.less) s.map (classOf (keycmp s.less) key) = s.get key := rfl

theorem classPut_refines (key data : Bulk) :
    classPut (keycmp s.less) s.noOverwrite (classMap (keycmp s.less) s.map) key data =
      ((s.put key data).1, classMap (keycmp s.less) (s.put key data).2.map) := by
  rw [MapDataStore.put_eq, classPut, classMap_get]
  by_cases h : s.noOverwrite ∧ (s.get key).isSome
  · rw [if_pos h, if_pos h]
  · rw [if_neg h, if_neg h, ← classMap_assign]

/-- One call answers and changes the classes as specified. -/
theorem exec_refines (op : MapOp) :
    classExec (keycmp s.less) s.noOverwrite (classMap (keycmp s.less) s.map) op =
      ((op.exec s).1, classMap (keycmp s.less) (op.exec s).2.map) := by
  cases op with
  | put key data => simp only [classExec, MapOp.exec, classPut_refines]
  | putMove key data =>
      simp only [classExec, MapOp.exec, classPut_refines, MapDataStore.putMove]
  | putRaw key ksize value vsize =>
      simp only [classExec, MapOp.exec, classPut_refines, MapDataStore.putRaw_eq]
  | get key => rfl
  | getValues key =>
      cases h : s.get key with
      | none =>
          simp only [classExec, MapOp.exec, MapDataStore.getValues, classMap_get, h]
          rfl
      | some d =>
          simp only [classExec, MapOp.exec, MapDataStore.getValues, classMap_get, h]
          rfl
  | length key => rfl
  | lengthRaw key ksize => rfl
  | «exists» key =>
      simp only [classExec, MapOp.exec, MapDataStore.exists_eq]
      rfl
  | existsRaw key ksize =>
      simp only [classExec, MapOp.exec, MapDataStore.existsRaw, MapDataStore.exists_eq]
      rfl
  | erase key =>
      simp only [classExec, MapOp.exec, MapDataStore.erase_fst, classMap_get]
      rw [← classMap_erase]
      rfl

theorem exec_wellFormed (h : s.WellFormed) (op : MapOp) : (op.exec s).2.WellFormed := by
  cases op with
  | put key data => exact MapDataStore.wellFormed_put h key data
  | putMove key data => exact MapDataStore.wellFormed_put h key data
  | putRaw key ksize value vsize =>
      simp only [MapOp.exec, MapDataStore.putRaw_eq]
      exact MapDataStore.wellFormed_put h _ _
  | erase key => exact MapDataStore.wellFormed_erase h key
  | get key | getValues key | length key | lengthRaw key ksize | «exists» key
  | existsRaw key ksize => exact h

/-- One call changes the value of a key as the history says. -/
theorem get_exec (op : MapOp) (k : Bulk) :
    (op.exec s).2.get k = effectOn (keycmp s.less) s.noOverwrite k (s.get k) op := by
  have hput : ∀ key data : Bulk, (s.put key data).2.get k =
      if IncompRel (keycmp s.less) key k ∧ ¬ (s.noOverwrite ∧ (s.get k).isSome)
      then some data else s.get k := by
    intro key data
    rw [MapDataStore.get_put]
    by_cases h : IncompRel (keycmp s.less) key k
    · rw [MapDataStore.get_congr h]
    · simp only [h, false_and]
  cases op with
  | put key data => exact hput key data
  | putMove key data => exact hput key data
  | putRaw key ksize value vsize =>
      simp only [MapOp.exec, MapDataStore.putRaw_eq]
      exact hput _ _
  | erase key => exact MapDataStore.get_erase key k
  | get key | getValues key | length key | lengthRaw key ksize | «exists» key
  | existsRaw key ksize => rfl

end Simulation

section Runs

variable {less : Option ComparatorFn} [IsStrictWeakOrder Bulk (keycmp less)]

/-- A run of any length answers and changes the classes as specified. -/
theorem runOps_refines (ops : List MapOp) (s : MapDataStore) (hless : s.less = less) :
    classRun (keycmp less) s.noOverwrite (classMap (keycmp less) s.map) ops =
      ((runOps s ops).1, classMap (keycmp less) (runOps s ops).2.map) := by
  induction ops generalizing s with
  | nil => rfl
  | cons op ops ih =>
      subst hless
      have hrest := ih (op.exec s).2 (MapOp.exec_less s op)
      rw [MapOp.exec_noOverwrite] at hrest
      simp only [classRun, exec_refines, hrest, runOps]

theorem runOps_wellFormed (ops : List MapOp) (s : MapDataStore) (hless : s.less = less)
    (h : s.WellFormed) :
    Sorted (keycmp less) (runOps s ops).2.map := by
  induction ops generalizing s with
  | nil =>
      subst hless
      exact h
  | cons op ops ih =>
      subst hless
      exact ih (op.exec s).2 (MapOp.exec_less s op) (exec_wellFormed s h op)

theorem get_runOps (ops : List MapOp) (s : MapDataStore) (hless : s.less = less) (k : Bulk) :
    (runOps s ops).2.get k =
      ops.foldl (effectOn (keycmp less) s.noOverwrite k) (s.get k) := by
  induction ops generalizing s with
  | nil => rfl
  | cons op ops ih =>
      subst hless
      have hrest := ih (op.exec s).2 (MapOp.exec_less s op)
      rw [MapOp.exec_noOverwrite, get_exec s op k] at hrest
      exact hrest

omit [IsStrictWeakOrder Bulk (keycmp less)] in
theorem runOps_config (ops : List MapOp) (s : MapDataStore) :
    (runOps s ops).2.less = s.less ∧ (runOps s ops).2.noOverwrite = s.noOverwrite := by
  induction ops generalizing s with
  | nil => exact ⟨rfl, rfl⟩
  | cons op ops ih =>
      have hrest := ih (op.exec s).2
      rw [MapOp.exec_less, MapOp.exec_noOverwrite] at hrest
      exact hrest

end Runs

theorem openedMap_less (less : Option ComparatorFn) (noOverwrite : Bool)
    (dbName path compFunName : String) :
    (openedMap less noOverwrite dbName path compFunName).less = less := by
  cases less <;> cases noOverwrite <;> rfl

theorem openedMap_noOverwrite (less : Option ComparatorFn) (noOverwrite : Bool)
    (dbName path compFunName : String) :
    (openedMap less noOverwrite dbName path compFunName).noOverwrite = noOverwrite := by
  cases less <;> cases noOverwrite <;> rfl

theorem openedMap_map (less : Option ComparatorFn) (noOverwrite : Bool)
    (dbName path compFunName : String) :
    (openedMap less noOverwrite dbName path compFunName).map = [] := by
  cases less <;> cases noOverwrite <;> rfl

theorem openedMap_get (less : Option ComparatorFn) (noOverwrite : Bool)
    (dbName path compFunName : String) (k : Bulk) :
    (openedMap less noOverwrite dbName path compFunName).get k = none := by
  rw [MapDataStore.get, openedMap_map, lookup_nil]

/-- A freshly opened map backend is a finite map on the classes of its order:
every run gives the answers of `classRun` and ends in its state, the entries stay
strictly sorted, and the value of a key is read off the history. In the state
that is reached a put is refused, without any change, exactly when overwriting is
off and an equivalent key is stored. -/
theorem mapDataStore_refines_classMap (less : Option ComparatorFn)
    [IsStrictWeakOrder Bulk (keycmp less)] (noOverwrite : Bool)
    (dbName path compFunName : String) (ops : List MapOp) :
    let run := runOps (openedMap less noOverwrite dbName path compFunName) ops
    let spec := classRun (keycmp less) noOverwrite (fun _ => none) ops
    run.1 = spec.1 ∧ classMap (keycmp less) run.2.map = spec.2 ∧
      {c | spec.2 c ≠ none}.Finite ∧
      Sorted (keycmp less) run.2.map ∧
      (∀ k, run.2.get k = lastEffectivePut (keycmp less) noOverwrite ops k) ∧
      ∀ k v, ((run.2.put k v).1 = .errKeyexists ↔
          noOverwrite ∧ ∃ p ∈ run.2.map, IncompRel (keycmp less) p.1 k) ∧
        ((run.2.put k v).1 = .errKeyexists → (run.2.put k v).2 = run.2) ∧
        ((run.2.put k v).1 ≠ .errKeyexists → (run.2.put k v).1 = .success ∧
          (run.2.put k v).2.get k = some v) := by
  intro run spec
  have hless := openedMap_less less noOverwrite dbName path compFunName
  have hno := openedMap_noOverwrite less noOverwrite dbName path compFunName
  have hmap := openedMap_map less noOverwrite dbName path compFunName
  have hspec : spec = (run.1, classMap (keycmp less) run.2.map) := by
    have h := runOps_refines ops (openedMap less noOverwrite dbName path compFunName) hless
    rwa [hno, hmap, classMap_nil] at h
  have hsorted : Sorted (keycmp less) run.2.map :=
    runOps_wellFormed ops _ hless (by rw [MapDataStore.WellFormed, hmap]; exact .nil)
  have hget : ∀ k, run.2.get k = lastEffectivePut (keycmp less) noOverwrite ops k := by
    intro k
    have h := get_runOps ops (openedMap less noOverwrite dbName path compFunName) hless k
    rwa [hno, openedMap_get] at h
  obtain ⟨hrunLess, hrunNo⟩ :=
    runOps_config ops (openedMap less noOverwrite dbName path compFunName)
  have hrunLess : run.2.less = less := hrunLess.trans hless
  have hrunNo : run.2.noOverwrite = noOverwrite := hrunNo.trans hno
  refine ⟨by rw [hspec], by rw [hspec], ?_, hsorted, hget, ?_⟩
  · rw [hspec]
    exact finite_classMap (keycmp less) run.2.map
  intro k v
  refine ⟨?_, MapDataStore.put_of_errKeyexists, ?_⟩
  · rw [MapDataStore.put_errKeyexists_iff, hrunNo, hrunLess]
  · intro hne
    have : IsStrictWeakOrder Bulk (keycmp run.2.less) := by rwa [hrunLess]
    rw [MapDataStore.put_of_ne_errKeyexists hne]
    refine ⟨rfl, ?_⟩
    exact (lookup_assign (keycmp run.2.less) run.2.map k v k).trans
      (if_pos (IncompRel.refl _ k))

/-- The theorem at the default order, for a run that overwrites a key through the
raw overload, reads it and erases it twice. -/
theorem mapDataStore_refines_classMap_default :
    IsStrictWeakOrder Bulk (keycmp none) ∧
      (runOps (openedMap none false "db" "" "")
        [.put [1] [2], .putRaw [1, 9] 1 [3, 9] 1, .get [1], .erase [1], .erase [1]]).1 =
      (classRun (keycmp none) false (fun _ => none)
        [.put [1] [2], .putRaw [1, 9] 1 [3, 9] 1, .get [1], .erase [1], .erase [1]]).1 :=
  ⟨inferInstance, (mapDataStore_refines_classMap none false "db" "" "" _).1⟩

end Sdskv
