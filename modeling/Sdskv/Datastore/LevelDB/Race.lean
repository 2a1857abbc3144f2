import Mathlib.Logic.Function.Basic
import Mathlib.Tactic.ByContra
import Sdskv.Datastore.LevelDB.Basic
import Sdskv.Transition.Run

/-!
# Concurrent puts on LevelDB with overwriting off

Any number of requests put the same key. A request makes two calls, the `Get` of
`exists` and the `Put`, and no lock is held between them, so the calls of
different requests interleave in any order. An action of the system is the number
of the request that makes its next call.

The check and the write are atomic together exactly when LevelDB accepts no `Put`
of a key that another request has stored since the check. Under this condition at
most one request succeeds and its value is the stored one; a run that breaks it
has two successful requests.
-/

namespace Sdskv

open Transition

/-- Where a put request stands. -/
inductive PutPhase
  | start
  | checked
  | done (ret : SdskvReturn)
  deriving DecidableEq

/-- The database and the phases of all requests. -/
structure PutRace (δ : Type*) where
  dbm : δ
  phase : ℕ → PutPhase

namespace PutRace

variable {δ : Type*} (db : LevelDB δ) (key : Bulk) (value : ℕ → Bulk)

/-- Request `i` makes its next call. -/
def step (s : PutRace δ) (i : ℕ) : Option (PutRace δ) :=
  let store : LevelDBDataStore δ := { noOverwrite := true, dbm := s.dbm }
  match s.phase i with
  | .start =>
      let (present, store') := store.exists db key key.length
      some { dbm := store'.dbm
             phase := Function.update s.phase i
               (if present then .done .errKeyexists else .checked) }
  | .checked =>
      let (ret, store') := store.putUnchecked db key key.length (value i) (value i).length
      some { dbm := store'.dbm, phase := Function.update s.phase i (.done ret) }
  | .done _ => none

/-- No request has started. -/
def init (d : δ) : PutRace δ := { dbm := d, phase := fun _ => .start }

@[simp] theorem bulkOfPointer_length (b : Bulk) : bulkOfPointer b b.length = b :=
  List.take_length

theorem step_start {s : PutRace δ} {i : ℕ} (h : s.phase i = .start) :
    step db key value s i =
      some { dbm := (db.get s.dbm key).2.2
             phase := Function.update s.phase i
               (if (db.get s.dbm key).1 = .ok then .done .errKeyexists else .checked) } := by
  simp [step, h, LevelDBDataStore.exists]

theorem step_checked {s : PutRace δ} {i : ℕ} (h : s.phase i = .checked) :
    step db key value s i =
      some { dbm := (db.put s.dbm key (value i)).2
             phase := Function.update s.phase i
               (.done (if (db.put s.dbm key (value i)).1 = .ok then .success else .errPut)) } := by
  simp [step, h, LevelDBDataStore.putUnchecked]

theorem step_done {s : PutRace δ} {i : ℕ} {ret : SdskvReturn} (h : s.phase i = .done ret) :
    step db key value s i = none := by
  simp [step, h]

/-- The two calls that a step can be. -/
theorem step_cases {s s' : PutRace δ} {i : ℕ} (h : step db key value s i = some s') :
    (s.phase i = .start ∧ s'.dbm = (db.get s.dbm key).2.2 ∧
      ∃ p, p ≠ .done .success ∧ s'.phase = Function.update s.phase i p) ∨
    (s.phase i = .checked ∧ s'.dbm = (db.put s.dbm key (value i)).2 ∧
      s'.phase = Function.update s.phase i
        (.done (if (db.put s.dbm key (value i)).1 = .ok then .success else .errPut))) := by
  cases hphase : s.phase i with
  | start =>
      rw [step_start db key value hphase, Option.some.injEq] at h
      refine Or.inl ⟨rfl, by rw [← h], _, ?_, by rw [← h]⟩
      split_ifs <;> simp
  | checked =>
      rw [step_checked db key value hphase, Option.some.injEq] at h
      exact Or.inr ⟨rfl, by rw [← h], by rw [← h]⟩
  | done ret =>
      rw [step_done db key value hphase] at h
      cases h

/-- The two calls of one request, with nothing in between, are the `put` of the
backend. -/
theorem run_alone (s : PutRace δ) (i : ℕ) (h : s.phase i = .start) :
    let r := LevelDBDataStore.put db { noOverwrite := true, dbm := s.dbm } key key.length
      (value i) (value i).length
    run? (step db key value) s
        (if (db.get s.dbm key).1 = .ok then [i] else [i, i]) =
      some { dbm := r.2.dbm, phase := Function.update s.phase i (.done r.1) } := by
  intro r
  by_cases hok : (db.get s.dbm key).1 = .ok
  · have hr : r = (.errKeyexists, { noOverwrite := true, dbm := (db.get s.dbm key).2.2 }) := by
      simp [r, LevelDBDataStore.put, LevelDBDataStore.exists, hok]
    simp [hok, run?_cons, step_start db key value h, hr]
  · have hr : r = LevelDBDataStore.putUnchecked db
        { noOverwrite := true, dbm := (db.get s.dbm key).2.2 } key key.length
        (value i) (value i).length := by
      simp [r, LevelDBDataStore.put, LevelDBDataStore.exists, hok]
    rw [if_neg hok, run?_cons, step_start db key value h, if_neg hok, Option.bind_some,
      run?_cons, step_checked db key value (Function.update_self i _ _), Option.bind_some,
      run?_nil, hr]
    simp [LevelDBDataStore.putUnchecked]

/-- A request that goes to another phase than success does not add a success. -/
theorem success_of_update {phase : ℕ → PutPhase} {i j : ℕ} {p : PutPhase}
    (hp : p ≠ .done .success) (h : Function.update phase i p j = .done .success) :
    phase j = .done .success := by
  by_cases hji : j = i
  · subst hji
    rw [Function.update_self] at h
    exact absurd h hp
  · rwa [Function.update_of_ne hji] at h

theorem success_of_step {s s' : PutRace δ} {i j : ℕ} (h : s.phase j = .done .success)
    (hstep : step db key value s i = some s') : s'.phase j = .done .success := by
  have hij : j ≠ i := by
    rintro rfl
    rw [step_done db key value h] at hstep
    cases hstep
  rcases step_cases db key value hstep with ⟨-, -, p, -, hphase⟩ | ⟨-, -, hphase⟩
  · rw [hphase, Function.update_of_ne hij, h]
  · rw [hphase, Function.update_of_ne hij, h]

/-- A request that has succeeded stays so. -/
theorem success_of_run {s s' : PutRace δ} {as : List ℕ} {j : ℕ}
    (h : s.phase j = .done .success) (hrun : run? (step db key value) s as = some s') :
    s'.phase j = .done .success :=
  invariant_of_step (I := fun s => s.phase j = .done .success)
    (fun _ _ _ hj hstep => success_of_step db key value hj hstep) h hrun

section Specification

variable {db} {lt : Bulk → Bulk → Prop} [DecidableRel lt] (spec : db.Spec lt)

/-- At most one request has succeeded, and its value is the stored one. -/
def AtMostOne (s : PutRace δ) : Prop :=
  (∀ i j, s.phase i = .done .success → s.phase j = .done .success → i = j) ∧
    ∀ i, s.phase i = .done .success → spec.view s.dbm key = some (value i)

/-- When LevelDB accepts the `Put` of a request, no other request has stored the
key since its `Get`. -/
def StillAbsent (s : PutRace δ) (i : ℕ) : Prop :=
  s.phase i = .checked → (db.put s.dbm key (value i)).1 = .ok →
    spec.view s.dbm key = none

instance (s : PutRace δ) (i : ℕ) : Decidable (StillAbsent key value spec s i) :=
  inferInstanceAs (Decidable (_ → _ → _ = none))

/-- Only a request that has succeeded can have bound the key. -/
def BoundBySuccess (s : PutRace δ) : Prop :=
  spec.view s.dbm key ≠ none → ∃ i, s.phase i = .done .success

variable [IsStrictWeakOrder Bulk lt]

theorem view_put_ok {s : PutRace δ} {i : ℕ} (h : (db.put s.dbm key (value i)).1 = .ok) :
    spec.view (db.put s.dbm key (value i)).2 key = some (value i) := by
  rw [spec.put_ok _ _ _ h, if_pos (IncompRel.refl lt key)]

omit [IsStrictWeakOrder Bulk lt] in
theorem atMostOne_init (d : δ) : AtMostOne key value spec (init d) := by
  constructor
  · intro i j hi
    cases hi
  · intro i hi
    cases hi

omit [IsStrictWeakOrder Bulk lt] in
/-- A call that changes no binding and ends no request with success. -/
theorem atMostOne_of_view_eq {s s' : PutRace δ} {i : ℕ} {p : PutPhase}
    (h : AtMostOne key value spec s) (hview : spec.view s'.dbm = spec.view s.dbm)
    (hp : p ≠ .done .success) (hphase : s'.phase = Function.update s.phase i p) :
    AtMostOne key value spec s' := by
  have hold : ∀ j, s'.phase j = .done .success → s.phase j = .done .success := by
    intro j hj
    rw [hphase] at hj
    exact success_of_update hp hj
  constructor
  · intro j k hj hk
    exact h.1 j k (hold j hj) (hold k hk)
  · intro j hj
    rw [hview]
    exact h.2 j (hold j hj)

theorem atMostOne_step {s s' : PutRace δ} {i : ℕ} (h : AtMostOne key value spec s)
    (habsent : StillAbsent key value spec s i)
    (hstep : step db key value s i = some s') : AtMostOne key value spec s' := by
  rcases step_cases db key value hstep with ⟨-, hdbm, p, hp, hphase⟩ | ⟨hi, hdbm, hphase⟩
  · have hview : spec.view s'.dbm = spec.view s.dbm := by rw [hdbm, spec.get_view]
    exact atMostOne_of_view_eq key value spec h hview hp hphase
  · by_cases hok : (db.put s.dbm key (value i)).1 = .ok
    · -- the key was still absent, so no other request has succeeded
      have hnone : ∀ j, s.phase j ≠ .done .success := by
        intro j hj
        have hbound := h.2 j hj
        rw [habsent hi hok] at hbound
        cases hbound
      have honly : ∀ j, s'.phase j = .done .success → j = i := by
        intro j hj
        by_contra hji
        rw [hphase, Function.update_of_ne hji] at hj
        exact hnone j hj
      refine ⟨fun j k hj hk => (honly j hj).trans (honly k hk).symm, fun j hj => ?_⟩
      rw [honly j hj, hdbm]
      exact view_put_ok key value spec hok
    · rw [if_neg hok] at hphase
      have hview : spec.view s'.dbm = spec.view s.dbm := by
        rw [hdbm, spec.put_not_ok _ _ _ hok]
      exact atMostOne_of_view_eq key value spec h hview (by simp) hphase

omit [IsStrictWeakOrder Bulk lt] in
theorem boundBySuccess_step {s s' : PutRace δ} {i : ℕ} (h : BoundBySuccess key spec s)
    (hstep : step db key value s i = some s') : BoundBySuccess key spec s' := by
  intro hbound
  rcases step_cases db key value hstep with ⟨hi, hdbm, p, -, hphase⟩ | ⟨hi, hdbm, hphase⟩
  · rw [hdbm, spec.get_view] at hbound
    obtain ⟨j, hj⟩ := h hbound
    exact ⟨j, success_of_step db key value hj hstep⟩
  · by_cases hok : (db.put s.dbm key (value i)).1 = .ok
    · exact ⟨i, by rw [hphase, Function.update_self, if_pos hok]⟩
    · rw [hdbm, spec.put_not_ok _ _ _ hok] at hbound
      obtain ⟨j, hj⟩ := h hbound
      exact ⟨j, success_of_step db key value hj hstep⟩

omit [IsStrictWeakOrder Bulk lt] in
/-- A step that breaks the condition leaves two successful requests. -/
theorem stillAbsent_of_atMostOne {s s' t : PutRace δ} {i : ℕ} {as : List ℕ}
    (h : BoundBySuccess key spec s) (hstep : step db key value s i = some s')
    (hrun : run? (step db key value) s' as = some t) (hone : AtMostOne key value spec t) :
    StillAbsent key value spec s i := by
  intro hi hok
  by_contra hbound
  obtain ⟨j, hj⟩ := h hbound
  have hi' : s'.phase i = .done .success := by
    rw [step_checked db key value hi, if_pos hok, Option.some.injEq] at hstep
    rw [← hstep]
    exact Function.update_self ..
  have hj' : s'.phase j = .done .success :=
    success_of_step db key value hj hstep
  have hij : i = j := hone.1 i j (success_of_run db key value hi' hrun)
    (success_of_run db key value hj' hrun)
  subst hij
  rw [hi] at hj
  cases hj

omit [IsStrictWeakOrder Bulk lt] in
theorem holdsAlong_of_atMostOne {s t : PutRace δ} {as : List ℕ}
    (h : BoundBySuccess key spec s) (hrun : run? (step db key value) s as = some t)
    (hone : AtMostOne key value spec t) :
    holdsAlong (step db key value) (StillAbsent key value spec) s as := by
  induction as generalizing s with
  | nil => trivial
  | cons i as ih =>
      obtain ⟨s', hstep, hrun⟩ := Option.bind_eq_some_iff.1 hrun
      refine ⟨stillAbsent_of_atMostOne key value spec h hstep hrun hone, ?_⟩
      intro s'' hs''
      rw [hstep, Option.some.injEq] at hs''
      subst hs''
      exact ih (boundBySuccess_step key value spec h hstep) hrun

/-- For any number of requests of one absent key and any interleaving of their
calls, at most one request succeeds, with its value stored, exactly when every
accepted `Put` finds the key still absent. -/
theorem atMostOne_iff_stillAbsent {d : δ} (habsent : spec.view d key = none) {as : List ℕ}
    {t : PutRace δ} (hrun : run? (step db key value) (init d) as = some t) :
    AtMostOne key value spec t ↔
      holdsAlong (step db key value) (StillAbsent key value spec) (init d) as := by
  constructor
  · intro hone
    have hbound : BoundBySuccess key spec (init d) := fun h => absurd habsent h
    exact holdsAlong_of_atMostOne key value spec hbound hrun hone
  · intro hok
    exact invariant_of_run (fun s i s' h hi hstep => atMostOne_step key value spec h hi hstep)
      (atMostOne_init key value spec d) hok hrun

end Specification

/-- The condition is met when the second of two requests checks the key after the first has
written. -/
theorem atMostOne_iff_stillAbsent_inTurn :
    (orderedLevelDB_spec vectorLess).view [] [1] = none ∧
      ∃ t, run? (step (orderedLevelDB vectorLess) [1] fun i => [UInt8.ofNat i])
          (init []) [0, 0, 1] = some t ∧
        t.phase 0 = .done .success ∧ t.phase 1 = .done .errKeyexists ∧
        AtMostOne [1] (fun i => [UInt8.ofNat i]) (orderedLevelDB_spec vectorLess) t := by
  have hok : holdsAlong (step (orderedLevelDB vectorLess) [1] fun i => [UInt8.ofNat i])
      (StillAbsent [1] (fun i => [UInt8.ofNat i]) (orderedLevelDB_spec vectorLess)) (init [])
      [0, 0, 1] := by decide
  exact ⟨rfl, _, rfl, by decide, by decide, (atMostOne_iff_stillAbsent [1]
    (fun i => [UInt8.ofNat i]) (orderedLevelDB_spec vectorLess) rfl rfl).2 hok⟩

/-- Two requests check the absent key before either of them writes: both succeed,
and the value of the first is gone. -/
theorem two_puts_succeed :
    (orderedLevelDB_spec vectorLess).view [] [1] = none ∧
      ∃ t, run? (step (orderedLevelDB vectorLess) [1] fun i => [UInt8.ofNat i])
          (init []) [0, 1, 0, 1] = some t ∧
        t.phase 0 = .done .success ∧ t.phase 1 = .done .success ∧
        (orderedLevelDB_spec vectorLess).view t.dbm [1] = some [1] ∧
        ¬ AtMostOne [1] (fun i => [UInt8.ofNat i]) (orderedLevelDB_spec vectorLess) t := by
  refine ⟨rfl, _, rfl, by decide, by decide, by decide, ?_⟩
  intro hone
  exact absurd (hone.1 0 1 (by decide) (by decide)) (by decide)

end PutRace

end Sdskv
