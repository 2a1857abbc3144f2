import Mathlib.Data.List.Basic

/-!
# Runs of a step function

A system is a step function `step : σ → α → Option σ`: the action `a` is taken
in the state `s` when `step s a` has a value, and it is not enabled otherwise.
`run? step s as` takes the actions of `as` one after the other and is `none` as
soon as one of them is not enabled.

`holdsAlong step ok s as` says that every action of the run is taken in a state
where `ok` holds of it. The rule `invariant_of_run` is the induction that every
safety statement of a system uses: what one admitted step preserves holds in
every state that an admitted run reaches.
-/

namespace Transition

variable {σ α : Type*}

/-- The state after the actions `as`; `none` when one of them is not enabled. -/
def run? (step : σ → α → Option σ) : σ → List α → Option σ
  | s, [] => some s
  | s, a :: as => (step s a).bind fun s' => run? step s' as

/-- Every action of the run is taken in a state where `ok` admits it. -/
def holdsAlong (step : σ → α → Option σ) (ok : σ → α → Prop) : σ → List α → Prop
  | _, [] => True
  | s, a :: as => ok s a ∧ ∀ s', step s a = some s' → holdsAlong step ok s' as

theorem holdsAlong_cons (step : σ → α → Option σ) (ok : σ → α → Prop) (s : σ) (a : α)
    (as : List α) :
    holdsAlong step ok s (a :: as) ↔
      ok s a ∧ ∀ s' ∈ step s a, holdsAlong step ok s' as := Iff.rfl

instance decidableHoldsAlong (step : σ → α → Option σ) (ok : σ → α → Prop)
    [∀ s a, Decidable (ok s a)] : ∀ s as, Decidable (holdsAlong step ok s as)
  | _, [] => isTrue trivial
  | s, a :: as =>
      have : ∀ s', Decidable (holdsAlong step ok s' as) := fun s' =>
        decidableHoldsAlong step ok s' as
      decidable_of_iff _ (holdsAlong_cons step ok s a as).symm

@[simp] theorem run?_nil (step : σ → α → Option σ) (s : σ) :
    run? step s [] = some s := rfl

theorem run?_cons (step : σ → α → Option σ) (s : σ) (a : α) (as : List α) :
    run? step s (a :: as) = (step s a).bind fun s' => run? step s' as := rfl

theorem run?_append (step : σ → α → Option σ) (s : σ) (as bs : List α) :
    run? step s (as ++ bs) = (run? step s as).bind fun s' => run? step s' bs := by
  induction as generalizing s with
  | nil => rfl
  | cons a as ih =>
      rw [List.cons_append, run?_cons, run?_cons, Option.bind_assoc]
      congr 1
      funext s'
      exact ih s'

theorem holdsAlong_append (step : σ → α → Option σ) (ok : σ → α → Prop) (s : σ)
    (as bs : List α) :
    holdsAlong step ok s (as ++ bs) ↔
      holdsAlong step ok s as ∧
        ∀ s', run? step s as = some s' → holdsAlong step ok s' bs := by
  induction as generalizing s with
  | nil => simp [holdsAlong]
  | cons a as ih =>
      rw [List.cons_append]
      constructor
      · rintro ⟨hok, hrest⟩
        refine ⟨⟨hok, fun s' hs' => ((ih s').1 (hrest s' hs')).1⟩, ?_⟩
        intro s'' hrun
        obtain ⟨s', hs', hrun'⟩ := Option.bind_eq_some_iff.1 hrun
        exact ((ih s').1 (hrest s' hs')).2 s'' hrun'
      · rintro ⟨⟨hok, hrest⟩, hbs⟩
        refine ⟨hok, fun s' hs' => (ih s').2 ⟨hrest s' hs', ?_⟩⟩
        intro s'' hrun
        exact hbs s'' (by rw [run?_cons, hs']; exact hrun)

/-- An admitted run, by its steps. -/
theorem holdsAlong_iff_forall_step (step : σ → α → Option σ) (ok : σ → α → Prop) (s : σ)
    (as : List α) :
    holdsAlong step ok s as ↔
      ∀ before a after t, as = before ++ a :: after → run? step s before = some t → ok t a := by
  constructor
  · rintro h before a after t rfl hrun
    exact (((holdsAlong_append step ok s before (a :: after)).1 h).2 t hrun).1
  · intro h
    induction as generalizing s with
    | nil => trivial
    | cons a as ih =>
        refine ⟨h [] a as s rfl rfl, fun s' hs' => ih s' ?_⟩
        intro before b after t heq hrun
        refine h (a :: before) b after t (by rw [heq]; rfl) ?_
        rw [run?_cons, hs']
        exact hrun

/-- Taking the action `a` again and again leads from `s` to `s'`. -/
def Reaches (step : σ → α → Option σ) (a : α) (s s' : σ) : Prop :=
  ∃ n, run? step s (List.replicate n a) = some s'

namespace Reaches

variable {step : σ → α → Option σ} {a : α} {s t u : σ}

theorem refl (step : σ → α → Option σ) (a : α) (s : σ) : Reaches step a s s := ⟨0, rfl⟩

theorem head (hstep : step s a = some t) (h : Reaches step a t u) : Reaches step a s u := by
  obtain ⟨n, hn⟩ := h
  exact ⟨n + 1, by rw [List.replicate_succ, run?_cons, hstep]; exact hn⟩

theorem trans (h : Reaches step a s t) (h' : Reaches step a t u) : Reaches step a s u := by
  obtain ⟨n, hn⟩ := h
  obtain ⟨m, hm⟩ := h'
  exact ⟨n + m, by rw [List.replicate_add, run?_append, hn]; exact hm⟩

/-- A run from `s` has made no step, or goes on from where the first one leads. -/
theorem step_iff (hstep : step s a = some t) :
    Reaches step a s u ↔ u = s ∨ Reaches step a t u := by
  constructor
  · rintro ⟨n, hn⟩
    cases n with
    | zero => exact Or.inl (Option.some.inj hn).symm
    | succ n =>
        rw [List.replicate_succ, run?_cons, hstep] at hn
        exact Or.inr ⟨n, hn⟩
  · rintro (rfl | h)
    · exact refl step a u
    · exact head hstep h

/-- A step that changes nothing is repeated for ever. -/
theorem eq_of_fixed (hstep : step s a = some s) (h : Reaches step a s u) : u = s := by
  obtain ⟨n, hn⟩ := h
  induction n with
  | zero => exact (Option.some.inj hn).symm
  | succ n ih =>
      rw [List.replicate_succ, run?_cons, hstep] at hn
      exact ih hn

/-- A run that ends where no further step is enabled ends nowhere else. -/
theorem eq_of_stuck (h : Reaches step a s t) (h' : Reaches step a s u) (ht : step t a = none)
    (hu : step u a = none) : t = u := by
  obtain ⟨n, hn⟩ := h
  obtain ⟨m, hm⟩ := h'
  induction n generalizing s m with
  | zero =>
      cases hn
      cases m with
      | zero => exact Option.some.inj hm
      | succ m =>
          rw [List.replicate_succ, run?_cons, ht] at hm
          cases hm
  | succ n ih =>
      rw [List.replicate_succ, run?_cons] at hn
      obtain ⟨s', hs', hn⟩ := Option.bind_eq_some_iff.1 hn
      cases m with
      | zero =>
          cases hm
          rw [hu] at hs'
          cases hs'
      | succ m =>
          rw [List.replicate_succ, run?_cons, hs'] at hm
          exact ih hn m hm

/-- A run that ends where no further step is enabled passes through all that is reached
from its beginning. -/
theorem exists_rest_of_stuck {n m : ℕ} (hn : run? step s (List.replicate n a) = some u)
    (hu : step u a = none) (hm : run? step s (List.replicate m a) = some t) :
    ∃ k, n = m + k ∧ run? step t (List.replicate k a) = some u := by
  induction m generalizing s n with
  | zero =>
      cases hm
      exact ⟨n, (Nat.zero_add n).symm, hn⟩
  | succ m ih =>
      rw [List.replicate_succ, run?_cons] at hm
      obtain ⟨s', hs', hm⟩ := Option.bind_eq_some_iff.1 hm
      cases n with
      | zero =>
          cases hn
          rw [hu] at hs'
          cases hs'
      | succ n =>
          rw [List.replicate_succ, run?_cons, hs'] at hn
          obtain ⟨k, rfl, hk⟩ := ih hn hm
          exact ⟨k, by omega, hk⟩

/-- States from which a step leads back to one of them are never left for good. -/
theorem step_ne_none_of_recurrent {P : σ → Prop}
    (hP : ∀ s, P s → ∃ t u, step s a = some t ∧ Reaches step a t u ∧ P u) (hs : P s)
    (h : Reaches step a s u) : step u a ≠ none := by
  obtain ⟨n, hn⟩ := h
  intro hu
  induction n using Nat.strongRecOn generalizing s with
  | _ n ih =>
      obtain ⟨t, v, hstep, ⟨m, hm⟩, hv⟩ := hP s hs
      have hsucc : run? step s (List.replicate (m + 1) a) = some v := by
        rw [List.replicate_succ, run?_cons, hstep]
        exact hm
      obtain ⟨k, hlength, hk⟩ := exists_rest_of_stuck hn hu hsucc
      exact ih k (by omega) hv hk

end Reaches

/-- What holds at the start and is preserved by every admitted step holds in
every state that an admitted run reaches. -/
theorem invariant_of_run {step : σ → α → Option σ} {ok : σ → α → Prop} {I : σ → Prop}
    (hstep : ∀ s a s', I s → ok s a → step s a = some s' → I s')
    {s s' : σ} {as : List α} (hinit : I s) (hok : holdsAlong step ok s as)
    (hrun : run? step s as = some s') : I s' := by
  induction as generalizing s with
  | nil =>
      rw [run?_nil, Option.some.injEq] at hrun
      exact hrun ▸ hinit
  | cons a as ih =>
      obtain ⟨t, ht, hrun⟩ := Option.bind_eq_some_iff.1 hrun
      exact ih (hstep s a t hinit hok.1 ht) (hok.2 t ht) hrun

theorem holdsAlong_of_forall (step : σ → α → Option σ) {ok : α → Prop} {as : List α}
    (h : ∀ a ∈ as, ok a) (s : σ) : holdsAlong step (fun _ a => ok a) s as := by
  induction as generalizing s with
  | nil => trivial
  | cons a as ih =>
      obtain ⟨ha, has⟩ := List.forall_mem_cons.1 h
      exact ⟨ha, fun s' _ => ih has s'⟩

/-- The rule for a system in which every enabled step preserves `I`. -/
theorem invariant_of_step {step : σ → α → Option σ} {I : σ → Prop}
    (hstep : ∀ s a s', I s → step s a = some s' → I s')
    {s s' : σ} {as : List α} (hinit : I s) (hrun : run? step s as = some s') : I s' := by
  have hall : holdsAlong step (fun _ _ => True) s as :=
    holdsAlong_of_forall step (fun _ _ => trivial) s
  exact invariant_of_run (fun s a s' h _ hs => hstep s a s' h hs) hinit hall hrun

/-- What an invariant gives at every admitted step holds along every admitted run. -/
theorem holdsAlong_of_invariant {step : σ → α → Option σ} {ok safe : σ → α → Prop}
    {I : σ → Prop} (hstep : ∀ s a s', I s → ok s a → step s a = some s' → I s')
    (hsafe : ∀ s a, I s → ok s a → safe s a)
    {s : σ} {as : List α} (hinit : I s) (hok : holdsAlong step ok s as) :
    holdsAlong step safe s as := by
  induction as generalizing s with
  | nil => trivial
  | cons a as ih =>
      refine ⟨hsafe s a hinit hok.1, fun s' hs' => ?_⟩
      exact ih (hstep s a s' hinit hok.1 hs') (hok.2 s' hs')

theorem holdsAlong_congr_of_run {step : σ → α → Option σ} {ok ok' : σ → α → Prop}
    (h : ∀ s a s', step s a = some s' → (ok s a ↔ ok' s a)) {s s' : σ} {as : List α}
    (hrun : run? step s as = some s') : holdsAlong step ok s as ↔ holdsAlong step ok' s as := by
  induction as generalizing s with
  | nil => exact Iff.rfl
  | cons a as ih =>
      obtain ⟨t, ht, hrun⟩ := Option.bind_eq_some_iff.1 hrun
      rw [holdsAlong_cons, holdsAlong_cons, h s a t ht, ht]
      simp only [Option.mem_def, Option.some.injEq, forall_eq', ih hrun]

theorem holdsAlong_take {step : σ → α → Option σ} {ok : σ → α → Prop} {s : σ}
    {as : List α} (h : holdsAlong step ok s as) (n : ℕ) :
    holdsAlong step ok s (as.take n) := by
  rw [← List.take_append_drop n as, holdsAlong_append] at h
  exact h.1

/-- When admitted steps keep an invariant that implies `Good`, and a step that is not
admitted leads out of `Good`, a run stays in `Good` exactly when it is admitted. -/
theorem forall_prefix_iff_holdsAlong {step : σ → α → Option σ} {ok : σ → α → Prop}
    {I Good : σ → Prop} (hgood : ∀ s, I s → Good s)
    (hstep : ∀ s a s', I s → ok s a → step s a = some s' → I s')
    (hbad : ∀ s a s', I s → ¬ ok s a → step s a = some s' → ¬ Good s')
    {s s' : σ} {as : List α} (hinit : I s) (hrun : run? step s as = some s') :
    (∀ n t, run? step s (as.take n) = some t → Good t) ↔ holdsAlong step ok s as := by
  constructor
  · intro h
    induction as generalizing s with
    | nil => trivial
    | cons a as ih =>
        obtain ⟨t, ht, hrun⟩ := Option.bind_eq_some_iff.1 hrun
        have hok : ok s a := by
          by_contra hnot
          apply hbad s a t hinit hnot ht
          exact h 1 t (by rw [List.take_succ_cons, run?_cons, ht]; rfl)
        refine ⟨hok, fun u hu => ?_⟩
        rw [ht, Option.some.injEq] at hu
        subst hu
        refine ih (hstep s a t hinit hok ht) hrun fun n u hu => h (n + 1) u ?_
        rw [List.take_succ_cons, run?_cons, ht]
        exact hu
  · intro h n t ht
    exact hgood t (invariant_of_run hstep hinit (holdsAlong_take h n) ht)

end Transition
