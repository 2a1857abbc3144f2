import Sdskv.Transition.Run

/-!
# Runs that show the same

What an action shows to the outside may depend on the state it is taken in: `vis s a` is
the event of the action, if it has one, and `observed step vis s as` are the events of a
run. A system is simulated by another one when every step is answered by a run of the
other system that shows the same; then every run is answered by a run that shows the same,
and the two runs end in related states.
-/

namespace Transition

variable {σ α τ β ε : Type*}

/-- The events of a run, as far as its actions are enabled. -/
def observed (step : σ → α → Option σ) (vis : σ → α → Option ε) : σ → List α → List ε
  | _, [] => []
  | s, a :: as =>
      match step s a with
      | none => []
      | some s' => (vis s a).toList ++ observed step vis s' as

section Observed

variable {step : σ → α → Option σ} {vis : σ → α → Option ε}

@[simp] theorem observed_nil (s : σ) : observed step vis s [] = [] := rfl

theorem observed_cons {s s' : σ} {a : α} (h : step s a = some s') (as : List α) :
    observed step vis s (a :: as) = (vis s a).toList ++ observed step vis s' as := by
  rw [observed, h]

theorem observed_singleton {s s' : σ} {a : α} (h : step s a = some s') :
    observed step vis s [a] = (vis s a).toList := by
  rw [observed_cons h, observed_nil, List.append_nil]

theorem observed_append {s s' : σ} {as : List α} (h : run? step s as = some s')
    (bs : List α) :
    observed step vis s (as ++ bs) = observed step vis s as ++ observed step vis s' bs := by
  induction as generalizing s with
  | nil =>
      cases h
      rfl
  | cons a as ih =>
      obtain ⟨t, ht, hrun⟩ := Option.bind_eq_some_iff.1 h
      rw [List.cons_append, observed_cons ht, observed_cons ht, ih hrun, List.append_assoc]

/-- A run shows nothing when none of its steps does. -/
theorem observed_eq_nil_iff {s s' : σ} {as : List α} (h : run? step s as = some s') :
    observed step vis s as = [] ↔ holdsAlong step (fun s a => vis s a = none) s as := by
  induction as generalizing s with
  | nil => exact iff_of_true rfl trivial
  | cons a as ih =>
      obtain ⟨t, ht, hrun⟩ := Option.bind_eq_some_iff.1 h
      rw [observed_cons ht, List.append_eq_nil_iff, Option.toList_eq_nil_iff, ih hrun]
      refine and_congr_right fun _ => ⟨fun hrest u hu => ?_, fun hrest => hrest t ht⟩
      rw [ht, Option.some.injEq] at hu
      exact hu ▸ hrest

end Observed

/-- Every step is answered by a run of the other system that shows the same. -/
def Simulates (step : σ → α → Option σ) (vis : σ → α → Option ε)
    (step' : τ → β → Option τ) (vis' : τ → β → Option ε) (R : σ → τ → Prop) : Prop :=
  ∀ s t a s', R s t → step s a = some s' →
    ∃ bs t', run? step' t bs = some t' ∧ observed step' vis' t bs = (vis s a).toList ∧ R s' t'

/-- Every run of a simulated system is answered by a run that shows the same. -/
theorem Simulates.exists_run {step : σ → α → Option σ} {vis : σ → α → Option ε}
    {step' : τ → β → Option τ} {vis' : τ → β → Option ε} {R : σ → τ → Prop}
    (hsim : Simulates step vis step' vis' R) {s s' : σ} {t : τ} {as : List α} (hR : R s t)
    (hrun : run? step s as = some s') :
    ∃ bs t', run? step' t bs = some t' ∧
      observed step' vis' t bs = observed step vis s as ∧ R s' t' := by
  induction as generalizing s t with
  | nil =>
      cases hrun
      exact ⟨[], t, rfl, rfl, hR⟩
  | cons a as ih =>
      obtain ⟨s₁, hs₁, hrun⟩ := Option.bind_eq_some_iff.1 hrun
      obtain ⟨bs, t₁, hbs, hvis, hR₁⟩ := hsim s t a s₁ hR hs₁
      obtain ⟨cs, t', hcs, hvis', hR'⟩ := ih hR₁ hrun
      refine ⟨bs ++ cs, t', ?_, ?_, hR'⟩
      · rw [run?_append, hbs]
        exact hcs
      · rw [observed_append hbs, observed_cons hs₁, hvis, hvis']

/-- What every enabled step adds to a measure that has the value `m` in every state of the
family `I m` is what the run adds to it. -/
theorem family_of_run {step : σ → α → Option σ} {vis : σ → α → Option ε} {I : ℕ → σ → Prop}
    (hstep : ∀ n s a s', I n s → step s a = some s' → I (n + (vis s a).toList.length) s')
    {n : ℕ} {s s' : σ} {as : List α} (hinit : I n s) (hrun : run? step s as = some s') :
    I (n + (observed step vis s as).length) s' := by
  induction as generalizing n s with
  | nil =>
      cases hrun
      exact hinit
  | cons a as ih =>
      obtain ⟨t, ht, hrun⟩ := Option.bind_eq_some_iff.1 hrun
      have hrest := ih (hstep n s a t hinit ht) hrun
      rw [observed_cons ht, List.length_append, ← Nat.add_assoc]
      exact hrest

end Transition
