import Mathlib.Logic.Function.Iterate
import Sdskv.Loop.Checked

/-!
# Loops with a condition on the state

`whileLoop cond body` takes iterations as long as the condition holds, for a number of tests
of it. An iteration may fault, and it may not end itself.

A loop ends when an invariant makes a measure of the state smaller with every iteration, and
it does not end when an invariant keeps the condition true.
-/

namespace Loop

variable {τ : Type*}

/-- `while (cond) body`, within `fuel` tests of the condition. -/
def whileLoop (cond : τ → Bool) (body : τ → Run τ) : ℕ → τ → Run τ
  | 0, _ => .running
  | fuel + 1, t => if cond t then (body t).bind (whileLoop cond body fuel) else .done t

/-- `for (i = 0; i < n; i++)` with an unsigned counter of `w` bits, run to its end. -/
def forLoop (w n : ℕ) (body : ℕ → τ → Option τ) (t : τ) : Run τ :=
  match indices w n with
  | none => .running
  | some is => .ofOption (through body is t)

theorem forLoop_of_lt {w n : ℕ} (h : n < 2 ^ w) (body : ℕ → τ → Option τ) (t : τ) :
    forLoop w n body t = .ofOption (through body (List.range n) t) := by
  rw [forLoop, indices, if_pos h]

variable {cond : τ → Bool} {body : τ → Run τ} {I : τ → Prop}

theorem whileLoop_of_false {t : τ} (h : cond t = false) (fuel : ℕ) :
    whileLoop cond body (fuel + 1) t = .done t := by
  rw [whileLoop, if_neg (by simp [h])]

theorem whileLoop_of_body {t t' : τ} (h : cond t = true) (hbody : body t = .done t')
    (fuel : ℕ) : whileLoop cond body (fuel + 1) t = whileLoop cond body fuel t' := by
  rw [whileLoop, if_pos h, hbody, Run.bind]

/-- What every iteration keeps holds when the loop has ended. -/
theorem whileLoop_invariant
    (hbody : ∀ t t', I t → cond t = true → body t = .done t' → I t') {fuel : ℕ} {t t' : τ}
    (ht : I t) (hdone : whileLoop cond body fuel t = .done t') : I t' ∧ cond t' = false := by
  induction fuel generalizing t with
  | zero => cases hdone
  | succ fuel ih =>
      rw [whileLoop] at hdone
      split_ifs at hdone with hcond
      · obtain ⟨u, hu, hdone⟩ := Run.bind_eq_done_iff.1 hdone
        exact ih (hbody t u ht hcond hu) hdone
      · cases hdone
        exact ⟨ht, Bool.eq_false_of_not_eq_true hcond⟩

/-- A loop whose iterations make a measure smaller ends. -/
theorem exists_whileLoop_done (μ : τ → ℕ)
    (hbody : ∀ t, I t → cond t = true → ∃ t', body t = .done t' ∧ I t' ∧ μ t' < μ t) {t : τ}
    (ht : I t) :
    ∃ fuel t', whileLoop cond body fuel t = .done t' ∧ I t' ∧ cond t' = false := by
  induction hμ : μ t using Nat.strongRecOn generalizing t with
  | _ m ih =>
      cases hcond : cond t with
      | false => exact ⟨1, t, whileLoop_of_false hcond 0, ht, hcond⟩
      | true =>
          obtain ⟨u, hu, hIu, hlt⟩ := hbody t ht hcond
          obtain ⟨fuel, t', hdone, ht', hend⟩ := ih (μ u) (hμ ▸ hlt) hIu rfl
          exact ⟨fuel + 1, t', by rw [whileLoop_of_body hcond hu, hdone], ht', hend⟩

/-- A loop whose iterations keep the condition does not end. -/
theorem whileLoop_ne_done
    (hbody : ∀ t, I t → cond t = true ∧ ∀ t', body t = .done t' → I t') {t : τ} (ht : I t)
    (fuel : ℕ) (t' : τ) : whileLoop cond body fuel t ≠ .done t' := by
  intro hdone
  obtain ⟨ht', hend⟩ := whileLoop_invariant (fun t t' h _ => (hbody t h).2 t') ht hdone
  rw [(hbody t' ht').1] at hend
  cases hend

/-- A loop whose iterations follow a function `g` of a part of the state ends exactly when the
iterates of `g` come to a state where the condition is false. -/
theorem exists_done_iff_iterate {υ : Type*} (f : τ → υ) (g : υ → υ) (c : υ → Bool)
    (hcond : ∀ t, I t → cond t = c (f t))
    (hbody : ∀ t, I t → cond t = true → ∃ t', body t = .done t' ∧ I t' ∧ f t' = g (f t))
    {t : τ} (ht : I t) :
    (∃ fuel t', whileLoop cond body fuel t = .done t') ↔ ∃ k, c (g^[k] (f t)) = false := by
  constructor
  · rintro ⟨fuel, t', hdone⟩
    induction fuel generalizing t with
    | zero => cases hdone
    | succ fuel ih =>
        cases h : cond t with
        | false => exact ⟨0, by rw [Function.iterate_zero_apply, ← hcond t ht, h]⟩
        | true =>
            obtain ⟨u, hu, hIu, hfu⟩ := hbody t ht h
            rw [whileLoop_of_body h hu] at hdone
            obtain ⟨k, hk⟩ := ih hIu hdone
            exact ⟨k + 1, by rw [Function.iterate_succ_apply, ← hfu, hk]⟩
  · rintro ⟨k, hk⟩
    induction k generalizing t with
    | zero =>
        rw [Function.iterate_zero_apply, ← hcond t ht] at hk
        exact ⟨1, t, whileLoop_of_false hk 0⟩
    | succ k ih =>
        cases h : cond t with
        | false => exact ⟨1, t, whileLoop_of_false h 0⟩
        | true =>
            obtain ⟨u, hu, hIu, hfu⟩ := hbody t ht h
            rw [Function.iterate_succ_apply, ← hfu] at hk
            obtain ⟨fuel, t', hdone⟩ := ih hIu hk
            exact ⟨fuel + 1, t', by rw [whileLoop_of_body h hu, hdone]⟩

end Loop
