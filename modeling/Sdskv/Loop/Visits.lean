import Mathlib.Data.List.Nodup
import Sdskv.Loop.Checked

/-!
# What a counted loop visits

`logged` is a body that also writes down the counter values it is run with. A loop visits every
index once when its log has each number below the bound once and no other; it does so exactly
when its counter can hold the bound and no iteration faults.
-/

namespace Loop

variable {τ ρ : Type*}

/-- A body with a log of the counter values. -/
def logged (body : ℕ → τ → Option τ) (i : ℕ) (t : List ℕ × τ) : Option (List ℕ × τ) :=
  (body i t.2).map fun t' => (t.1 ++ [i], t')

/-- The log of a loop has every index below `n` once. -/
def EachOnce (n : ℕ) (log : List ℕ) : Prop := ∀ i, log.count i = if i < n then 1 else 0

/-- The loop ends with the state `t'`, and it has visited every index once. -/
def VisitsOnce (w n : ℕ) (body : ℕ → τ → Option τ) (t t' : τ) : Prop :=
  ∃ fuel log, counted w n (logged body) fuel 0 ([], t) = .done (log, t') ∧ EachOnce n log

/-- A body that can leave the loop, with a log of the counter values. -/
def loggedUntil (body : ℕ → τ → Option (τ ⊕ ρ)) (i : ℕ) (t : List ℕ × τ) :
    Option ((List ℕ × τ) ⊕ ρ) :=
  (body i t.2).map (Sum.map (fun t' => (t.1 ++ [i], t')) id)

/-- The loop ends without being left, and it has visited every index once. -/
def VisitsOnceUntil (w n : ℕ) (body : ℕ → τ → Option (τ ⊕ ρ)) (t t' : τ) : Prop :=
  ∃ fuel log, countedUntil w n (loggedUntil body) fuel 0 ([], t) = .done (.inl (log, t')) ∧
    EachOnce n log

theorem eachOnce_range (n : ℕ) : EachOnce n (List.range n) := by
  intro i
  simp only [List.nodup_range.count, List.mem_range]

/-- The log does not change what the iterations do. -/
theorem through_logged (body : ℕ → τ → Option τ) (is log : List ℕ) (t : τ) :
    through (logged body) is (log, t) = (through body is t).map fun t' => (log ++ is, t') := by
  induction is generalizing log t with
  | nil => rw [through, through, Option.map_some, List.append_nil]
  | cons i is ih =>
      rw [through, through, logged]
      cases body i t with
      | none => rfl
      | some u => rw [Option.map_some, Option.bind_some, Option.bind_some, ih, List.append_assoc,
          List.singleton_append]

variable {w n : ℕ} {body : ℕ → τ → Option τ} {t t' : τ}

/-- A loop visits every index once exactly when its counter can hold the bound and no iteration
faults. -/
theorem visitsOnce_iff :
    VisitsOnce w n body t t' ↔ n < 2 ^ w ∧ through body (List.range n) t = some t' := by
  constructor
  · rintro ⟨fuel, log, hdone, -⟩
    obtain ⟨hlt, hthrough⟩ := ends_iff.1 ⟨fuel, hdone⟩
    rw [through_logged, Option.map_eq_some_iff] at hthrough
    obtain ⟨u, hu, heq⟩ := hthrough
    cases heq
    exact ⟨hlt, hu⟩
  · rintro ⟨hlt, hthrough⟩
    have hlogged : through (logged body) (List.range n) ([], t) = some (List.range n, t') := by
      rw [through_logged, hthrough, Option.map_some, List.nil_append]
    obtain ⟨fuel, hdone⟩ := ends_iff.2 ⟨hlt, hlogged⟩
    exact ⟨fuel, List.range n, hdone, eachOnce_range n⟩

theorem VisitsOnce.lt (h : VisitsOnce w n body t t') : n < 2 ^ w := (visitsOnce_iff.1 h).1

/-- A loop that never faults and whose counter can hold the bound visits every index once. -/
theorem exists_visitsOnce (hlt : n < 2 ^ w) (hsafe : ∀ fuel, counted w n body fuel 0 t ≠ .fault) :
    ∃ t', VisitsOnce w n body t t' := by
  obtain ⟨t', hthrough⟩ := Option.ne_none_iff_exists'.1 ((safe_iff hlt).1 hsafe)
  exact ⟨t', visitsOnce_iff.2 ⟨hlt, hthrough⟩⟩

/-- A loop that no iteration leaves. -/
theorem visitsOnceUntil_iff {body' : ℕ → τ → Option (τ ⊕ ρ)}
    (hbody : ∀ i t, body' i t = (body i t).map .inl) :
    VisitsOnceUntil w n body' t t' ↔ VisitsOnce w n body t t' := by
  have hlogged : ∀ i (t : List ℕ × τ), loggedUntil body' i t = (logged body i t).map .inl := by
    intro i t
    rw [loggedUntil, logged, hbody]
    cases body i t.2 <;> rfl
  refine exists_congr fun fuel => exists_congr fun log => and_congr_left' ?_
  rw [countedUntil_eq hlogged, Run.map_eq_done_iff]
  constructor
  · rintro ⟨u, hu, heq⟩
    cases heq
    exact hu
  · intro hdone
    exact ⟨_, hdone, rfl⟩

end Loop
