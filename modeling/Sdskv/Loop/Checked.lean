import Mathlib.Tactic.Ring
import Sdskv.Loop.Counter

/-!
# Loops whose body may fault

The body of a loop reads and writes buffers, and an access outside of them is a fault. The
state of the loop is `τ`, and `body i t` is its state after the iteration with the counter
`i`, or `none` for a fault. `counted` runs `for (i = 0; i < n; i++)` with an unsigned
counter of `w` bits for a number of tests of its condition. `through` takes the iterations
of a list of counter values, so a loop that ends is `through` the numbers below its bound.

A bound that the counter cannot hold makes it go through all of its values over and over,
which `rounds` counts. `countedUntil` is a loop that an iteration can leave.

A signed counter that overflows leaves the behaviour of the program undefined:
`signedIndices` are the values of such a counter.
-/

namespace Loop

/-- How a loop stands after some tests of its condition: it has ended, an iteration has
faulted, or it is still running. -/
inductive Run (τ : Type*)
  | done (t : τ)
  | fault
  | running
  deriving DecidableEq

variable {τ : Type*}

/-- Use the value of a loop that has ended. -/
def Run.map {υ : Type*} (f : τ → υ) : Run τ → Run υ
  | done t => done (f t)
  | fault => fault
  | running => running

/-- Go on with the value of a loop that has ended. -/
def Run.bind {υ : Type*} : Run τ → (τ → Run υ) → Run υ
  | done t, f => f t
  | fault, _ => fault
  | running, _ => running

/-- A computation that ends with a value or faults. -/
def Run.ofOption : Option τ → Run τ
  | some t => .done t
  | none => .fault

/-- The value of a loop that has ended. -/
def Run.toOption : Run τ → Option τ
  | done t => some t
  | fault => none
  | running => none

/-- The iterations for the counter values of a list. -/
def through (body : ℕ → τ → Option τ) : List ℕ → τ → Option τ
  | [], t => some t
  | i :: is, t => (body i t).bind (through body is)

/-- The loop from the counter value `i` on, within `fuel` tests of its condition. -/
def counted (w n : ℕ) (body : ℕ → τ → Option τ) : ℕ → ℕ → τ → Run τ
  | 0, _, _ => .running
  | fuel + 1, i, t =>
      if i < n then
        match body i t with
        | some t' => counted w n body fuel ((i + 1) % 2 ^ w) t'
        | none => .fault
      else .done t

/-- The values of a signed counter of `w` bits from zero on; `none` when it overflows. -/
def signedIndices (w n : ℕ) : Option (List ℕ) :=
  if n < 2 ^ (w - 1) then some (List.range n) else none

theorem signedIndices_eq_some_iff {w n : ℕ} {is : List ℕ} :
    signedIndices w n = some is ↔ n < 2 ^ (w - 1) ∧ is = List.range n := by
  rw [signedIndices]
  split_ifs with h
  · simp only [Option.some.injEq, h, true_and, eq_comm]
  · simp only [h, false_and]

theorem signedIndices_eq_none_iff {w n : ℕ} : signedIndices w n = none ↔ ¬ n < 2 ^ (w - 1) := by
  rw [signedIndices]
  split_ifs with h
  · simp only [h, not_true_eq_false]
  · simp only [h, not_false_eq_true]

/-- A sum of unsigned words wraps around once. -/
theorem foldl_add_mod (m : ℕ) (l : List ℕ) (start : ℕ) :
    l.foldl (fun sum v => (sum + v) % m) (start % m) = (start + l.sum) % m := by
  induction l generalizing start with
  | nil => rw [List.foldl_nil, List.sum_nil, Nat.add_zero]
  | cons v l ih => rw [List.foldl_cons, Nat.mod_add_mod, ih, List.sum_cons, Nat.add_assoc]

theorem map_getD_range (l : List ℕ) :
    (List.range l.length).map (fun i => l.getD i 0) = l := by
  apply List.ext_getElem
  · simp
  · intro i h h'
    simp [List.getD_eq_getElem?_getD, h']

/-- The sum of an array of unsigned words. -/
theorem foldl_getD_add_mod (m : ℕ) (l : List ℕ) :
    (List.range l.length).foldl (fun sum i => (sum + l.getD i 0) % m) 0 = l.sum % m := by
  have hsum := foldl_add_mod m ((List.range l.length).map fun i => l.getD i 0) 0
  rwa [List.foldl_map, Nat.zero_mod, Nat.zero_add, map_getD_range] at hsum

theorem Run.map_eq_done_iff {υ : Type*} {f : τ → υ} {r : Run τ} {u : υ} :
    r.map f = .done u ↔ ∃ t, r = .done t ∧ f t = u := by
  cases r <;> simp [Run.map]

theorem Run.map_eq_fault_iff {υ : Type*} {f : τ → υ} {r : Run τ} :
    r.map f = .fault ↔ r = .fault := by
  cases r <;> simp [Run.map]

theorem Run.bind_eq_done_iff {υ : Type*} {f : τ → Run υ} {r : Run τ} {u : υ} :
    r.bind f = .done u ↔ ∃ t, r = .done t ∧ f t = .done u := by
  cases r <;> simp [Run.bind]

theorem Run.bind_eq_fault_iff {υ : Type*} {f : τ → Run υ} {r : Run τ} :
    r.bind f = .fault ↔ r = .fault ∨ ∃ t, r = .done t ∧ f t = .fault := by
  cases r <;> simp [Run.bind]

theorem Run.ofOption_eq_done_iff {o : Option τ} {t : τ} :
    Run.ofOption o = .done t ↔ o = some t := by
  cases o <;> simp [Run.ofOption]

theorem Run.ofOption_eq_fault_iff {o : Option τ} : Run.ofOption o = .fault ↔ o = none := by
  cases o <;> simp [Run.ofOption]

theorem Run.toOption_eq_some_iff {r : Run τ} {t : τ} : r.toOption = some t ↔ r = .done t := by
  cases r <;> simp [Run.toOption]

theorem through_append (body : ℕ → τ → Option τ) (is js : List ℕ) (t : τ) :
    through body (is ++ js) t = (through body is t).bind (through body js) := by
  induction is generalizing t with
  | nil => rfl
  | cons i is ih =>
      rw [List.cons_append, through, through, Option.bind_assoc]
      congr 1
      funext t'
      exact ih t'

/-- A property of the state that every iteration keeps holds in the end. -/
theorem through_invariant (body : ℕ → τ → Option τ) (I : ℕ → τ → Prop) {n : ℕ}
    (hstep : ∀ i t, i < n → I i t → ∃ t', body i t = some t' ∧ I (i + 1) t') {t : τ}
    (ht : I 0 t) : ∃ t', through body (List.range n) t = some t' ∧ I n t' := by
  induction n with
  | zero => exact ⟨t, rfl, ht⟩
  | succ n ih =>
      obtain ⟨t₁, hthrough, ht₁⟩ := ih fun i t hi => hstep i t (Nat.lt_succ_of_lt hi)
      obtain ⟨t', hbody, ht'⟩ := hstep n t₁ (Nat.lt_succ_self n) ht₁
      refine ⟨t', ?_, ht'⟩
      rw [List.range_succ, through_append, hthrough, Option.bind_some, through, hbody]
      rfl

/-- A loop has ended when its counter has reached the bound and no iteration faults. -/
theorem counted_eq_done_iff {w n : ℕ} {body : ℕ → τ → Option τ} {fuel i : ℕ} {t t' : τ} :
    counted w n body fuel i t = .done t' ↔
      ∃ is, visited w n fuel i = some is ∧ through body is t = some t' := by
  induction fuel generalizing i t with
  | zero => simp [counted, visited]
  | succ fuel ih =>
      by_cases hmore : i < n
      · rw [counted, if_pos hmore, visited, if_pos hmore]
        cases hbody : body i t with
        | none => simp [through, hbody]
        | some u =>
            simp only [ih, Option.map_eq_some_iff]
            constructor
            · rintro ⟨is, his, hthrough⟩
              exact ⟨i :: is, ⟨is, his, rfl⟩, by rw [through, hbody]; exact hthrough⟩
            · rintro ⟨_, ⟨is, his, rfl⟩, hthrough⟩
              rw [through, hbody] at hthrough
              exact ⟨is, his, hthrough⟩
      · rw [counted, if_neg hmore, visited, if_neg hmore]
        simp [through]

/-- A loop ends exactly when its counter can hold the bound and no iteration faults. -/
theorem ends_iff {w n : ℕ} {body : ℕ → τ → Option τ} {t t' : τ} :
    (∃ fuel, counted w n body fuel 0 t = .done t') ↔
      n < 2 ^ w ∧ through body (List.range n) t = some t' := by
  simp only [counted_eq_done_iff]
  constructor
  · rintro ⟨fuel, is, his, hthrough⟩
    have hindices : indices w n = some is := indices_eq_some_iff.2 ⟨fuel, his⟩
    rw [indices] at hindices
    split_ifs at hindices with hlt
    cases hindices
    exact ⟨hlt, hthrough⟩
  · rintro ⟨hlt, hthrough⟩
    have hindices : indices w n = some (List.range n) := if_pos hlt
    obtain ⟨fuel, hfuel⟩ := indices_eq_some_iff.1 hindices
    exact ⟨fuel, List.range n, hfuel, hthrough⟩

/-- With a bound that the counter can hold, enough tests run the loop to its end. -/
theorem counted_of_lt {w n : ℕ} (h : n < 2 ^ w) {body : ℕ → τ → Option τ} {m i : ℕ}
    (hi : i + m = n) (t : τ) :
    counted w n body (m + 1) i t = .ofOption (through body (List.range' i m) t) := by
  induction m generalizing i t with
  | zero =>
      have hend : ¬ i < n := by omega
      rw [counted, if_neg hend]
      rfl
  | succ m ih =>
      have hmore : i < n := by omega
      rw [counted, if_pos hmore, List.range'_succ, through]
      cases hbody : body i t with
      | none => rfl
      | some u =>
          rw [Nat.mod_eq_of_lt (by omega)]
          exact ih (by omega) u

/-- A fault is one of the iterations up to it. -/
theorem through_eq_none_of_counted {w n : ℕ} (h : n < 2 ^ w) {body : ℕ → τ → Option τ}
    {fuel i : ℕ} (hi : i ≤ n) {t : τ} (hfault : counted w n body fuel i t = .fault) :
    through body (List.range' i (n - i)) t = none := by
  induction fuel generalizing i t with
  | zero => cases hfault
  | succ fuel ih =>
      rw [counted] at hfault
      split_ifs at hfault with hmore
      rw [show n - i = n - (i + 1) + 1 by omega, List.range'_succ, through]
      cases hbody : body i t with
      | none => rfl
      | some u =>
          rw [hbody, Nat.mod_eq_of_lt (by omega)] at hfault
          exact ih hmore hfault

/-- A loop whose counter can hold the bound never faults exactly when it ends. -/
theorem safe_iff {w n : ℕ} (h : n < 2 ^ w) {body : ℕ → τ → Option τ} {t : τ} :
    (∀ fuel, counted w n body fuel 0 t ≠ .fault) ↔
      through body (List.range n) t ≠ none := by
  constructor
  · intro hsafe hnone
    apply hsafe (n + 1)
    rw [counted_of_lt h (Nat.zero_add n), ← List.range_eq_range', hnone]
    rfl
  · intro hthrough fuel hfault
    apply hthrough
    rw [List.range_eq_range']
    exact through_eq_none_of_counted h (Nat.zero_le n) hfault

/-- A loop that a computation follows never faults exactly when neither of them does. -/
theorem bind_safe_iff {υ : Type*} {w n : ℕ} (h : n < 2 ^ w) {body : ℕ → τ → Option τ} {t : τ}
    {f : τ → Option υ} :
    (∀ fuel, (counted w n body fuel 0 t).bind (fun t' => .ofOption (f t')) ≠ .fault) ↔
      (through body (List.range n) t).bind f ≠ none := by
  simp only [ne_eq, Run.bind_eq_fault_iff, Run.ofOption_eq_fault_iff, not_or, forall_and]
  have hsafe : (∀ fuel, counted w n body fuel 0 t ≠ .fault) ↔
      through body (List.range n) t ≠ none := safe_iff h
  constructor
  · rintro ⟨hloop, hthen⟩ hnone
    cases hthrough : through body (List.range n) t with
    | none => exact hsafe.1 hloop hthrough
    | some t' =>
        rw [hthrough, Option.bind_some] at hnone
        obtain ⟨fuel, hdone⟩ := ends_iff.2 ⟨h, hthrough⟩
        exact hthen fuel ⟨t', hdone, hnone⟩
  · intro hsome
    constructor
    · apply hsafe.2
      intro hnone
      rw [hnone] at hsome
      exact hsome rfl
    · rintro fuel ⟨t', hdone, hnone⟩
      obtain ⟨-, hthrough⟩ := ends_iff.1 ⟨fuel, hdone⟩
      rw [hthrough, Option.bind_some] at hsome
      exact hsome hnone

/-- A loop that has ended, together with what follows it, does not fault with fewer or more
tests. -/
theorem bind_safe_of_done {υ : Type*} {w n : ℕ} {body : ℕ → τ → Option τ} {t : τ}
    {f : τ → Option υ} {fuel : ℕ} {u : υ}
    (hdone : (counted w n body fuel 0 t).bind (fun t' => .ofOption (f t')) = .done u) :
    n < 2 ^ w ∧
      ∀ fuel', (counted w n body fuel' 0 t).bind (fun t' => .ofOption (f t')) ≠ .fault := by
  obtain ⟨t', hcounted, hthen⟩ := Run.bind_eq_done_iff.1 hdone
  obtain ⟨hlt, hthrough⟩ := ends_iff.1 ⟨fuel, hcounted⟩
  refine ⟨hlt, (bind_safe_iff hlt).2 ?_⟩
  rw [hthrough, Option.bind_some, Run.ofOption_eq_done_iff.1 hthen]
  exact Option.some_ne_none u

/-- What has ended in `r` has ended alike in `r'`. -/
def Run.Le (r r' : Run τ) : Prop := ∀ t, r = .done t → r' = .done t

theorem Run.Le.refl (r : Run τ) : r.Le r := fun _ h => h

theorem Run.Le.map {υ : Type*} {r r' : Run τ} (h : r.Le r') (f : τ → υ) :
    (r.map f).Le (r'.map f) := by
  intro u hu
  obtain ⟨t, ht, rfl⟩ := Run.map_eq_done_iff.1 hu
  exact Run.map_eq_done_iff.2 ⟨t, h t ht, rfl⟩

theorem Run.Le.bind {υ : Type*} {r r' : Run τ} {f f' : τ → Run υ} (h : r.Le r')
    (hf : ∀ t, (f t).Le (f' t)) : (r.bind f).Le (r'.bind f') := by
  intro u hu
  obtain ⟨t, ht, hft⟩ := Run.bind_eq_done_iff.1 hu
  exact Run.bind_eq_done_iff.2 ⟨t, h t ht, hf t u hft⟩

/-- More tests do not change how a loop has ended. -/
theorem counted_le (w n : ℕ) (body : ℕ → τ → Option τ) {fuel fuel' : ℕ} (hle : fuel ≤ fuel')
    (i : ℕ) (t : τ) : (counted w n body fuel i t).Le (counted w n body fuel' i t) := by
  induction fuel generalizing fuel' i t with
  | zero =>
      intro u hu
      cases hu
  | succ fuel ih =>
      obtain ⟨fuel', rfl⟩ := Nat.exists_eq_add_of_le' (Nat.le_of_add_left_le hle)
      rw [counted, counted]
      split_ifs
      · cases body i t with
        | none => exact .refl _
        | some t' => exact ih (Nat.le_of_succ_le_succ hle) _ t'
      · exact .refl _

section Endless

/-- A number of rounds through all values of a counter of `w` bits. -/
def rounds (w : ℕ) (body : ℕ → τ → Option τ) : ℕ → τ → Option τ
  | 0, t => some t
  | r + 1, t => (through body (List.range (2 ^ w)) t).bind (rounds w body r)

theorem counted_fault_add {w n : ℕ} {body : ℕ → τ → Option τ} {fuel i : ℕ} {t : τ}
    (h : counted w n body fuel i t = .fault) (more : ℕ) :
    counted w n body (fuel + more) i t = .fault := by
  induction fuel generalizing i t with
  | zero => cases h
  | succ fuel ih =>
      rw [counted] at h
      rw [Nat.succ_add, counted]
      split_ifs at h ⊢ with hmore
      cases hbody : body i t with
      | none => rfl
      | some u =>
          rw [hbody] at h
          exact ih h

/-- Rounds that fault or not whatever state they begin in. -/
theorem rounds_safe_iff {w : ℕ} {body : ℕ → τ → Option τ} {P : Prop}
    (hround : ∀ t, through body (List.range (2 ^ w)) t ≠ none ↔ P) (t : τ) :
    (∀ r, rounds w body r t ≠ none) ↔ P := by
  constructor
  · intro hrounds
    rw [← hround t]
    intro hnone
    apply hrounds 1
    rw [rounds, hnone, Option.bind_none]
  · intro hP r
    induction r generalizing t with
    | zero => exact Option.some_ne_none t
    | succ r ih =>
        obtain ⟨t', hthrough⟩ := Option.ne_none_iff_exists'.1 ((hround t).2 hP)
        rw [rounds, hthrough, Option.bind_some]
        exact ih t'

variable {w n : ℕ} (h : 2 ^ w ≤ n) {body : ℕ → τ → Option τ}
include h

/-- Below a bound that the counter cannot hold, `m` more iterations are always to come. -/
theorem counted_add {m i : ℕ} (hi : i + m ≤ 2 ^ w) (fuel : ℕ) (t : τ) :
    counted w n body (m + fuel) (i % 2 ^ w) t =
      (Run.ofOption (through body (List.range' i m) t)).bind
        (counted w n body fuel ((i + m) % 2 ^ w)) := by
  induction m generalizing i t with
  | zero => rw [Nat.zero_add, Nat.add_zero, List.range'_zero, through, Run.ofOption, Run.bind]
  | succ m ih =>
      have hmore : i < n := by omega
      rw [Nat.succ_add, Nat.mod_eq_of_lt (by omega), counted, if_pos hmore, List.range'_succ,
        through]
      cases hbody : body i t with
      | none => rfl
      | some u =>
          have hnext := ih (i := i + 1) (by omega) u
          rw [Nat.add_right_comm] at hnext
          exact hnext

theorem counted_rounds (r fuel : ℕ) (t : τ) :
    counted w n body (r * 2 ^ w + fuel) 0 t =
      (Run.ofOption (rounds w body r t)).bind (counted w n body fuel 0) := by
  induction r generalizing t with
  | zero => rw [Nat.zero_mul, Nat.zero_add, rounds, Run.ofOption, Run.bind]
  | succ r ih =>
      have hround : counted w n body (2 ^ w + (r * 2 ^ w + fuel)) (0 % 2 ^ w) t = _ :=
        counted_add h (Nat.le_of_eq (Nat.zero_add (2 ^ w))) (r * 2 ^ w + fuel) t
      rw [Nat.zero_mod, Nat.zero_add, Nat.mod_self, ← List.range_eq_range'] at hround
      rw [Nat.succ_mul, Nat.add_comm (r * 2 ^ w), Nat.add_assoc, hround, rounds]
      cases through body (List.range (2 ^ w)) t with
      | none => rfl
      | some u => exact ih u

/-- A loop whose counter cannot hold the bound goes through the values of the counter over
and over, so it never faults exactly when no number of rounds does. -/
theorem endless_safe_iff {t : τ} :
    (∀ fuel, counted w n body fuel 0 t ≠ .fault) ↔ ∀ r, rounds w body r t ≠ none := by
  constructor
  · intro hsafe r hnone
    apply hsafe (r * 2 ^ w + 0)
    rw [counted_rounds h, hnone]
    rfl
  · intro hrounds fuel hfault
    have hle : fuel ≤ fuel * 2 ^ w := Nat.le_mul_of_pos_right fuel (Nat.two_pow_pos w)
    have hlater := counted_fault_add hfault (fuel * 2 ^ w - fuel)
    rw [Nat.add_sub_cancel' hle, ← Nat.add_zero (fuel * 2 ^ w), counted_rounds h] at hlater
    cases hround : rounds w body fuel t with
    | none => exact hrounds fuel hround
    | some u =>
        rw [hround] at hlater
        cases hlater

/-- What follows a loop that does not end is not reached. -/
theorem endless_bind_safe_iff {υ : Type*} {t : τ} {f : τ → Run υ} :
    (∀ fuel, (counted w n body fuel 0 t).bind f ≠ .fault) ↔
      ∀ r, rounds w body r t ≠ none := by
  rw [← endless_safe_iff h]
  apply forall_congr'
  intro fuel
  rw [ne_eq, ne_eq, Run.bind_eq_fault_iff, not_or, and_iff_left]
  rintro ⟨t', hdone, -⟩
  obtain ⟨hlt, -⟩ := ends_iff.1 ⟨fuel, hdone⟩
  omega

end Endless

section Until

variable {ρ : Type*}

/-- The loop when an iteration can leave it: `body i t` is the state after the iteration, or
what is returned from inside of it. -/
def countedUntil (w n : ℕ) (body : ℕ → τ → Option (τ ⊕ ρ)) : ℕ → ℕ → τ → Run (τ ⊕ ρ)
  | 0, _, _ => .running
  | fuel + 1, i, t =>
      if i < n then
        match body i t with
        | some (.inl t') => countedUntil w n body fuel ((i + 1) % 2 ^ w) t'
        | some (.inr r) => .done (.inr r)
        | none => .fault
      else .done (.inl t)

variable {w n : ℕ} {body : ℕ → τ → Option (τ ⊕ ρ)} {body' : ℕ → τ → Option τ}

/-- A loop that no iteration leaves. -/
theorem countedUntil_eq (hbody : ∀ i t, body i t = (body' i t).map .inl) (fuel i : ℕ) (t : τ) :
    countedUntil w n body fuel i t = (counted w n body' fuel i t).map .inl := by
  induction fuel generalizing i t with
  | zero => rfl
  | succ fuel ih =>
      rw [countedUntil, counted, hbody]
      split_ifs with hmore
      · cases body' i t with
        | none => rfl
        | some u => exact ih _ u
      · rfl

/-- A loop that is left runs through the iterations up to that point only, so its faults are
faults of the loop that is not left. -/
theorem fault_of_countedUntil (hnone : ∀ i t, body i t = none → body' i t = none)
    (hnext : ∀ i t t', body i t = some (.inl t') → body' i t = some t') {fuel i : ℕ} {t : τ}
    (hfault : countedUntil w n body fuel i t = .fault) :
    counted w n body' fuel i t = .fault := by
  induction fuel generalizing i t with
  | zero => cases hfault
  | succ fuel ih =>
      rw [countedUntil] at hfault
      rw [counted]
      split_ifs at hfault ⊢ with hmore
      split at hfault
      · next t' hbody =>
          rw [hnext i t t' hbody]
          exact ih hfault
      · cases hfault
      · next hbody => rw [hnone i t hbody]

end Until

end Loop
