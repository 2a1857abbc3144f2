import Mathlib.Algebra.Group.Nat.Defs
import Mathlib.Data.List.Basic

/-!
# Loops whose counter is narrower than their bound

`for (i = 0; i < n; i++)` with an unsigned counter of `w` bits: the counter goes back to
zero after `2 ^ w - 1`, so a bound from `2 ^ w` on is never reached and the loop does not
end. `visited` runs the loop for a number of tests of its condition, and `indices` is the
list of the values that the counter takes over the whole loop, if it ends.
-/

namespace Loop

/-- The values of the counter from `i` on, within `fuel` tests of the condition; `none`
when the loop has not ended by then. -/
def visited (w n : ℕ) : ℕ → ℕ → Option (List ℕ)
  | 0, _ => none
  | fuel + 1, i =>
      if i < n then (visited w n fuel ((i + 1) % 2 ^ w)).map fun is => i :: is
      else some []

/-- The values of the counter from zero on; `none` when the loop does not end. -/
def indices (w n : ℕ) : Option (List ℕ) :=
  if n < 2 ^ w then some (List.range n) else none

/-- The values of the counter from `start` on; `none` when the loop does not end. -/
def indicesFrom (w start n : ℕ) : Option (List ℕ) :=
  if n < 2 ^ w then some (List.range' start (n - start)) else none

/-- A bound that the counter can hold is reached. -/
theorem visited_of_lt {w n : ℕ} (h : n < 2 ^ w) {m i : ℕ} (hi : i + m = n) :
    visited w n (m + 1) i = some (List.range' i m) := by
  induction m generalizing i with
  | zero =>
      have hend : ¬ i < n := by omega
      rw [visited, if_neg hend]
      rfl
  | succ m ih =>
      have hmore : i < n := by omega
      have hnext : (i + 1) % 2 ^ w = i + 1 := Nat.mod_eq_of_lt (by omega)
      have hrest : visited w n (m + 1) (i + 1) = some (List.range' (i + 1) m) :=
        ih (by omega)
      rw [visited, if_pos hmore, hnext, hrest]
      rfl

/-- A loop that ends has a bound that the counter can hold, and visits every value
below it once and in order. -/
theorem lt_of_visited {w n fuel i : ℕ} {is : List ℕ} (hi : i ≤ n) (hw : i < 2 ^ w)
    (h : visited w n fuel i = some is) : n < 2 ^ w ∧ is = List.range' i (n - i) := by
  induction fuel generalizing i is with
  | zero => cases h
  | succ fuel ih =>
      rw [visited] at h
      split_ifs at h with hmore
      · obtain ⟨rest, hrest, rfl⟩ := Option.map_eq_some_iff.1 h
        by_cases hwrap : i + 1 < 2 ^ w
        · rw [Nat.mod_eq_of_lt hwrap] at hrest
          obtain ⟨hlt, rfl⟩ := ih hmore hwrap hrest
          refine ⟨hlt, ?_⟩
          rw [show n - i = n - (i + 1) + 1 by omega, List.range'_succ]
        · -- the counter starts over at zero below a bound that it cannot hold
          have hzero : (i + 1) % 2 ^ w = 0 := by
            rw [show i + 1 = 2 ^ w by omega, Nat.mod_self]
          rw [hzero] at hrest
          have hlt := (ih (Nat.zero_le n) (by omega) hrest).1
          omega
      · cases h
        have hend : n = i := by omega
        subst hend
        exact ⟨hw, by simp⟩

/-- The list of the counter's values is what the loop visits. -/
theorem indices_eq_some_iff {w n : ℕ} {is : List ℕ} :
    indices w n = some is ↔ ∃ fuel, visited w n fuel 0 = some is := by
  rw [indices, List.range_eq_range']
  constructor
  · intro h
    split_ifs at h with hlt
    cases h
    exact ⟨n + 1, visited_of_lt hlt (Nat.zero_add n)⟩
  · rintro ⟨fuel, h⟩
    obtain ⟨hlt, rfl⟩ := lt_of_visited (Nat.zero_le n) (Nat.two_pow_pos w) h
    rw [if_pos hlt, Nat.sub_zero]

theorem indicesFrom_eq_some_iff {w start n : ℕ} {is : List ℕ} (hw : start < 2 ^ w) :
    indicesFrom w start n = some is ↔ ∃ fuel, visited w n fuel start = some is := by
  rw [indicesFrom]
  by_cases hle : start ≤ n
  · constructor
    · intro h
      split_ifs at h with hlt
      cases h
      exact ⟨n - start + 1, visited_of_lt hlt (Nat.add_sub_cancel' hle)⟩
    · rintro ⟨fuel, h⟩
      obtain ⟨hlt, rfl⟩ := lt_of_visited hle hw h
      rw [if_pos hlt]
  · -- the condition is false from the start
    have hend : ¬ start < n := by omega
    rw [if_pos (by omega), Nat.sub_eq_zero_of_le (by omega), List.range'_zero]
    constructor
    · intro h
      cases h
      exact ⟨1, by rw [visited, if_neg hend]⟩
    · rintro ⟨fuel, h⟩
      cases fuel with
      | zero => cases h
      | succ fuel => rwa [visited, if_neg hend] at h

/-- A loop over all positions of an array reads the array. -/
theorem filterMap_getElem?_range {α : Type*} (l : List α) :
    ((List.range l.length).filterMap fun i => l[i]?) = l := by
  induction l with
  | nil => rfl
  | cons a l ih =>
      rw [List.length_cons, List.range_succ_eq_map, List.filterMap_cons, List.filterMap_map]
      simpa using ih

end Loop
