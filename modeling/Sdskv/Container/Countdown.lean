import Mathlib.Data.List.Pairwise
import Mathlib.Logic.Function.Iterate
import Mathlib.Order.RelClasses

/-!
# Counting down by pages

A reader goes through an increasing list by pages and keeps the last item that it was given.
A page is made of the first items after that one, where the item `bot` stands for the
beginning. The reader stops when a number of items that it has set itself is reached, and not
when a page is empty.

`countdown` is one page: it takes the length of the page off the number. The reader stops
exactly when the list has as many items as it counts, or when it comes back to the beginning
with every page because `bot` itself is an item and a page ends with it.
-/

namespace Countdown

variable {α : Type*} [DecidableEq α] (lt : α → α → Prop) [DecidableRel lt] (bot : α)

/-- The items after `start`, or all of them for the beginning. -/
def after (items : List α) (start : α) : List α :=
  items.filter fun a => decide (start = bot ∨ lt start a)

/-- One page of at most `size` items, for a reader that still counts `state.1` items and was
last given `state.2`. -/
def countdown (items : List α) (size : ℕ) (state : ℕ × α) : ℕ × α :=
  let page := (after lt bot items state.2).take (min state.1 size)
  (state.1 - page.length, page.getLast?.getD state.2)

variable {lt bot} {items : List α}

theorem after_bot : after lt bot items bot = items := by
  simp [after]

variable [IsStrictOrder α lt]

/-- What is after an item of an increasing list. -/
theorem after_getElem (hsorted : items.Pairwise lt) {m : ℕ} (hm : m < items.length)
    (hne : items[m] ≠ bot) : after lt bot items items[m] = items.drop (m + 1) := by
  have hget := List.pairwise_iff_getElem.1 hsorted
  have hsplit : items = items.take (m + 1) ++ items.drop (m + 1) :=
    (List.take_append_drop _ _).symm
  have hbefore : (items.take (m + 1)).filter
      (fun a => decide (items[m] = bot ∨ lt items[m] a)) = [] := by
    rw [List.filter_eq_nil_iff]
    intro a ha
    obtain ⟨i, hi, rfl⟩ := List.getElem_of_mem ha
    rw [List.length_take] at hi
    rw [List.getElem_take, decide_eq_true_iff, not_or]
    refine ⟨hne, fun hlt => ?_⟩
    have hle : i ≤ m := by omega
    rcases Nat.lt_or_eq_of_le hle with hless | rfl
    · exact irrefl_of lt _ (trans_of lt hlt (hget i m (by omega) hm hless))
    · exact irrefl_of lt _ hlt
  have hbehind : (items.drop (m + 1)).filter
      (fun a => decide (items[m] = bot ∨ lt items[m] a)) = items.drop (m + 1) := by
    rw [List.filter_eq_self]
    intro a ha
    obtain ⟨i, hi, rfl⟩ := List.getElem_of_mem ha
    rw [List.length_drop] at hi
    rw [List.getElem_drop, decide_eq_true_iff]
    exact Or.inr (hget m (m + 1 + i) hm (by omega) (by omega))
  calc after lt bot items items[m]
      = (items.take (m + 1) ++ items.drop (m + 1)).filter
          (fun a => decide (items[m] = bot ∨ lt items[m] a)) := by rw [← hsplit, after]
    _ = items.drop (m + 1) := by rw [List.filter_append, hbefore, hbehind, List.nil_append]

/-- The reader has been given the first `m` items, and counts the remaining ones of `n`. -/
def Progress (lt : α → α → Prop) [DecidableRel lt] (bot : α) (items : List α) (n : ℕ)
    (state : ℕ × α) : Prop :=
  ∃ m ≤ items.length, state.1 + m = n ∧ after lt bot items state.2 = items.drop m

theorem progress_start (lt : α → α → Prop) [DecidableRel lt] (bot : α) (items : List α)
    (n : ℕ) : Progress lt bot items n (n, bot) :=
  ⟨0, Nat.zero_le _, rfl, after_bot⟩

omit [DecidableEq α] [IsStrictOrder α lt] in
/-- The last item of a page. -/
theorem getLast?_take_drop {m c : ℕ} (hc : 0 < c) (hm : m < items.length) :
    ∃ i, ∃ hi : i < items.length, ((items.drop m).take c).getLast? = some items[i] ∧
      i + 1 = m + ((items.drop m).take c).length := by
  have hlength : ((items.drop m).take c).length = min c (items.length - m) := by
    rw [List.length_take, List.length_drop]
  refine ⟨m + min c (items.length - m) - 1, by omega, ?_, by omega⟩
  rw [List.getLast?_eq_getElem?, hlength, List.getElem?_take_of_lt (by omega),
    List.getElem?_drop, List.getElem?_eq_getElem (by omega)]
  congr 2
  omega

/-- A page of the list ends with the beginning. -/
def Returns (bot : α) (items : List α) (size : ℕ) : Prop :=
  bot ∈ items ∧ (size = 1 ∨ items = [bot])

section

variable (hsorted : items.Pairwise lt) (hleast : ∀ a ∈ items, a ≠ bot → lt bot a)
include hsorted hleast

omit [DecidableEq α] [DecidableRel lt] in
/-- The least item is the first one. -/
theorem eq_zero_of_getElem_eq_bot {i : ℕ} (hi : i < items.length) (hbot : items[i] = bot) :
    i = 0 := by
  by_contra hpos
  have hfirst : lt items[0] bot := by
    rw [← hbot]
    exact List.pairwise_iff_getElem.1 hsorted 0 i (by omega) hi (Nat.pos_of_ne_zero hpos)
  have hne : items[0] ≠ bot := fun heq => irrefl_of lt bot (heq ▸ hfirst)
  exact irrefl_of lt bot (trans_of lt (hleast _ (List.getElem_mem _) hne) hfirst)

/-- A page moves on, unless the reader comes back to the beginning. -/
theorem Progress.next {n size : ℕ} (hlen : items.length ≤ n) (hreturns : ¬ Returns bot items size)
    {state : ℕ × α} (h : Progress lt bot items n state) :
    Progress lt bot items n (countdown lt bot items size state) := by
  obtain ⟨r, start⟩ := state
  obtain ⟨m, hm, hcount, hafter⟩ := h
  simp only at hcount hafter
  simp only [countdown, hafter]
  have hlength : ((items.drop m).take (min r size)).length = min (min r size) (items.length - m)
      := by rw [List.length_take, List.length_drop]
  by_cases hempty : min r size = 0 ∨ m = items.length
  · have hnil : (items.drop m).take (min r size) = [] := by
      apply List.eq_nil_of_length_eq_zero
      omega
    rw [hnil]
    exact ⟨m, hm, hcount, hafter⟩
  · obtain ⟨i, hi, hlast, hnext⟩ := getLast?_take_drop
      (show 0 < min r size by omega) (show m < items.length by omega)
    rw [hlast]
    refine ⟨i + 1, hi, ?_, after_getElem hsorted hi fun hbot => hreturns ?_⟩
    · simp only
      omega
    · have hzero := eq_zero_of_getElem_eq_bot hsorted hleast hi hbot
      refine ⟨hbot ▸ List.getElem_mem hi, ?_⟩
      by_cases hone : size = 1
      · exact Or.inl hone
      · -- the page has one item and was not cut, so there is no other item
        right
        subst hzero
        have htotal : items.length = 1 := by omega
        obtain ⟨a, rfl⟩ := List.length_eq_one_iff.1 htotal
        rw [show a = bot from hbot]

/-- A reader that comes back to the beginning takes one item off with every page. -/
theorem countdown_of_returns {size : ℕ} (hsize : 1 ≤ size) (hreturns : Returns bot items size)
    {r : ℕ} (hr : r ≠ 0) : countdown lt bot items size (r, bot) = (r - 1, bot) := by
  obtain ⟨hmem, hone⟩ := hreturns
  obtain ⟨i, hi, hbot⟩ := List.getElem_of_mem hmem
  have hzero := eq_zero_of_getElem_eq_bot hsorted hleast hi hbot
  subst hzero
  have hpage : items.take (min r size) = [bot] := by
    rcases hone with rfl | rfl
    · rw [show min r 1 = 0 + 1 by omega, List.take_add_one, List.take_zero,
        List.getElem?_eq_getElem hi, hbot]
      rfl
    · exact List.take_of_length_le (by simp; omega)
  simp only [countdown, after_bot, hpage]
  rfl

theorem iterate_of_returns {size : ℕ} (hsize : 1 ≤ size) (hreturns : Returns bot items size)
    (n : ℕ) : (countdown lt bot items size)^[n] (n, bot) = (0, bot) := by
  induction n with
  | zero => rfl
  | succ n ih =>
      rw [Function.iterate_succ_apply,
        countdown_of_returns hsorted hleast hsize hreturns (Nat.succ_ne_zero n)]
      exact ih

theorem Progress.iterate {n size : ℕ} (hlen : items.length ≤ n)
    (hreturns : ¬ Returns bot items size) (k : ℕ) :
    Progress lt bot items n ((countdown lt bot items size)^[k] (n, bot)) := by
  induction k with
  | zero => exact progress_start lt bot items n
  | succ k ih =>
      rw [Function.iterate_succ_apply']
      exact ih.next hsorted hleast hlen hreturns

omit hsorted hleast [IsStrictOrder α lt] in
/-- A page of a list that has all the items the reader counts. -/
theorem countdown_fst_lt {size : ℕ} (hsize : 1 ≤ size) {state : ℕ × α} (hpos : state.1 ≠ 0)
    (h : Progress lt bot items items.length state) :
    (countdown lt bot items size state).1 < state.1 := by
  obtain ⟨m, hm, hcount, hafter⟩ := h
  simp only [countdown, hafter, List.length_take, List.length_drop]
  omega

theorem exists_iterate_fst_eq_zero {size : ℕ} (hsize : 1 ≤ size)
    (hreturns : ¬ Returns bot items size) :
    ∃ k, ((countdown lt bot items size)^[k] (items.length, bot)).1 = 0 := by
  by_contra hnot
  rw [not_exists] at hnot
  -- the number of items that remain would go down for ever
  have hdown : ∀ k,
      ((countdown lt bot items size)^[k] (items.length, bot)).1 + k ≤ items.length := by
    intro k
    induction k with
    | zero => exact Nat.le_refl _
    | succ k ih =>
        have hprogress := Progress.iterate hsorted hleast (Nat.le_refl _) hreturns k
        have hless := countdown_fst_lt hsize (hnot k) hprogress
        rw [Function.iterate_succ_apply']
        omega
  have hend := hdown (items.length + 1)
  omega

/-- The reader of an increasing list stops exactly when it counts the items of the list, or
when it comes back to the beginning with every page. -/
theorem ends_iff {n size : ℕ} (hlen : items.length ≤ n) (hsize : 1 ≤ size) :
    (∃ k, ((countdown lt bot items size)^[k] (n, bot)).1 = 0) ↔
      items.length = n ∨ Returns bot items size := by
  by_cases hreturns : Returns bot items size
  · refine iff_of_true ⟨n, ?_⟩ (Or.inr hreturns)
    rw [iterate_of_returns hsorted hleast hsize hreturns]
  · constructor
    · rintro ⟨k, hk⟩
      obtain ⟨m, hm, hcount, -⟩ := Progress.iterate hsorted hleast hlen hreturns k
      left
      omega
    · rintro (rfl | hreturns')
      · exact exists_iterate_fst_eq_zero hsorted hleast hsize hreturns
      · exact absurd hreturns' hreturns

end

end Countdown
