import Mathlib.Algebra.Order.BigOperators.Group.List
import Sdskv.Rpc.Multi

/-!
# When a walk over the keys stays inside of the buffer

No handler of a batched request compares the number of keys or the sizes that it receives
with the size of its buffer. `KeysFit` is the relation between them under which a walk over
the keys is in bounds: the array of sizes is in the buffer, and behind it the keys.

The counter of the loops has 32 bits. With a number of keys that it cannot hold, a handler
goes through the first `2 ^ 32` sizes over and over; the position in the packed keys moves
on, and leaves the buffer sooner or later unless all keys are empty.
-/

namespace Sdskv

open Wire

/-- The keys of a request lie in their buffer. -/
def KeysFit (keysBuffer : Bulk) (numKeys : ℕ) : Prop :=
  if numKeys < 2 ^ 32 then
    8 * numKeys + (readArray 8 keysBuffer numKeys).sum ≤ keysBuffer.length
  else 8 * 2 ^ 32 ≤ keysBuffer.length ∧ (readArray 8 keysBuffer (2 ^ 32)).sum = 0

section Walk

variable {υ : Type} {keysBuffer : Bulk} {packed : ℕ} {act : ℕ → Bulk → υ → Option υ}

theorem length_flatten_readPacked {n i offset : ℕ} {keys : List Bulk}
    (h : readPacked keysBuffer packed n i offset = some keys) :
    keys.flatten.length = (wordsFrom keysBuffer i n).sum := by
  rw [List.length_flatten, (of_readPacked h).1]

/-- The first of some rounds of a walk that stay in the buffer, whatever is done with the
keys. -/
theorem round_walkPacked {w r offset : ℕ} {u : υ}
    (h : Loop.rounds w (walkPacked keysBuffer packed act) (r + 1) (offset, u) ≠ none) :
    (8 * 2 ^ w ≤ keysBuffer.length ∧ ((wordsFrom keysBuffer 0 (2 ^ w)).sum = 0 ∨
        packed + offset + (wordsFrom keysBuffer 0 (2 ^ w)).sum ≤ keysBuffer.length)) ∧
      ∃ u', Loop.rounds w (walkPacked keysBuffer packed act) r
        (offset + (wordsFrom keysBuffer 0 (2 ^ w)).sum, u') ≠ none := by
  rw [Loop.rounds, List.range_eq_range', through_walkPacked] at h
  cases hread : readPacked keysBuffer packed (2 ^ w) 0 offset with
  | none =>
      rw [hread] at h
      exact absurd rfl h
  | some keys =>
      have hne := Option.some_ne_none keys
      rw [← hread, readPacked_ne_none_iff] at hne
      have hpos := Nat.two_pow_pos w
      rw [hread, Option.bind_some] at h
      cases hact : forItems act 0 keys u with
      | none =>
          rw [hact] at h
          exact absurd rfl h
      | some u' =>
          rw [hact, Option.map_some, Option.bind_some, length_flatten_readPacked hread] at h
          refine ⟨?_, u', h⟩
          omega

/-- Each round moves on by the sizes of all keys. -/
theorem le_of_rounds_walkPacked {w r offset : ℕ} {u : υ}
    (h : Loop.rounds w (walkPacked keysBuffer packed act) (r + 1) (offset, u) ≠ none) :
    8 * 2 ^ w ≤ keysBuffer.length ∧ ((wordsFrom keysBuffer 0 (2 ^ w)).sum = 0 ∨
      packed + offset + (r + 1) * (wordsFrom keysBuffer 0 (2 ^ w)).sum ≤
        keysBuffer.length) := by
  induction r generalizing offset u with
  | zero =>
      rw [Nat.zero_add, Nat.one_mul]
      exact (round_walkPacked h).1
  | succ r ih =>
      obtain ⟨hround, u', hrest⟩ := round_walkPacked h
      obtain ⟨-, hkeys⟩ := ih hrest
      refine ⟨hround.1, ?_⟩
      rw [Nat.succ_mul]
      omega

/-- A walk that never faults finds the keys in the buffer. -/
theorem keysFit_of_safe {n : ℕ} {u : υ}
    (h : ∀ fuel, Loop.counted 32 n (walkPacked keysBuffer (sizesBytes n) act) fuel 0 (0, u) ≠
      .fault) : KeysFit keysBuffer n := by
  rw [KeysFit]
  split_ifs with hn
  · rw [Loop.safe_iff hn, List.range_eq_range', through_walkPacked] at h
    have hread : readPacked keysBuffer (sizesBytes n) n 0 0 ≠ none := by
      intro hnone
      rw [hnone] at h
      exact h rfl
    rw [readPacked_ne_none_iff, wordsFrom_zero, sizesBytes] at hread
    omega
  · rw [Loop.endless_safe_iff (Nat.le_of_not_lt hn)] at h
    obtain ⟨hwords, -⟩ := le_of_rounds_walkPacked (h 1)
    refine ⟨hwords, ?_⟩
    obtain ⟨-, hzero | hle⟩ := le_of_rounds_walkPacked (h (keysBuffer.length + 1))
    · rwa [wordsFrom_zero] at hzero
    · rw [wordsFrom_zero] at hle
      by_contra hpos
      have hgrow := Nat.le_mul_of_pos_right (keysBuffer.length + 1) (Nat.pos_of_ne_zero hpos)
      omega

/-- The keys that a walk finds. -/
theorem exists_readPacked_of_keysFit {n : ℕ} (h : KeysFit keysBuffer n) (hn : n < 2 ^ 32) :
    ∃ keys, readPacked keysBuffer (sizesBytes n) n 0 0 = some keys := by
  rw [KeysFit, if_pos hn] at h
  apply Option.ne_none_iff_exists'.1
  rw [readPacked_ne_none_iff, wordsFrom_zero, sizesBytes]
  omega

/-- With more keys than the counter can hold, all keys are empty. -/
theorem readPacked_of_keysFit {n : ℕ} (h : KeysFit keysBuffer n) (hn : ¬ n < 2 ^ 32)
    (offset : ℕ) :
    readPacked keysBuffer packed (2 ^ 32) 0 offset = some (List.replicate (2 ^ 32) []) := by
  rw [KeysFit, if_neg hn] at h
  obtain ⟨hwords, hzero⟩ := h
  rw [← wordsFrom_zero] at hzero
  have hread : readPacked keysBuffer packed (2 ^ 32) 0 offset ≠ none := by
    rw [readPacked_ne_none_iff, hzero]
    omega
  obtain ⟨keys, hkeys⟩ := Option.ne_none_iff_exists'.1 hread
  rw [hkeys, Option.some.injEq, List.eq_replicate_iff]
  have hlengths := (of_readPacked hkeys).1
  constructor
  · exact length_of_readPacked hkeys
  · intro key hkey
    rw [← hlengths] at hzero
    have hle := List.single_le_sum (fun _ _ => Nat.zero_le _) key.length
      (List.mem_map_of_mem hkey)
    rw [hzero] at hle
    exact List.length_eq_zero_iff.1 (Nat.le_zero.1 hle)

section Total

variable {I : υ → Prop} {n : ℕ} (hkeys : KeysFit keysBuffer n) {u : υ} (hu : I u)
include hkeys hu

/-- With more keys than the counter can hold, a walk goes on forever when the empty key does
not make it fault. -/
theorem walkPacked_safe_of_endless (hn : ¬ n < 2 ^ 32)
    (hact : ∀ i u, i < 2 ^ 32 → I u → ∃ u', act i [] u = some u' ∧ I u') (fuel : ℕ) :
    Loop.counted 32 n (walkPacked keysBuffer packed act) fuel 0 (0, u) ≠ .fault := by
  apply (Loop.endless_safe_iff (Nat.le_of_not_lt hn)).2
  intro r
  generalize 0 = offset
  induction r generalizing offset u with
  | zero => exact Option.some_ne_none (offset, u)
  | succ r ih =>
      have hstep : ∀ i key u, (List.replicate (2 ^ 32) ([] : Bulk))[i]? = some key → I u →
          ∃ u', act i key u = some u' ∧ I u' := by
        intro i key u hkey hu
        obtain ⟨hlt, hkey⟩ := List.getElem?_eq_some_iff.1 hkey
        rw [List.getElem_replicate] at hkey
        rw [List.length_replicate] at hlt
        rw [← hkey]
        exact hact i u hlt hu
      obtain ⟨u', hitems, hu'⟩ := forItems_invariant act (fun _ => I) hstep hu
      rw [Loop.rounds, List.range_eq_range', through_walkPacked,
        readPacked_of_keysFit hkeys hn, Option.bind_some, hitems, Option.map_some,
        Option.bind_some]
      exact ih hu' _

/-- A walk never faults when its keys are in the buffer and no key makes it fault. -/
theorem walkPacked_safe
    (hact : ∀ i key u, i < n → I u → ∃ u', act i key u = some u' ∧ I u') (fuel : ℕ) :
    Loop.counted 32 n (walkPacked keysBuffer (sizesBytes n) act) fuel 0 (0, u) ≠ .fault := by
  by_cases hn : n < 2 ^ 32
  · apply (Loop.safe_iff hn).2
    obtain ⟨keys, hread⟩ := exists_readPacked_of_keysFit hkeys hn
    have hlength := length_of_readPacked hread
    have hstep : ∀ i key u, keys[i]? = some key → I u → ∃ u', act i key u = some u' ∧ I u' := by
      intro i key u hkey hu
      have hlt := (List.getElem?_eq_some_iff.1 hkey).1
      exact hact i key u (by omega) hu
    obtain ⟨u', hitems, -⟩ := forItems_invariant act (fun _ => I) hstep hu
    rw [List.range_eq_range', through_walkPacked, hread, Option.bind_some, hitems]
    exact Option.some_ne_none _
  · apply walkPacked_safe_of_endless hkeys hu hn
    intro i u hi
    exact hact i [] u (by omega)

end Total

end Walk

end Sdskv
