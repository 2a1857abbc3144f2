import Mathlib.Algebra.Ring.Parity
import Mathlib.Data.List.Induction
import Sdskv.Datastore.Map.Listing

/-!
# The answer of a batched put

`AbstractDataStore::put_multi` and `put_packed` fold the answers of the single puts with
`ret = ret == 0 ? r : 0`. A failure is kept until the next put, and that put resets the
answer to success whatever its own answer is. The fold therefore reports a failure exactly
when an odd number of failures stands at the end of the batch, and it reports the last one.
-/

namespace Sdskv

/-- The fold of `put_multi` and `put_packed` over the answers of the single puts. -/
def foldReturn (ret : SdskvReturn) (results : List SdskvReturn) : SdskvReturn :=
  results.foldl (fun ret r => if ret = .success then r else .success) ret

/-- How many puts failed after the last one that succeeded. -/
def trailingFailures (results : List SdskvReturn) : ℕ :=
  (results.reverse.takeWhile fun r => decide (r ≠ .success)).length

/-- A batch answers success exactly when every put did, and the answer of a put that failed
otherwise. -/
def ReportsFailures (ret : SdskvReturn) (results : List SdskvReturn) : Prop :=
  (ret = .success ↔ ∀ r ∈ results, r = .success) ∧
    ((¬ ∀ r ∈ results, r = .success) → ret ≠ .success ∧ ret ∈ results)

theorem foldReturn_append_singleton (ret : SdskvReturn) (results : List SdskvReturn)
    (r : SdskvReturn) :
    foldReturn ret (results ++ [r]) =
      if foldReturn ret results = .success then r else .success := by
  rw [foldReturn, List.foldl_append]
  rfl

theorem trailingFailures_append_singleton (results : List SdskvReturn) (r : SdskvReturn) :
    trailingFailures (results ++ [r]) =
      if r = .success then 0 else trailingFailures results + 1 := by
  rw [trailingFailures, List.reverse_append, List.reverse_singleton, List.singleton_append,
    List.takeWhile_cons]
  by_cases h : r = .success
  · simp [h]
  · simp [h, trailingFailures]

theorem trailingFailures_of_forall {results : List SdskvReturn}
    (h : ∀ r ∈ results, r = .success) : trailingFailures results = 0 := by
  induction results using List.reverseRecOn with
  | nil => rfl
  | append_singleton results r _ =>
      rw [trailingFailures_append_singleton, if_pos (h r (by simp))]

/-- The fold reports a failure when the number of trailing failures is odd. -/
theorem foldReturn_ne_success_iff (results : List SdskvReturn) :
    foldReturn .success results ≠ .success ↔ Odd (trailingFailures results) := by
  induction results using List.reverseRecOn with
  | nil => simp [foldReturn, trailingFailures]
  | append_singleton results r ih =>
      rw [foldReturn_append_singleton, trailingFailures_append_singleton]
      by_cases hr : r = .success
      · simp [hr]
      · rw [if_neg hr, Nat.odd_add_one, ← ih, not_not]
        split_ifs with hret
        · exact iff_of_true hr hret
        · exact iff_of_false (not_not.2 rfl) hret

/-- What the fold reports is an answer of the batch. -/
theorem foldReturn_mem {results : List SdskvReturn}
    (h : foldReturn .success results ≠ .success) : foldReturn .success results ∈ results := by
  induction results using List.reverseRecOn with
  | nil => exact absurd rfl h
  | append_singleton results r _ =>
      rw [foldReturn_append_singleton] at h ⊢
      split_ifs at h ⊢ with hret
      · simp
      · exact absurd rfl h

theorem reportsFailures_foldReturn_iff (results : List SdskvReturn) :
    ReportsFailures (foldReturn .success results) results ↔
      (∀ r ∈ results, r = .success) ∨ Odd (trailingFailures results) := by
  constructor
  · rintro ⟨-, hfail⟩
    by_cases hall : ∀ r ∈ results, r = .success
    · exact Or.inl hall
    · exact Or.inr ((foldReturn_ne_success_iff results).1 (hfail hall).1)
  · rintro (hall | hodd)
    · have hsuccess : foldReturn .success results = .success := by
        by_contra hne
        have hodd := (foldReturn_ne_success_iff results).1 hne
        rw [trailingFailures_of_forall hall] at hodd
        simp at hodd
      exact ⟨iff_of_true hsuccess hall, fun hnot => absurd hall hnot⟩
    · have hne := (foldReturn_ne_success_iff results).2 hodd
      have hnot : ¬ ∀ r ∈ results, r = .success := by
        intro hall
        rw [trailingFailures_of_forall hall] at hodd
        simp at hodd
      exact ⟨iff_of_false hne hnot, fun _ => ⟨hne, foldReturn_mem hne⟩⟩

section Batches

variable {σ : Type*} (put : σ → Pointer → ℕ → Pointer → ℕ → SdskvReturn × σ)

/-- The answers of the single puts of `put_multi`, in order. -/
def putMultiResults : σ → List (Pointer × ℕ) → List (Pointer × ℕ) → List SdskvReturn
  | s, (key, ksize) :: keys, (value, vsize) :: values =>
      let (r, s') := put s key ksize value vsize
      r :: putMultiResults s' keys values
  | _, _, _ => []

/-- The answers of the single puts of `put_packed`, in order. -/
def putPackedResults (keys values : Pointer) : σ → ℕ → ℕ → List ℕ → List ℕ →
    List SdskvReturn
  | s, keysOffset, valsOffset, ksize :: ksizes, vsize :: vsizes =>
      let (r, s') := put s (keys.drop keysOffset) ksize (values.drop valsOffset) vsize
      r :: putPackedResults keys values s' (keysOffset + ksize) (valsOffset + vsize) ksizes
        vsizes
  | _, _, _, _, _ => []

theorem putMultiLoop_fst (ret : SdskvReturn) (s : σ) (keys values : List (Pointer × ℕ)) :
    (putMultiLoop put ret s keys values).1 =
      foldReturn ret (putMultiResults put s keys values) := by
  induction keys generalizing ret s values with
  | nil => rfl
  | cons key keys ih =>
      cases values with
      | nil => rfl
      | cons value values =>
          rw [putMultiLoop, ih]
          rfl

theorem putPackedLoop_fst (keys values : Pointer) (ret : SdskvReturn) (s : σ)
    (keysOffset valsOffset : ℕ) (ksizes vsizes : List ℕ) :
    (putPackedLoop put keys values ret s keysOffset valsOffset ksizes vsizes).1 =
      foldReturn ret
        (putPackedResults put keys values s keysOffset valsOffset ksizes vsizes) := by
  induction ksizes generalizing ret s keysOffset valsOffset vsizes with
  | nil => rfl
  | cons ksize ksizes ih =>
      cases vsizes with
      | nil => rfl
      | cons vsize vsizes =>
          rw [putPackedLoop, ih]
          rfl

/-- The two batched puts report failures exactly when every put succeeded or the batch ends
in an odd number of failures. -/
theorem putMulti_putPacked_reportsFailures_iff (s : σ) (keys values : List (Pointer × ℕ))
    (packedKeys : Pointer) (ksizes : List ℕ) (packedValues : Pointer) (vsizes : List ℕ) :
    let multi := putMultiResults put s keys values
    let packed := putPackedResults put packedKeys packedValues s 0 0 ksizes vsizes
    (ReportsFailures (putMulti put s keys values).1 multi ↔
        (∀ r ∈ multi, r = .success) ∨ Odd (trailingFailures multi)) ∧
      (ReportsFailures (putPacked put s packedKeys ksizes packedValues vsizes).1 packed ↔
        (∀ r ∈ packed, r = .success) ∨ Odd (trailingFailures packed)) := by
  intro multi packed
  constructor
  · rw [putMulti, putMultiLoop_fst]
    exact reportsFailures_foldReturn_iff multi
  · rw [putPacked, putPackedLoop_fst]
    exact reportsFailures_foldReturn_iff packed

end Batches

/-- Two puts of a key that a database without overwriting has already. -/
def refusedKeys : List (Pointer × ℕ) := [([1], 1), ([1], 1)]

def refusedValues : List (Pointer × ℕ) := [([3], 1), ([4], 1)]

/-- Both puts are refused, and the batch answers success. -/
theorem putMulti_success_of_two_failures :
    putMultiResults MapDataStore.putRaw (singleEntry true [1] [2]).1 refusedKeys
        refusedValues = [.errKeyexists, .errKeyexists] ∧
      (putMulti MapDataStore.putRaw (singleEntry true [1] [2]).1 refusedKeys
        refusedValues).1 = .success ∧
      ¬ ReportsFailures
        (putMulti MapDataStore.putRaw (singleEntry true [1] [2]).1 refusedKeys refusedValues).1
        (putMultiResults MapDataStore.putRaw (singleEntry true [1] [2]).1 refusedKeys
          refusedValues) := by
  have hresults : putMultiResults MapDataStore.putRaw (singleEntry true [1] [2]).1 refusedKeys
      refusedValues = [.errKeyexists, .errKeyexists] := by decide
  have hret : (putMulti MapDataStore.putRaw (singleEntry true [1] [2]).1 refusedKeys
      refusedValues).1 = .success := by decide
  refine ⟨hresults, hret, ?_⟩
  rintro ⟨hsuccess, -⟩
  have hall := hsuccess.1 hret
  rw [hresults] at hall
  exact absurd (hall .errKeyexists (by simp)) (by decide)

end Sdskv
