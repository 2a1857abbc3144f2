import Mathlib.Data.List.Basic
import Mathlib.Tactic.IntervalCases

/-!
# Bitmaps

Bit `i` of a list of bytes is bit `i % 8` of byte `i / 8`. A loop over the bits keeps the
mask of the current bit, shifts it and starts over after the eighth bit of a byte.
-/

namespace Wire

/-- The mask of bit `i` in its byte. -/
def bitMask (i : ℕ) : UInt8 := 1 <<< UInt8.ofNat (i % 8)

/-- Bit `i`. -/
def testBit (bytes : List UInt8) (i : ℕ) : Bool := bytes.getD (i / 8) 0 &&& bitMask i ≠ 0

/-- Set bit `i`. -/
def setBit (bytes : List UInt8) (i : ℕ) : List UInt8 :=
  bytes.set (i / 8) (bytes.getD (i / 8) 0 ||| bitMask i)

@[simp] theorem bitMask_zero : bitMask 0 = 1 := rfl

/-- The mask that a loop keeps. -/
theorem bitMask_succ (i : ℕ) :
    bitMask (i + 1) = if i % 8 = 7 then (1 : UInt8) else bitMask i <<< 1 := by
  have hlt : i % 8 < 8 := Nat.mod_lt i (by decide)
  have hnext : (i + 1) % 8 = if i % 8 = 7 then 0 else i % 8 + 1 := by
    split_ifs with h <;> omega
  rw [bitMask, bitMask, hnext]
  generalize i % 8 = r at hlt
  interval_cases r <;> rfl

theorem bitMask_and_bitMask (i j : ℕ) : bitMask i &&& bitMask j ≠ 0 ↔ i % 8 = j % 8 := by
  have hmask : ∀ a b : Fin 8,
      (1 <<< UInt8.ofNat a.1 : UInt8) &&& (1 <<< UInt8.ofNat b.1) ≠ 0 ↔ a.1 = b.1 := by
    decide
  exact hmask ⟨i % 8, Nat.mod_lt i (by decide)⟩ ⟨j % 8, Nat.mod_lt j (by decide)⟩

theorem or_and_distrib_byte (a b c : UInt8) : (a ||| b) &&& c = a &&& c ||| b &&& c := by
  apply UInt8.toBitVec_inj.1
  exact BitVec.and_or_distrib_right

@[simp] theorem length_setBit (bytes : List UInt8) (i : ℕ) :
    (setBit bytes i).length = bytes.length := by
  rw [setBit, List.length_set]

@[simp] theorem testBit_replicate_zero (n i : ℕ) : testBit (List.replicate n 0) i = false := by
  have hbyte : (List.replicate n (0 : UInt8)).getD (i / 8) 0 = 0 := by
    rw [List.getD_eq_getElem?_getD, List.getElem?_replicate]
    split_ifs <;> rfl
  rw [testBit, hbyte, UInt8.zero_and]
  rfl

theorem testBit_setBit {bytes : List UInt8} {i : ℕ} (h : i / 8 < bytes.length) (j : ℕ) :
    testBit (setBit bytes i) j = (testBit bytes j || decide (i = j)) := by
  by_cases hbyte : i / 8 = j / 8
  · have hget : (setBit bytes i).getD (j / 8) 0 = bytes.getD (j / 8) 0 ||| bitMask i := by
      rw [setBit, hbyte, List.getD_eq_getElem?_getD, List.getElem?_set_self (hbyte ▸ h)]
      rfl
    have hmask : bitMask i &&& bitMask j ≠ 0 ↔ i = j := by
      rw [bitMask_and_bitMask]
      omega
    rw [testBit, testBit, hget, ← Bool.decide_or]
    apply decide_eq_decide.2
    rw [or_and_distrib_byte, ne_eq, UInt8.or_eq_zero_iff, not_and_or, ← ne_eq, ← ne_eq, hmask]
  · have hget : (setBit bytes i).getD (j / 8) 0 = bytes.getD (j / 8) 0 := by
      rw [setBit, List.getD_eq_getElem?_getD, List.getElem?_set_ne hbyte,
        List.getD_eq_getElem?_getD]
    have hne : i ≠ j := fun hij => hbyte (by rw [hij])
    rw [testBit, testBit, hget, decide_eq_false hne, Bool.or_false]

end Wire
