import Mathlib.Data.Nat.Notation
import Mathlib.Logic.Basic
import Mathlib.Tactic.SplitIfs

/-!
# A readers-writer lock

The lock is held by one writer or by any number of readers. A thread that cannot have it waits:
the call is `none`.
-/

namespace Concurrency

/-- A readers-writer lock. -/
structure RwLock where
  readers : ℕ
  writer : Bool

namespace RwLock

/-- The lock that nobody holds. -/
def free : RwLock :=
  { readers := 0, writer := false }

/-- Take the lock to read. -/
def rdlock (l : RwLock) : Option RwLock :=
  if l.writer then none else some { l with readers := l.readers + 1 }

/-- Take the lock to write. -/
def wrlock (l : RwLock) : Option RwLock :=
  if l.writer ∨ l.readers ≠ 0 then none else some { l with writer := true }

/-- Take the lock, exclusively or shared. -/
def acquire (l : RwLock) (exclusive : Bool) : Option RwLock :=
  if exclusive then l.wrlock else l.rdlock

/-- Give the lock back. -/
def unlock (l : RwLock) : RwLock :=
  if l.writer then { l with writer := false } else { l with readers := l.readers - 1 }

theorem rdlock_eq_some_iff {l l' : RwLock} :
    l.rdlock = some l' ↔ l.writer = false ∧ l' = { l with readers := l.readers + 1 } := by
  rw [rdlock]
  split_ifs with h
  · simp [h]
  · simp [Bool.eq_false_iff.2 h, eq_comm]

theorem wrlock_eq_some_iff {l l' : RwLock} :
    l.wrlock = some l' ↔
      l.writer = false ∧ l.readers = 0 ∧ l' = { l with writer := true } := by
  rw [wrlock]
  split_ifs with h
  · simp only [false_iff]
    rintro ⟨hwriter, hreaders, -⟩
    simp [hwriter, hreaders] at h
  · rw [not_or, not_not, Bool.not_eq_true] at h
    simp [h.1, h.2, eq_comm]

theorem writer_of_acquire {l l' : RwLock} {exclusive : Bool} (h : l.acquire exclusive = some l') :
    l.writer = false := by
  rw [acquire] at h
  split_ifs at h
  · exact (wrlock_eq_some_iff.1 h).1
  · exact (rdlock_eq_some_iff.1 h).1

end RwLock

end Concurrency
