import Mathlib.Data.Finset.Card
import Sdskv.Concurrency.AtomicObject
import Sdskv.Concurrency.RwLock

/-!
# Methods behind a readers-writer lock

The methods of an object take one lock, go on step by step on the shared state, and answer.
The steps of different threads interleave in any order. An exclusive method takes the lock
for writing and gives it back; a shared method takes it for reading, does not change the
state, and may forget to give the lock back.

`Locked n` is what the lock guarantees after `n` forgotten releases: while an exclusive
method is inside nobody else is, and the number of readers is that of the threads inside and
the forgotten ones. From it `linearizable` follows for methods that, run from any of their
local states, answer what the specification answers (`Implements`).
-/

namespace Linearizability

open Concurrency (RwLock)
open Transition Function

/-- What a step of a method leads to: another local state, or the answer, with the lock
given back or not. -/
inductive Outcome (L Ret : Type*)
  | next (l : L)
  | done (r : Ret) (unlock : Bool)

/-- The methods of an object, as steps on their local state and the shared state. -/
structure Methods (σ Op Ret L : Type*) where
  exclusive : Op → Bool
  start : Op → L
  body : Op → L → σ → Option (Outcome L Ret × σ)

/-- Where a thread is. -/
inductive Phase (Op Ret L : Type*)
  | idle
  | waiting (op : Op)
  | inside (op : Op) (l : L)
  | leaving (r : Ret)

/-- The call of the thread: it is pending until the thread has an answer. -/
def Phase.call {Op Ret L : Type*} : Phase Op Ret L → Call Op Ret
  | idle => .idle
  | waiting op => .pending op
  | inside op _ => .pending op
  | leaving r => .answered r

/-- The shared state, its lock, and the threads. -/
structure Guarded (σ Tid Op Ret L : Type*) where
  store : σ
  lock : RwLock
  phase : Tid → Phase Op Ret L

/-- A step of a thread. -/
inductive Action (Tid Op : Type*)
  | invoke (t : Tid) (op : Op)
  | acquire (t : Tid)
  | advance (t : Tid)
  | respond (t : Tid)

namespace Guarded

variable {σ Tid Op Ret L : Type*}

/-- No thread has called a method yet. -/
def start (s : σ) : Guarded σ Tid Op Ret L :=
  { store := s, lock := .free, phase := fun _ => .idle }

/-- The event of a step. -/
def event (c : Guarded σ Tid Op Ret L) : Action Tid Op → Option (Event Tid Op Ret)
  | .invoke t op => some (.invoke t op)
  | .respond t =>
      match c.phase t with
      | .leaving r => some (.respond t r)
      | _ => none
  | _ => none

/-- A thread is inside a method. -/
def IsInside (c : Guarded σ Tid Op Ret L) (t : Tid) : Prop :=
  ∃ op l, c.phase t = .inside op l

theorem isInside_inside {c : Guarded σ Tid Op Ret L} {t : Tid} {op : Op} {l : L}
    (h : c.phase t = .inside op l) : c.IsInside t := ⟨op, l, h⟩

theorem not_isInside_idle {c : Guarded σ Tid Op Ret L} {t : Tid} (h : c.phase t = .idle) :
    ¬ c.IsInside t := by
  rintro ⟨op, l, hinside⟩
  rw [h] at hinside
  cases hinside

theorem not_isInside_waiting {c : Guarded σ Tid Op Ret L} {t : Tid} {op : Op}
    (h : c.phase t = .waiting op) : ¬ c.IsInside t := by
  rintro ⟨op', l, hinside⟩
  rw [h] at hinside
  cases hinside

theorem not_isInside_leaving {c : Guarded σ Tid Op Ret L} {t : Tid} {r : Ret}
    (h : c.phase t = .leaving r) : ¬ c.IsInside t := by
  rintro ⟨op, l, hinside⟩
  rw [h] at hinside
  cases hinside

/-- After `n` forgotten releases, `R` are the threads that are inside: the readers of the
lock are these threads and the forgotten ones, or a single thread is inside an exclusive
method. -/
structure Locked (M : Methods σ Op Ret L) (n : ℕ) (c : Guarded σ Tid Op Ret L)
    (R : Finset Tid) : Prop where
  inside : ∀ t, t ∈ R ↔ c.IsInside t
  shared : c.lock.writer = false →
    c.lock.readers = R.card + n ∧ ∀ t op l, c.phase t = .inside op l → M.exclusive op = false
  exclusive : c.lock.writer = true →
    n = 0 ∧ c.lock.readers = 0 ∧
      ∃ t op l, R = {t} ∧ c.phase t = .inside op l ∧ M.exclusive op = true

theorem locked_start (M : Methods σ Op Ret L) (s : σ) :
    Locked M 0 (start s : Guarded σ Tid Op Ret L) ∅ where
  inside t := by simp [IsInside, start]
  shared _ := ⟨rfl, fun t op l h => by cases h⟩
  exclusive h := by cases h

namespace Locked

variable {M : Methods σ Op Ret L} {n : ℕ} {c : Guarded σ Tid Op Ret L} {R : Finset Tid}
  {t : Tid} {op : Op} {l : L}

/-- A thread inside an exclusive method is inside alone, and the lock is not shared. -/
theorem of_exclusive (h : Locked M n c R) (hphase : c.phase t = .inside op l)
    (hop : M.exclusive op = true) : c.lock.writer = true ∧ n = 0 ∧ R = {t} := by
  cases hwriter : c.lock.writer with
  | false =>
      have hshared := (h.shared hwriter).2 t op l hphase
      rw [hop] at hshared
      cases hshared
  | true =>
      obtain ⟨hn, -, t', op', l', rfl, -⟩ := h.exclusive hwriter
      have hmem := (h.inside t).2 (isInside_inside hphase)
      rw [Finset.mem_singleton] at hmem
      exact ⟨rfl, hn, by rw [hmem]⟩

theorem writer_eq_false (h : Locked M n c R) (hphase : c.phase t = .inside op l)
    (hop : M.exclusive op = false) : c.lock.writer = false := by
  cases hwriter : c.lock.writer with
  | false => rfl
  | true =>
      obtain ⟨-, -, t', op', l', rfl, hphase', hop'⟩ := h.exclusive hwriter
      have hmem := (h.inside t).2 (isInside_inside hphase)
      rw [Finset.mem_singleton] at hmem
      subst hmem
      rw [hphase] at hphase'
      cases hphase'
      rw [hop] at hop'
      cases hop'

/-- While a thread is inside an exclusive method, no other thread is inside a method. -/
theorem eq_of_exclusive (h : Locked M n c R) (hphase : c.phase t = .inside op l)
    (hop : M.exclusive op = true) {t' : Tid} (hinside : c.IsInside t') : t' = t := by
  have hmem := (h.inside t').2 hinside
  rw [(h.of_exclusive hphase hop).2.2, Finset.mem_singleton] at hmem
  exact hmem

end Locked

variable [DecidableEq Tid] (M : Methods σ Op Ret L)

/-- The state after a thread inside a method has made a step of it. -/
def advance (c : Guarded σ Tid Op Ret L) (t : Tid) (op : Op) :
    Outcome L Ret × σ → Guarded σ Tid Op Ret L
  | (.next l, s) => { c with store := s, phase := update c.phase t (.inside op l) }
  | (.done r unlock, s) =>
      { store := s, lock := if unlock then c.lock.unlock else c.lock,
        phase := update c.phase t (.leaving r) }

/-- The steps of the threads. -/
def step (c : Guarded σ Tid Op Ret L) : Action Tid Op → Option (Guarded σ Tid Op Ret L)
  | .invoke t op =>
      match c.phase t with
      | .idle => some { c with phase := update c.phase t (.waiting op) }
      | _ => none
  | .acquire t =>
      match c.phase t with
      | .waiting op => (c.lock.acquire (M.exclusive op)).map fun lock =>
          { c with lock := lock, phase := update c.phase t (.inside op (M.start op)) }
      | _ => none
  | .advance t =>
      match c.phase t with
      | .inside op l => (M.body op l c.store).map (c.advance t op)
      | _ => none
  | .respond t =>
      match c.phase t with
      | .leaving _ => some { c with phase := update c.phase t .idle }
      | _ => none

/-- The thread that answers in a step without giving the lock back. -/
def forgotten (c : Guarded σ Tid Op Ret L) : Action Tid Op → Option Tid
  | .advance t =>
      match c.phase t with
      | .inside op l =>
          match M.body op l c.store with
          | some (.done _ false, _) => some t
          | _ => none
      | _ => none
  | _ => none

variable {M}

/-- What a step has done, by its action. -/
inductive Stepped (M : Methods σ Op Ret L) (c : Guarded σ Tid Op Ret L) :
    Action Tid Op → Guarded σ Tid Op Ret L → Prop
  | invoke {t : Tid} {op : Op} (hphase : c.phase t = .idle) :
      Stepped M c (.invoke t op) { c with phase := update c.phase t (.waiting op) }
  | acquire {t : Tid} {op : Op} {lock : RwLock} (hphase : c.phase t = .waiting op)
      (hlock : c.lock.acquire (M.exclusive op) = some lock) :
      Stepped M c (.acquire t)
        { c with lock := lock, phase := update c.phase t (.inside op (M.start op)) }
  | next {t : Tid} {op : Op} {l l' : L} {s : σ} (hphase : c.phase t = .inside op l)
      (hbody : M.body op l c.store = some (.next l', s)) :
      Stepped M c (.advance t)
        { c with store := s, phase := update c.phase t (.inside op l') }
  | done {t : Tid} {op : Op} {l : L} {r : Ret} {unlock : Bool} {s : σ}
      (hphase : c.phase t = .inside op l)
      (hbody : M.body op l c.store = some (.done r unlock, s)) :
      Stepped M c (.advance t)
        { store := s, lock := if unlock then c.lock.unlock else c.lock,
          phase := update c.phase t (.leaving r) }
  | respond {t : Tid} {r : Ret} (hphase : c.phase t = .leaving r) :
      Stepped M c (.respond t) { c with phase := update c.phase t .idle }

theorem stepped_of_step {c c' : Guarded σ Tid Op Ret L} {a : Action Tid Op}
    (h : c.step M a = some c') : Stepped M c a c' := by
  cases a with
  | invoke t op =>
      rw [step] at h
      cases hphase : c.phase t <;> rw [hphase] at h <;> cases h
      exact .invoke hphase
  | acquire t =>
      rw [step] at h
      cases hphase : c.phase t <;> rw [hphase] at h <;> try cases h
      obtain ⟨lock, hlock, rfl⟩ := Option.map_eq_some_iff.1 h
      exact .acquire hphase hlock
  | advance t =>
      rw [step] at h
      cases hphase : c.phase t <;> rw [hphase] at h <;> try cases h
      obtain ⟨⟨outcome, s⟩, hbody, rfl⟩ := Option.map_eq_some_iff.1 h
      cases outcome with
      | next l' => exact .next hphase hbody
      | done r unlock => exact .done hphase hbody
  | respond t =>
      rw [step] at h
      cases hphase : c.phase t <;> rw [hphase] at h <;> cases h
      exact .respond hphase

/-- A step of one thread moves no other thread. -/
theorem isInside_of_ne {c c' : Guarded σ Tid Op Ret L} {t t' : Tid} {p : Phase Op Ret L}
    (hphase : c'.phase = update c.phase t p) (hne : t' ≠ t) :
    c'.IsInside t' ↔ c.IsInside t' := by
  rw [IsInside, IsInside, hphase, update_of_ne hne]

namespace Locked

variable {n : ℕ} {c : Guarded σ Tid Op Ret L} {R : Finset Tid} {t : Tid} {op : Op} {l : L}

/-- A step outside the methods that leaves the lock alone. -/
theorem outside {c' : Guarded σ Tid Op Ret L} {p : Phase Op Ret L} (h : Locked M n c R)
    (ht : ¬ c.IsInside t) (hlock : c'.lock = c.lock) (hphase : c'.phase = update c.phase t p)
    (hp : ∀ op l, p ≠ .inside op l) : Locked M n c' R := by
  have ht' : ¬ c'.IsInside t := by
    rintro ⟨op, l, hinside⟩
    rw [hphase, update_self] at hinside
    exact hp op l hinside
  have hother : ∀ t' op l, c'.phase t' = .inside op l → c.phase t' = .inside op l := by
    intro t' op l hinside
    have hne : t' ≠ t := by
      rintro rfl
      exact ht' (isInside_inside hinside)
    rwa [hphase, update_of_ne hne] at hinside
  constructor
  · intro t'
    by_cases hne : t' = t
    · subst hne
      rw [h.inside]
      exact iff_of_false ht ht'
    · rw [h.inside, isInside_of_ne hphase hne]
  · intro hwriter
    rw [hlock] at hwriter ⊢
    obtain ⟨hreaders, hshared⟩ := h.shared hwriter
    exact ⟨hreaders, fun t' op l hinside => hshared t' op l (hother t' op l hinside)⟩
  · intro hwriter
    rw [hlock] at hwriter ⊢
    obtain ⟨hn, hreaders, t', op, l, rfl, hphase', hop⟩ := h.exclusive hwriter
    have hne : t' ≠ t := by
      rintro rfl
      exact ht (isInside_inside hphase')
    refine ⟨hn, hreaders, t', op, l, rfl, ?_, hop⟩
    rw [hphase, update_of_ne hne]
    exact hphase'

/-- A step within a method leaves the threads inside and the lock as they are. -/
theorem within {c' : Guarded σ Tid Op Ret L} {l' : L} (h : Locked M n c R)
    (ht : c.phase t = .inside op l) (hlock : c'.lock = c.lock)
    (hphase : c'.phase = update c.phase t (.inside op l')) : Locked M n c' R := by
  have hself : c'.phase t = .inside op l' := by rw [hphase, update_self]
  constructor
  · intro t'
    by_cases hne : t' = t
    · subst hne
      rw [h.inside]
      exact iff_of_true (isInside_inside ht) (isInside_inside hself)
    · rw [h.inside, isInside_of_ne hphase hne]
  · intro hwriter
    rw [hlock] at hwriter ⊢
    obtain ⟨hreaders, hshared⟩ := h.shared hwriter
    refine ⟨hreaders, fun t' op' l'' hinside => ?_⟩
    by_cases hne : t' = t
    · subst hne
      rw [hself] at hinside
      cases hinside
      exact hshared t' op l ht
    · rw [hphase, update_of_ne hne] at hinside
      exact hshared t' op' l'' hinside
  · intro hwriter
    rw [hlock] at hwriter ⊢
    obtain ⟨hn, hreaders, t', op', l'', rfl, hphase', hop⟩ := h.exclusive hwriter
    have hmem := (h.inside t).2 (isInside_inside ht)
    rw [Finset.mem_singleton] at hmem
    subst hmem
    rw [ht] at hphase'
    cases hphase'
    exact ⟨hn, hreaders, t, op, l', rfl, hself, hop⟩

/-- A thread that takes the lock joins those inside. -/
theorem acquire {c' : Guarded σ Tid Op Ret L} (h : Locked M n c R) (ht : c.phase t = .waiting op)
    (hlock : c.lock.acquire (M.exclusive op) = some c'.lock)
    (hphase : c'.phase = update c.phase t (.inside op (M.start op))) :
    Locked M n c' (insert t R) := by
  have hself : c'.phase t = .inside op (M.start op) := by rw [hphase, update_self]
  have hnot : t ∉ R := fun hmem => not_isInside_waiting ht ((h.inside t).1 hmem)
  have hinside : ∀ t', t' ∈ insert t R ↔ c'.IsInside t' := by
    intro t'
    by_cases hne : t' = t
    · subst hne
      exact iff_of_true (Finset.mem_insert_self t' R) (isInside_inside hself)
    · rw [Finset.mem_insert, or_iff_right hne, h.inside, isInside_of_ne hphase hne]
  rw [RwLock.acquire] at hlock
  cases hop : M.exclusive op with
  | true =>
      rw [hop, if_pos rfl, RwLock.wrlock_eq_some_iff] at hlock
      obtain ⟨hwriter, hreaders, hlock'⟩ := hlock
      have hshared := (h.shared hwriter).1
      have hempty : R = ∅ := Finset.card_eq_zero.1 (by omega)
      refine ⟨hinside, fun hfalse => ?_, fun _ => ⟨by omega, ?_, ?_⟩⟩
      · rw [hlock'] at hfalse
        cases hfalse
      · rw [hlock']
        exact hreaders
      · refine ⟨t, op, M.start op, ?_, hself, hop⟩
        rw [hempty, insert_empty_eq]
  | false =>
      rw [hop, if_neg Bool.false_ne_true, RwLock.rdlock_eq_some_iff] at hlock
      obtain ⟨hwriter, hlock'⟩ := hlock
      obtain ⟨hreaders, hshared⟩ := h.shared hwriter
      refine ⟨hinside, fun _ => ⟨?_, ?_⟩, fun htrue => ?_⟩
      · rw [hlock', Finset.card_insert_of_notMem hnot]
        show c.lock.readers + 1 = R.card + 1 + n
        omega
      · intro t' op' l' hphase'
        by_cases hne : t' = t
        · subst hne
          rw [hself] at hphase'
          cases hphase'
          exact hop
        · rw [hphase, update_of_ne hne] at hphase'
          exact hshared t' op' l' hphase'
      · rw [hlock'] at htrue
        exact absurd htrue (by simp [hwriter])

/-- A thread that answers is no longer inside; if it has not given the lock back, a reader of
the lock is left. -/
theorem done {c' : Guarded σ Tid Op Ret L} {r : Ret} {unlock : Bool} (h : Locked M n c R)
    (ht : c.phase t = .inside op l) (hunlock : M.exclusive op = true → unlock = true)
    (hlock : c'.lock = if unlock then c.lock.unlock else c.lock)
    (hphase : c'.phase = update c.phase t (.leaving r)) :
    Locked M (n + if unlock then 0 else 1) c' (R.erase t) := by
  have hself : c'.phase t = .leaving r := by rw [hphase, update_self]
  have hmem : t ∈ R := (h.inside t).2 (isInside_inside ht)
  have hinside : ∀ t', t' ∈ R.erase t ↔ c'.IsInside t' := by
    intro t'
    by_cases hne : t' = t
    · subst hne
      exact iff_of_false (Finset.notMem_erase t' R) (not_isInside_leaving hself)
    · rw [Finset.mem_erase, and_iff_right hne, h.inside, isInside_of_ne hphase hne]
  have hothers : ∀ t' op' l', c'.phase t' = .inside op' l' →
      t' ≠ t ∧ c.phase t' = .inside op' l' := by
    intro t' op' l' hphase'
    have hne : t' ≠ t := by
      rintro rfl
      rw [hself] at hphase'
      cases hphase'
    rw [hphase, update_of_ne hne] at hphase'
    exact ⟨hne, hphase'⟩
  cases hop : M.exclusive op with
  | true =>
      obtain ⟨hwriter, rfl, hR⟩ := h.of_exclusive ht hop
      have hreaders := (h.exclusive hwriter).2.1
      cases hunlock hop
      rw [if_pos rfl, RwLock.unlock, if_pos hwriter] at hlock
      refine ⟨hinside, fun _ => ⟨?_, ?_⟩, fun htrue => ?_⟩
      · rw [hlock, hR, Finset.erase_singleton]
        exact hreaders
      · intro t' op' l' hphase'
        obtain ⟨hne, hphase'⟩ := hothers t' op' l' hphase'
        exact absurd (h.eq_of_exclusive ht hop (isInside_inside hphase')) hne
      · rw [hlock] at htrue
        cases htrue
  | false =>
      have hwriter := h.writer_eq_false ht hop
      obtain ⟨hreaders, hshared⟩ := h.shared hwriter
      have hcard := Finset.card_erase_of_mem hmem
      have hpos : 0 < R.card := Finset.card_pos.2 ⟨t, hmem⟩
      have hrelease : c.lock.unlock = { c.lock with readers := c.lock.readers - 1 } := by
        rw [RwLock.unlock, if_neg (by simp [hwriter])]
      rw [hrelease] at hlock
      refine ⟨hinside, fun _ => ⟨?_, ?_⟩, fun htrue => ?_⟩
      · rw [hlock, hcard]
        cases unlock with
        | true =>
            simp only [if_true]
            omega
        | false =>
            simp only [Bool.false_eq_true, if_false]
            omega
      · intro t' op' l' hphase'
        exact hshared t' op' l' (hothers t' op' l' hphase').2
      · have hsame : c'.lock.writer = c.lock.writer := by
          rw [hlock]
          split_ifs <;> rfl
        rw [hsame, hwriter] at htrue
        cases htrue

end Locked

/-- The exclusive methods give the lock back. -/
def Releases (M : Methods σ Op Ret L) : Prop :=
  ∀ op l s r unlock s', M.exclusive op = true →
    M.body op l s = some (.done r unlock, s') → unlock = true

/-- One step, by its action; `forgotten` is counted. -/
theorem locked_step (hM : Releases M) {n : ℕ} {c c' : Guarded σ Tid Op Ret L} {R : Finset Tid}
    {a : Action Tid Op} (h : Locked M n c R) (hstep : c.step M a = some c') :
    ∃ R', Locked M (n + (c.forgotten M a).toList.length) c' R' := by
  cases stepped_of_step hstep with
  | invoke hphase =>
      exact ⟨R, h.outside (not_isInside_idle hphase) rfl rfl (fun op l hp => by cases hp)⟩
  | acquire hphase hlock => exact ⟨_, h.acquire hphase hlock rfl⟩
  | next hphase hbody =>
      refine ⟨R, ?_⟩
      simp only [forgotten, hphase, hbody]
      exact h.within hphase rfl rfl
  | @done t op l r unlock s hphase hbody =>
      refine ⟨R.erase t, ?_⟩
      have hcount : (c.forgotten M (.advance t)).toList.length = if unlock then 0 else 1 := by
        cases unlock <;> simp [forgotten, hphase, hbody]
      rw [hcount]
      exact h.done hphase (fun hop => hM op l _ r unlock s hop hbody) rfl rfl
  | respond hphase =>
      exact ⟨R, h.outside (not_isInside_leaving hphase) rfl rfl (fun op l hp => by cases hp)⟩

/-- In every state that a run reaches the lock counts the threads inside and the forgotten
releases of the run. -/
theorem locked_of_run (hM : Releases M) {s : σ} {as : List (Action Tid Op)}
    {c : Guarded σ Tid Op Ret L} (hrun : run? (step M) (start s) as = some c) :
    ∃ R, Locked M (observed (step M) (forgotten M) (start s) as).length c R := by
  have hstep : ∀ n (c : Guarded σ Tid Op Ret L) a c', (∃ R, Locked M n c R) →
      step M c a = some c' → ∃ R, Locked M (n + (c.forgotten M a).toList.length) c' R := by
    rintro n c a c' ⟨R, hR⟩ hc
    exact locked_step hM hR hc
  have hfamily := family_of_run hstep ⟨∅, locked_start M s⟩ hrun
  rwa [Nat.zero_add] at hfamily

/-- `answer op l s` is what a method answers, and the state it leaves, when it goes on alone
from its local state `l` and the shared state `s`; from the beginning that is what the
specification says. -/
structure Implements (M : Methods σ Op Ret L) (spec : σ → Op → Option (Ret × σ))
    (I : σ → Prop) (answer : Op → L → σ → Option (Ret × σ)) : Prop where
  start : ∀ op s, I s → answer op (M.start op) s = spec s op
  next : ∀ op l s l' s', I s → M.body op l s = some (.next l', s') →
    answer op l' s' = answer op l s ∧ I s'
  done : ∀ op l s r unlock s', I s → M.body op l s = some (.done r unlock, s') →
    answer op l s = some (r, s') ∧ I s'
  readOnly : ∀ op l s outcome s', M.exclusive op = false →
    M.body op l s = some (outcome, s') → s' = s
  releases : Releases M

/-- The threads as an atomic object sees them: a method that is inside will answer what the
specification answers, and without an exclusive one the states agree. -/
structure Related (M : Methods σ Op Ret L) (spec : σ → Op → Option (Ret × σ)) (I : σ → Prop)
    (answer : Op → L → σ → Option (Ret × σ)) (c : Guarded σ Tid Op Ret L)
    (o : AtomicObject σ Tid Op Ret) : Prop where
  locked : ∃ n R, Locked M n c R
  good : I c.store
  call : o.call = Phase.call ∘ c.phase
  pending : ∀ t op l, c.phase t = .inside op l → answer op l c.store = spec o.state op
  agree : (∀ t op l, c.phase t = .inside op l → M.exclusive op = false) → c.store = o.state

section Simulation

variable {spec : σ → Op → Option (Ret × σ)} {I : σ → Prop}
  {answer : Op → L → σ → Option (Ret × σ)}

omit [DecidableEq Tid] in
theorem related_start {s : σ} (hs : I s) :
    Related M spec I answer (start s : Guarded σ Tid Op Ret L) (AtomicObject.start s) where
  locked := ⟨0, ∅, locked_start M s⟩
  good := hs
  call := rfl
  pending t op l h := by cases h
  agree _ := rfl

omit [DecidableEq Tid] in
theorem Related.call_eq {c : Guarded σ Tid Op Ret L} {o : AtomicObject σ Tid Op Ret}
    (h : Related M spec I answer c o) {t : Tid} {p : Phase Op Ret L} (ht : c.phase t = p) :
    o.call t = p.call := by
  rw [h.call, Function.comp_apply, ht]

theorem Related.call_update {c : Guarded σ Tid Op Ret L} {o : AtomicObject σ Tid Op Ret}
    (h : Related M spec I answer c o) (t : Tid) (p : Phase Op Ret L) :
    update o.call t p.call = Phase.call ∘ update c.phase t p := by
  rw [h.call, comp_update]

/-- A step of a thread outside the methods. -/
theorem Related.outside {c c' : Guarded σ Tid Op Ret L} {o : AtomicObject σ Tid Op Ret}
    (h : Related M spec I answer c o) {t : Tid} {p : Phase Op Ret L} (ht : ¬ c.IsInside t)
    (hp : ∀ op l, p ≠ .inside op l) (hlock : c'.lock = c.lock) (hstore : c'.store = c.store)
    (hphase : c'.phase = update c.phase t p) :
    Related M spec I answer c' { o with call := update o.call t p.call } := by
  have hother : ∀ t' op l, c'.phase t' = .inside op l ↔ c.phase t' = .inside op l := by
    intro t' op l
    by_cases hne : t' = t
    · subst hne
      rw [hphase, update_self]
      exact iff_of_false (hp op l) fun hinside => ht (isInside_inside hinside)
    · rw [hphase, update_of_ne hne]
  constructor
  · obtain ⟨n, R, hR⟩ := h.locked
    exact ⟨n, R, hR.outside ht hlock hphase hp⟩
  · rw [hstore]
    exact h.good
  · rw [hphase]
    exact h.call_update t p
  · intro t' op l hinside
    rw [hstore]
    exact h.pending t' op l ((hother t' op l).1 hinside)
  · intro hshared
    rw [hstore]
    exact h.agree fun t' op l hinside => hshared t' op l ((hother t' op l).2 hinside)

/-- A thread that takes the lock finds the state of the atomic object. -/
theorem Related.acquire {c : Guarded σ Tid Op Ret L} {o : AtomicObject σ Tid Op Ret}
    (hM : Implements M spec I answer) (h : Related M spec I answer c o) {t : Tid} {op : Op}
    {lock : RwLock} (ht : c.phase t = .waiting op)
    (hlock : c.lock.acquire (M.exclusive op) = some lock) :
    Related M spec I answer
      { c with lock := lock, phase := update c.phase t (.inside op (M.start op)) } o := by
  obtain ⟨n, R, hR⟩ := h.locked
  have hwriter := RwLock.writer_of_acquire hlock
  have hagree : c.store = o.state := h.agree (hR.shared hwriter).2
  constructor
  · exact ⟨n, insert t R, hR.acquire ht hlock rfl⟩
  · exact h.good
  · rw [← h.call_update t (.inside op (M.start op)), eq_comm, update_eq_self_iff,
      h.call_eq ht]
    rfl
  · intro t' op' l' hinside
    by_cases hne : t' = t
    · subst hne
      have hself : Phase.inside op (M.start op) = Phase.inside op' l' :=
        (update_self t' _ c.phase).symm.trans hinside
      cases hself
      rw [← hagree]
      exact hM.start op c.store h.good
    · exact h.pending t' op' l' ((update_of_ne hne _ c.phase).symm.trans hinside)
  · exact fun _ => hagree

/-- A step within a method does not change what the method answers. -/
theorem Related.next {c : Guarded σ Tid Op Ret L} {o : AtomicObject σ Tid Op Ret}
    (hM : Implements M spec I answer) (h : Related M spec I answer c o) {t : Tid} {op : Op}
    {l l' : L} {s : σ} (ht : c.phase t = .inside op l)
    (hbody : M.body op l c.store = some (.next l', s)) :
    Related M spec I answer
      { c with store := s, phase := update c.phase t (.inside op l') } o := by
  obtain ⟨n, R, hR⟩ := h.locked
  obtain ⟨hanswer, hgood⟩ := hM.next op l c.store l' s h.good hbody
  constructor
  · exact ⟨n, R, hR.within ht rfl rfl⟩
  · exact hgood
  · rw [← h.call_update t (.inside op l'), eq_comm, update_eq_self_iff, h.call_eq ht]
    rfl
  · intro t' op' l'' hinside
    by_cases hne : t' = t
    · subst hne
      have hself : Phase.inside op l' = Phase.inside op' l'' :=
        (update_self t' _ c.phase).symm.trans hinside
      cases hself
      exact hanswer.trans (h.pending t' op l ht)
    · have hinside' : c.phase t' = .inside op' l'' :=
        (update_of_ne hne _ c.phase).symm.trans hinside
      cases hop : M.exclusive op with
      | true => exact absurd (hR.eq_of_exclusive ht hop (isInside_inside hinside')) hne
      | false =>
          cases hM.readOnly op l c.store _ s hop hbody
          exact h.pending t' op' l'' hinside'
  · intro hshared
    have hop : M.exclusive op = false := hshared t op l' (update_self t _ c.phase)
    cases hM.readOnly op l c.store _ s hop hbody
    exact h.agree (hR.shared (hR.writer_eq_false ht hop)).2

/-- The operation takes effect when its method answers. -/
theorem Related.done {c : Guarded σ Tid Op Ret L} {o : AtomicObject σ Tid Op Ret}
    (hM : Implements M spec I answer) (h : Related M spec I answer c o) {t : Tid} {op : Op}
    {l : L} {r : Ret} {unlock : Bool} {s : σ} (ht : c.phase t = .inside op l)
    (hbody : M.body op l c.store = some (.done r unlock, s)) :
    spec o.state op = some (r, s) ∧ Related M spec I answer
      { store := s, lock := if unlock then c.lock.unlock else c.lock,
        phase := update c.phase t (.leaving r) }
      { state := s, call := update o.call t (.answered r) } := by
  obtain ⟨n, R, hR⟩ := h.locked
  obtain ⟨hanswer, hgood⟩ := hM.done op l c.store r unlock s h.good hbody
  refine ⟨(h.pending t op l ht).symm.trans hanswer, ?_, hgood, ?_, ?_, fun _ => rfl⟩
  · exact ⟨_, _, hR.done ht (fun hop => hM.releases op l _ r unlock s hop hbody) rfl rfl⟩
  · exact h.call_update t (.leaving r)
  · intro t' op' l' hinside
    have hne : t' ≠ t := by
      rintro rfl
      have hself : Phase.leaving r = Phase.inside op' l' :=
        (update_self t' _ c.phase).symm.trans hinside
      cases hself
    have hinside' : c.phase t' = .inside op' l' :=
      (update_of_ne hne _ c.phase).symm.trans hinside
    cases hop : M.exclusive op with
    | true => exact absurd (hR.eq_of_exclusive ht hop (isInside_inside hinside')) hne
    | false =>
        cases hM.readOnly op l c.store _ s hop hbody
        have hagree := h.agree (hR.shared (hR.writer_eq_false ht hop)).2
        show answer op' l' c.store = spec c.store op'
        rw [h.pending t' op' l' hinside', ← hagree]

/-- The methods behind their lock are simulated by the atomic object: a call takes effect
when its method answers. -/
theorem simulates_atomicObject (hM : Implements M spec I answer) :
    Simulates (step M) (event : Guarded σ Tid Op Ret L → _ → _) (AtomicObject.step spec)
      AtomicObject.event (Related M spec I answer) := by
  intro c o a c' h hstep
  cases stepped_of_step hstep with
  | @invoke t op hphase =>
      have hcall : o.call t = .idle := h.call_eq hphase
      have hstep' : o.step spec (.invoke t op) = some _ := AtomicObject.step_invoke hcall
      refine ⟨[.invoke t op], _, ?_, observed_singleton hstep', h.outside
        (not_isInside_idle hphase) (fun op l hp => by cases hp) rfl rfl rfl⟩
      rw [run?_cons, hstep']
      rfl
  | acquire hphase hlock => exact ⟨[], o, rfl, rfl, h.acquire hM hphase hlock⟩
  | next hphase hbody => exact ⟨[], o, rfl, rfl, h.next hM hphase hbody⟩
  | @done t op l r unlock s hphase hbody =>
      obtain ⟨hspec, hrelated⟩ := h.done hM hphase hbody
      have hcall : o.call t = .pending op := h.call_eq hphase
      have hstep' := AtomicObject.step_commit hcall hspec
      refine ⟨[.commit t], _, ?_, observed_singleton hstep', hrelated⟩
      rw [run?_cons, hstep']
      rfl
  | @respond t r hphase =>
      have hcall : o.call t = .answered r := h.call_eq hphase
      have hstep' : o.step spec (.respond t) = some _ := AtomicObject.step_respond hcall
      refine ⟨[.respond t], _, ?_, ?_, h.outside
        (not_isInside_leaving hphase) (fun op l hp => by cases hp) rfl rfl rfl⟩
      · rw [run?_cons, hstep']
        rfl
      · rw [observed_singleton hstep', AtomicObject.event_respond hcall, event, hphase]

end Simulation

/-- When no thread is inside, a thread that waits gets the lock, except for an exclusive
method after a release was forgotten. -/
theorem acquire_isSome_iff (hM : Releases M) {s : σ} {as : List (Action Tid Op)}
    {c : Guarded σ Tid Op Ret L} (hrun : run? (step M) (start s) as = some c)
    (hnobody : ∀ t, ¬ c.IsInside t) {t : Tid} {op : Op} (ht : c.phase t = .waiting op) :
    (c.step M (.acquire t)).isSome ↔
      M.exclusive op = false ∨ observed (step M) (forgotten M) (start s) as = [] := by
  obtain ⟨R, hR⟩ := locked_of_run hM hrun
  have hempty : R = ∅ := by
    apply Finset.eq_empty_of_forall_notMem
    exact fun t' hmem => hnobody t' ((hR.inside t').1 hmem)
  have hwriter : c.lock.writer = false := by
    cases hw : c.lock.writer with
    | false => rfl
    | true =>
        obtain ⟨-, -, t', op', l, -, hphase, -⟩ := hR.exclusive hw
        exact absurd (isInside_inside hphase) (hnobody t')
  have hreaders := (hR.shared hwriter).1
  rw [hempty, Finset.card_empty, Nat.zero_add] at hreaders
  simp only [step, ht, Option.isSome_map, RwLock.acquire, RwLock.wrlock, RwLock.rdlock, hwriter,
    hreaders]
  cases M.exclusive op <;> simp

/-- After a release was forgotten no thread gets the lock for an exclusive method. -/
theorem acquire_eq_none_of_forgotten (hM : Releases M) {s : σ} {as : List (Action Tid Op)}
    {c : Guarded σ Tid Op Ret L} (hrun : run? (step M) (start s) as = some c)
    (hforgotten : observed (step M) (forgotten M) (start s) as ≠ []) {t : Tid} {op : Op}
    (ht : c.phase t = .waiting op) (hop : M.exclusive op = true) :
    c.step M (.acquire t) = none := by
  obtain ⟨R, hR⟩ := locked_of_run hM hrun
  have hpos := List.length_pos_iff.2 hforgotten
  have hbusy : c.lock.writer = true ∨ c.lock.readers ≠ 0 := by
    cases hw : c.lock.writer with
    | true => exact Or.inl rfl
    | false =>
        have hreaders := (hR.shared hw).1
        exact Or.inr (by omega)
  simp only [step, ht, RwLock.acquire, RwLock.wrlock, hop, if_true, if_pos hbusy,
    Option.map_none]

/-- While a thread is inside an exclusive method, no other thread is inside a method. -/
theorem exclusive_alone (hM : Releases M) {s : σ} {as : List (Action Tid Op)}
    {c : Guarded σ Tid Op Ret L} (hrun : run? (step M) (start s) as = some c) {t t' : Tid}
    {op : Op} {l : L} (ht : c.phase t = .inside op l) (hop : M.exclusive op = true)
    (hinside : c.IsInside t') : t' = t := by
  obtain ⟨R, hR⟩ := locked_of_run hM hrun
  exact hR.eq_of_exclusive ht hop hinside

end Guarded

end Linearizability
