import Mathlib.Logic.Function.Basic
import Sdskv.Transition.Simulation

/-!
# Atomic objects

An object is shared by the threads of `Tid`. A thread invokes an operation, at some later
moment the operation takes effect, and then the thread gets its answer. The effect of an
operation is a single step `commit`, which changes the state of the object as the sequential
specification `spec` says; an operation that does not return has no effect.

A history of invocations and answers is linearizable when it is what the threads of such an
object see: every operation that was answered has taken effect at one moment between its
invocation and its answer, and in the order of these moments the answers are those of the
sequential specification (`replays_committed`).
-/

namespace Linearizability

open Transition

/-- What the threads see of an object. -/
inductive Event (Tid Op Ret : Type*)
  | invoke (t : Tid) (op : Op)
  | respond (t : Tid) (r : Ret)

/-- The call of a thread. -/
inductive Call (Op Ret : Type*)
  | idle
  | pending (op : Op)
  | answered (r : Ret)

/-- An action of a thread on an atomic object. -/
inductive AtomicAction (Tid Op : Type*)
  | invoke (t : Tid) (op : Op)
  | commit (t : Tid)
  | respond (t : Tid)

/-- A shared object whose operations take effect in one step. -/
structure AtomicObject (σ Tid Op Ret : Type*) where
  state : σ
  call : Tid → Call Op Ret

namespace AtomicObject

variable {σ Tid Op Ret : Type*}

/-- Nobody has called the object yet. -/
def start (s : σ) : AtomicObject σ Tid Op Ret :=
  { state := s, call := fun _ => .idle }

variable [DecidableEq Tid] (spec : σ → Op → Option (Ret × σ))

/-- The steps of the object. -/
def step (o : AtomicObject σ Tid Op Ret) :
    AtomicAction Tid Op → Option (AtomicObject σ Tid Op Ret)
  | .invoke t op =>
      match o.call t with
      | .idle => some { o with call := Function.update o.call t (.pending op) }
      | _ => none
  | .commit t =>
      match o.call t with
      | .pending op => (spec o.state op).map fun (r, s) =>
          { state := s, call := Function.update o.call t (.answered r) }
      | _ => none
  | .respond t =>
      match o.call t with
      | .answered _ => some { o with call := Function.update o.call t .idle }
      | _ => none

/-- The event of a step. -/
def event (o : AtomicObject σ Tid Op Ret) : AtomicAction Tid Op → Option (Event Tid Op Ret)
  | .invoke t op => some (.invoke t op)
  | .commit _ => none
  | .respond t =>
      match o.call t with
      | .answered r => some (.respond t r)
      | _ => none

/-- The operation that takes effect in a step, with its answer. -/
def committed (o : AtomicObject σ Tid Op Ret) : AtomicAction Tid Op → Option (Tid × Op × Ret)
  | .commit t =>
      match o.call t with
      | .pending op => (spec o.state op).map fun (r, _) => (t, op, r)
      | _ => none
  | _ => none

variable {spec} {o : AtomicObject σ Tid Op Ret} {t : Tid} {op : Op} {r : Ret}

theorem step_invoke (h : o.call t = .idle) :
    o.step spec (.invoke t op) =
      some { o with call := Function.update o.call t (.pending op) } := by
  rw [step, h]

theorem step_commit {s : σ} (h : o.call t = .pending op) (hspec : spec o.state op = some (r, s)) :
    o.step spec (.commit t) =
      some { state := s, call := Function.update o.call t (.answered r) } := by
  rw [step, h]
  simp only [hspec, Option.map_some]

theorem step_respond (h : o.call t = .answered r) :
    o.step spec (.respond t) = some { o with call := Function.update o.call t .idle } := by
  rw [step, h]

omit [DecidableEq Tid] in
theorem event_respond (h : o.call t = .answered r) :
    o.event (.respond t) = some (.respond t r) := by
  rw [event, h]

end AtomicObject

variable {σ Tid Op Ret : Type*}

/-- The operations, one after the other, have these answers and lead from the first state to
the last. -/
def Replays (spec : σ → Op → Option (Ret × σ)) : σ → List (Tid × Op × Ret) → σ → Prop
  | s, [], s' => s = s'
  | s, (_, op, r) :: rest, s' => ∃ t, spec s op = some (r, t) ∧ Replays spec t rest s'

variable [DecidableEq Tid] (spec : σ → Op → Option (Ret × σ))

/-- What takes effect in a step of the object is an operation of the specification, and
nothing else changes the state. -/
theorem replays_committed_step {o o' : AtomicObject σ Tid Op Ret} {a : AtomicAction Tid Op}
    (h : o.step spec a = some o') {rest : List (Tid × Op × Ret)} {s : σ}
    (hrest : Replays spec o'.state rest s) :
    Replays spec o.state ((o.committed spec a).toList ++ rest) s := by
  cases a with
  | invoke t op =>
      rw [AtomicObject.step] at h
      cases hcall : o.call t with
      | idle =>
          rw [hcall] at h
          cases h
          exact hrest
      | pending op => simp [hcall] at h
      | answered r => simp [hcall] at h
  | commit t =>
      rw [AtomicObject.step] at h
      rw [AtomicObject.committed]
      cases hcall : o.call t with
      | idle => simp [hcall] at h
      | answered r => simp [hcall] at h
      | pending op =>
          rw [hcall] at h
          obtain ⟨⟨r, s'⟩, hspec, rfl⟩ := Option.map_eq_some_iff.1 h
          simp only [hspec, Option.map_some, Option.toList_some, List.singleton_append]
          exact ⟨s', hspec, hrest⟩
  | respond t =>
      rw [AtomicObject.step] at h
      cases hcall : o.call t with
      | idle => simp [hcall] at h
      | pending op => simp [hcall] at h
      | answered r =>
          rw [hcall] at h
          cases h
          exact hrest

/-- In the order in which they took effect, the operations of a run have the answers of the
sequential specification and lead to the state of the object. -/
theorem replays_committed {o o' : AtomicObject σ Tid Op Ret} {as : List (AtomicAction Tid Op)}
    (hrun : run? (AtomicObject.step spec) o as = some o') :
    Replays spec o.state
      (observed (AtomicObject.step spec) (AtomicObject.committed spec) o as) o'.state := by
  induction as generalizing o with
  | nil =>
      cases hrun
      rfl
  | cons a as ih =>
      obtain ⟨o₁, ho₁, hrun⟩ := Option.bind_eq_some_iff.1 hrun
      rw [observed_cons ho₁]
      exact replays_committed_step spec ho₁ (ih hrun)

/-- A history is what the threads of an atomic object see, and the operations that took
effect lead to the state `s'`. -/
def LinearizableTo (s : σ) (history : List (Event Tid Op Ret)) (o : AtomicObject σ Tid Op Ret) :
    Prop :=
  ∃ bs, run? (AtomicObject.step spec) (AtomicObject.start s) bs = some o ∧
    observed (AtomicObject.step spec) AtomicObject.event (AtomicObject.start s) bs = history ∧
    Replays spec s
      (observed (AtomicObject.step spec) (AtomicObject.committed spec) (AtomicObject.start s) bs)
      o.state

/-- A system that is simulated by an atomic object is linearizable. -/
theorem linearizableTo_of_simulates {τ α : Type*} {step : τ → α → Option τ}
    {vis : τ → α → Option (Event Tid Op Ret)} {R : τ → AtomicObject σ Tid Op Ret → Prop}
    (hsim : Simulates step vis (AtomicObject.step spec) AtomicObject.event R) {c c' : τ} {s : σ}
    {as : List α} (hR : R c (AtomicObject.start s)) (hrun : run? step c as = some c') :
    ∃ o, LinearizableTo spec s (observed step vis c as) o ∧ R c' o := by
  obtain ⟨bs, o, hbs, hvis, hR'⟩ := hsim.exists_run hR hrun
  exact ⟨o, ⟨bs, hbs, hvis, replays_committed spec hbs⟩, hR'⟩

end Linearizability
