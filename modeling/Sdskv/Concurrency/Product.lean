import Sdskv.Concurrency.AtomicObject

/-!
# Many objects at once

A family of systems is one system, in which every step is a step of one of them. When every
member is simulated by an atomic object, the family is simulated by a single atomic object
whose state is the family of the states: linearizability is a local property. A caller of the
family is a caller of one member, so it is the member and the caller there.
-/

namespace Linearizability

open Transition Function

variable {κ σ Tid Op Ret : Type*}

/-- An event of the member `k`. -/
def Event.at (k : κ) : Event Tid Op Ret → Event (κ × Tid) (κ × Op) Ret
  | invoke t op => .invoke (k, t) (k, op)
  | respond t r => .respond (k, t) r

/-- A call of the member `k`. -/
def Call.at (k : κ) : Call Op Ret → Call (κ × Op) Ret
  | idle => .idle
  | pending op => .pending (k, op)
  | answered r => .answered r

/-- An action on the member `k`. -/
def AtomicAction.at (k : κ) : AtomicAction Tid Op → AtomicAction (κ × Tid) (κ × Op)
  | invoke t op => .invoke (k, t) (k, op)
  | commit t => .commit (k, t)
  | respond t => .respond (k, t)

/-- The atomic object made of a family of them. -/
def AtomicObject.pi (o : κ → AtomicObject σ Tid Op Ret) :
    AtomicObject (κ → σ) (κ × Tid) (κ × Op) Ret :=
  { state := fun k => (o k).state, call := fun t => ((o t.1).call t.2).at t.1 }

variable [DecidableEq κ]

/-- The specification of a family of objects: an operation changes the state of its member. -/
def piSpec (spec : σ → Op → Option (Ret × σ)) (s : κ → σ) (op : κ × Op) :
    Option (Ret × (κ → σ)) :=
  (spec (s op.1) op.2).map fun (r, s') => (r, update s op.1 s')

/-- A step of a member of a family. -/
def piStep {τ α : Type*} (step : τ → α → Option τ) (c : κ → τ) (a : κ × α) : Option (κ → τ) :=
  (step (c a.1) a.2).map (update c a.1)

omit [DecidableEq κ] in
/-- The event of a step of a member. -/
def piEvent {τ α : Type*} (vis : τ → α → Option (Event Tid Op Ret)) (c : κ → τ) (a : κ × α) :
    Option (Event (κ × Tid) (κ × Op) Ret) :=
  (vis (c a.1) a.2).map (Event.at a.1)

namespace AtomicObject

omit [DecidableEq κ] in
theorem pi_call_eq {o : κ → AtomicObject σ Tid Op Ret} {k : κ} {t : Tid} {call : Call Op Ret}
    (h : (o k).call t = call) : (pi o).call (k, t) = call.at k :=
  congrArg (Call.at k) h

theorem pi_state_update (o : κ → AtomicObject σ Tid Op Ret) (k : κ)
    (o' : AtomicObject σ Tid Op Ret) :
    (pi (update o k o')).state = update (pi o).state k o'.state := by
  funext k'
  by_cases h : k' = k
  · subst h
    simp [pi]
  · simp [pi, h]

variable [DecidableEq Tid]

theorem pi_call_update (o : κ → AtomicObject σ Tid Op Ret) (k : κ) (t : Tid)
    {o' : AtomicObject σ Tid Op Ret} {call : Call Op Ret}
    (ho' : o'.call = update (o k).call t call) :
    (pi (update o k o')).call = update (pi o).call (k, t) (call.at k) := by
  funext ⟨k', t'⟩
  by_cases hk : k' = k
  · subst hk
    by_cases ht : t' = t
    · subst ht
      simp [pi, ho']
    · simp [pi, ho', ht]
  · simp [pi, hk]

/-- The family after a step of a member that changes its state and the call of `t`. -/
theorem pi_update_eq {o : κ → AtomicObject σ Tid Op Ret} {k : κ} (t : Tid)
    {o' : AtomicObject σ Tid Op Ret} (call : Call Op Ret)
    (ho' : o'.call = update (o k).call t call) :
    pi (update o k o') = { state := update (pi o).state k o'.state,
                           call := update (pi o).call (k, t) (call.at k) } := by
  rw [← pi_state_update o k o', ← pi_call_update o k t ho']

variable {spec : σ → Op → Option (Ret × σ)}

/-- A step of a member is a step of the family. -/
theorem step_pi {o : κ → AtomicObject σ Tid Op Ret} {k : κ} {a : AtomicAction Tid Op}
    {o' : AtomicObject σ Tid Op Ret} (h : (o k).step spec a = some o') :
    (pi o).step (piSpec spec) (a.at k) = some (pi (update o k o')) := by
  cases a with
  | invoke t op =>
      rw [step] at h
      cases hcall : (o k).call t <;> rw [hcall] at h <;> cases h
      have hstate : update (pi o).state k (o k).state = (pi o).state := update_eq_self k _
      rw [pi_update_eq t (.pending op) rfl, AtomicAction.at,
        step_invoke (pi_call_eq hcall), hstate]
      rfl
  | commit t =>
      rw [step] at h
      cases hcall : (o k).call t <;> rw [hcall] at h <;> try cases h
      rename_i op
      obtain ⟨⟨r, s⟩, hspec, rfl⟩ := Option.map_eq_some_iff.1 h
      have hpi : piSpec spec (pi o).state (k, op) = some (r, update (pi o).state k s) :=
        Option.map_eq_some_iff.2 ⟨(r, s), hspec, rfl⟩
      rw [pi_update_eq t (.answered r) rfl, AtomicAction.at,
        step_commit (pi_call_eq hcall) hpi]
      rfl
  | respond t =>
      rw [step] at h
      cases hcall : (o k).call t <;> rw [hcall] at h <;> cases h
      rename_i r
      have hstate : update (pi o).state k (o k).state = (pi o).state := update_eq_self k _
      rw [pi_update_eq t .idle rfl, AtomicAction.at,
        step_respond (pi_call_eq hcall), hstate]
      rfl

omit [DecidableEq κ] [DecidableEq Tid] in
theorem event_pi (o : κ → AtomicObject σ Tid Op Ret) (k : κ) (a : AtomicAction Tid Op) :
    (pi o).event (a.at k) = ((o k).event a).map (Event.at k) := by
  cases a with
  | invoke t op => rfl
  | commit t => rfl
  | respond t =>
      rw [AtomicAction.at, event, event]
      cases hcall : (o k).call t <;> rw [pi_call_eq hcall] <;> rfl

/-- A run of a member is a run of the family. -/
theorem run_pi {o : κ → AtomicObject σ Tid Op Ret} {k : κ} {as : List (AtomicAction Tid Op)}
    {o' : AtomicObject σ Tid Op Ret} (h : run? (step spec) (o k) as = some o') :
    run? (step (piSpec spec)) (pi o) (as.map (AtomicAction.at k)) = some (pi (update o k o')) ∧
      observed (step (piSpec spec)) event (pi o) (as.map (AtomicAction.at k)) =
        (observed (step spec) event (o k) as).map (Event.at k) := by
  induction as generalizing o with
  | nil =>
      cases h
      rw [update_eq_self]
      exact ⟨rfl, rfl⟩
  | cons a as ih =>
      obtain ⟨o₁, ho₁, hrun⟩ := Option.bind_eq_some_iff.1 h
      have hstep := step_pi ho₁
      have hrun' : run? (step spec) (update o k o₁ k) as = some o' := by
        rw [update_self]
        exact hrun
      obtain ⟨hrest, hvis⟩ := ih hrun'
      rw [update_idem] at hrest
      rw [update_self] at hvis
      refine ⟨?_, ?_⟩
      · rw [List.map_cons, run?_cons, hstep]
        exact hrest
      · rw [List.map_cons, observed_cons hstep, observed_cons ho₁, hvis, event_pi,
          List.map_append]
        cases (o k).event a <;> rfl

end AtomicObject

/-- Linearizability is local: a family of systems that are simulated by atomic objects is
simulated by the atomic object of the family. -/
theorem simulates_pi [DecidableEq Tid] {τ α : Type*} {spec : σ → Op → Option (Ret × σ)}
    {step : τ → α → Option τ} {vis : τ → α → Option (Event Tid Op Ret)}
    {R : κ → τ → AtomicObject σ Tid Op Ret → Prop}
    (hsim : ∀ k, Simulates step vis (AtomicObject.step spec) AtomicObject.event (R k)) :
    Simulates (piStep (κ := κ) step) (piEvent vis) (AtomicObject.step (piSpec spec))
      AtomicObject.event
      (fun c o => ∃ o', (∀ k, R k (c k) (o' k)) ∧ o = AtomicObject.pi o') := by
  rintro c o ⟨k, a⟩ c' ⟨o', hR, rfl⟩ hstep
  obtain ⟨c₁, hc₁, rfl⟩ := Option.map_eq_some_iff.1 hstep
  obtain ⟨bs, o₁, hbs, hvis, hR₁⟩ := hsim k (c k) (o' k) a c₁ (hR k) hc₁
  obtain ⟨hrun, hobserved⟩ := AtomicObject.run_pi hbs
  refine ⟨_, _, hrun, ?_, update o' k o₁, fun k' => ?_, rfl⟩
  · rw [hobserved, hvis, piEvent]
    cases vis (c k) a <;> rfl
  · by_cases h : k' = k
    · subst h
      rw [update_self, update_self]
      exact hR₁
    · rw [update_of_ne h, update_of_ne h]
      exact hR k'

end Linearizability
