import Mathlib.Data.List.Basic

/-!
# Programs with scope guards

A program is seen as what it does with resources: a statement performs events of `ε`. What the
program does with its data is left open: a `choice` is any test and a `loop` runs any number of
times. `guard es` registers the events `es` for the end of the enclosing scope, where the guards
run in reverse order, also when the function returns from inside the scope.

`Runs` gives the traces of a program. An observer `step : σ → ε → σ` watches the events;
`analyse` follows it along all paths at once, and finds exactly what it can have seen at the end
of a function (`mem_ends_iff`).

The observer `hold` follows the resources that are held; it ends up with `none` when an event is
out of place: a resource that is not held is used or released, or one that is held is acquired
again.
-/

namespace Scope

inductive Stmt (ε : Type*)
  | act (es : List ε)
  | guard (es : List ε)
  | seq (s t : Stmt ε)
  | choice (s t : Stmt ε)
  | loop (s : Stmt ε)
  | scope (s : Stmt ε)
  | invoke (s : Stmt ε)
  | ret

variable {ε : Type*}

namespace Stmt

/-- Statements one after the other. -/
def block : List (Stmt ε) → Stmt ε
  | [] => act []
  | s :: ss => seq s (block ss)

/-- The events that occur in a statement. -/
def events : Stmt ε → List ε
  | act es => es
  | guard es => es
  | seq s t => s.events ++ t.events
  | choice s t => s.events ++ t.events
  | loop s => s.events
  | scope s => s.events
  | invoke s => s.events
  | ret => []

end Stmt

/-- Guards, the one that was registered last in front. -/
abbrev Guards (ε : Type*) := List (List ε)

/-- `Runs s gs tr b gs'`: the statement `s`, in a scope with the guards `gs`, does `tr`; then the
guards are `gs'`, and `b` says whether the function returns. -/
inductive Runs : Stmt ε → Guards ε → List ε → Bool → Guards ε → Prop
  | act {es gs} : Runs (.act es) gs es false gs
  | guard {es gs} : Runs (.guard es) gs [] false (es :: gs)
  | seq {s t gs gs' gs'' tr tr' b} : Runs s gs tr false gs' → Runs t gs' tr' b gs'' →
      Runs (.seq s t) gs (tr ++ tr') b gs''
  | seqRet {s t gs gs' tr} : Runs s gs tr true gs' → Runs (.seq s t) gs tr true gs'
  | left {s t gs gs' tr b} : Runs s gs tr b gs' → Runs (.choice s t) gs tr b gs'
  | right {s t gs gs' tr b} : Runs t gs tr b gs' → Runs (.choice s t) gs tr b gs'
  | loopEnd {s gs} : Runs (.loop s) gs [] false gs
  | loopRet {s gs gs' tr} : Runs s gs tr true gs' → Runs (.loop s) gs tr true gs'
  | loopNext {s gs gs' gs'' tr tr' b} : Runs s gs tr false gs' → Runs (.loop s) gs' tr' b gs'' →
      Runs (.loop s) gs (tr ++ tr') b gs''
  | scope {s gs gs' tr b} : Runs s [] tr b gs' → Runs (.scope s) gs (tr ++ gs'.flatten) b gs
  | invoke {s gs gs' tr b} : Runs s [] tr b gs' → Runs (.invoke s) gs (tr ++ gs'.flatten) false gs
  | ret {gs} : Runs .ret gs [] true gs

/-- The traces of a function with this body. -/
def Traces (s : Stmt ε) (tr : List ε) : Prop := Runs (.invoke s) [] tr false []

/-- What happens in a run, and what is registered for later, occurs in the statement or was
registered before. -/
theorem mem_events_of_runs {s : Stmt ε} {gs gs' : Guards ε} {tr : List ε} {b : Bool}
    (h : Runs s gs tr b gs') {e : ε} (he : e ∈ tr ∨ e ∈ gs'.flatten) :
    e ∈ s.events ∨ e ∈ gs.flatten := by
  induction h with
  | act => exact he
  | guard =>
      have hguards := he.resolve_left List.not_mem_nil
      rw [List.flatten_cons, List.mem_append] at hguards
      exact hguards
  | seq _ _ ihs iht =>
      rw [List.mem_append] at he
      rw [Stmt.events, List.mem_append]
      rcases he with (he | he) | he
      · exact (ihs (Or.inl he)).imp_left Or.inl
      · rcases iht (Or.inl he) with he | he
        · exact Or.inl (Or.inr he)
        · exact (ihs (Or.inr he)).imp_left Or.inl
      · rcases iht (Or.inr he) with he | he
        · exact Or.inl (Or.inr he)
        · exact (ihs (Or.inr he)).imp_left Or.inl
  | seqRet _ ih => exact (ih he).imp_left (List.mem_append_left _)
  | left _ ih => exact (ih he).imp_left (List.mem_append_left _)
  | right _ ih => exact (ih he).imp_left (List.mem_append_right _)
  | loopEnd => exact Or.inr (he.resolve_left List.not_mem_nil)
  | loopRet _ ih => exact ih he
  | loopNext _ _ ih ihnext =>
      rw [List.mem_append] at he
      rcases he with (he | he) | he
      · exact ih (Or.inl he)
      · exact (ihnext (Or.inl he)).elim Or.inl fun he => ih (Or.inr he)
      · exact (ihnext (Or.inr he)).elim Or.inl fun he => ih (Or.inr he)
  | scope _ ih =>
      rw [List.mem_append] at he
      rcases he with he | he
      · exact Or.inl ((ih he).resolve_right List.not_mem_nil)
      · exact Or.inr he
  | invoke _ ih =>
      rw [List.mem_append] at he
      rcases he with he | he
      · exact Or.inl ((ih he).resolve_right List.not_mem_nil)
      · exact Or.inr he
  | ret => exact Or.inr (he.resolve_left List.not_mem_nil)

theorem mem_events_of_traces {s : Stmt ε} {tr : List ε} (h : Traces s tr) {e : ε} (he : e ∈ tr) :
    e ∈ s.events :=
  (mem_events_of_runs h (Or.inl he)).resolve_right List.not_mem_nil

section Analyse

variable {σ : Type*}

/-- What an observer has seen, and which guards are registered. -/
structure State (σ ε : Type*) where
  seen : σ
  guards : Guards ε
  deriving DecidableEq

/-- The states a statement can lead to, by going on and by returning. -/
structure Outcomes (σ ε : Type*) where
  next : List (State σ ε)
  returned : List (State σ ε)

namespace Outcomes

/-- Both alternatives. -/
def union (o o' : Outcomes σ ε) : Outcomes σ ε :=
  { next := o.next ++ o'.next, returned := o.returned ++ o'.returned }

/-- What follows in each of some states. -/
def collect (f : State σ ε → Option (Outcomes σ ε)) : List (State σ ε) → Option (Outcomes σ ε)
  | [] => some { next := [], returned := [] }
  | st :: sts => (f st).bind fun o => (collect f sts).map o.union

/-- The states of an outcome. -/
def states (o : Outcomes σ ε) (b : Bool) : List (State σ ε) := if b then o.returned else o.next

theorem states_union (o o' : Outcomes σ ε) (b : Bool) :
    (o.union o').states b = o.states b ++ o'.states b := by
  cases b <;> rfl

/-- An outcome of the collection is an outcome for one of the states. -/
theorem mem_states_collect {f : State σ ε → Option (Outcomes σ ε)} {sts : List (State σ ε)}
    {o : Outcomes σ ε} (h : collect f sts = some o) (b : Bool) (st' : State σ ε) :
    st' ∈ o.states b ↔ ∃ st ∈ sts, ∃ o', f st = some o' ∧ st' ∈ o'.states b := by
  induction sts generalizing o with
  | nil =>
      cases h
      cases b <;> simp [states]
  | cons st sts ih =>
      obtain ⟨o₁, ho₁, h⟩ := Option.bind_eq_some_iff.1 h
      obtain ⟨o₂, ho₂, rfl⟩ := Option.map_eq_some_iff.1 h
      rw [states_union, List.mem_append, ih ho₂]
      simp only [List.exists_mem_cons_iff, ho₁, Option.some.injEq, exists_eq_left']

theorem exists_of_collect {f : State σ ε → Option (Outcomes σ ε)} {sts : List (State σ ε)}
    {o : Outcomes σ ε} (h : collect f sts = some o) {st : State σ ε} (hst : st ∈ sts) :
    ∃ o', f st = some o' := by
  induction sts generalizing o with
  | nil => cases hst
  | cons st' sts ih =>
      obtain ⟨o₁, ho₁, h⟩ := Option.bind_eq_some_iff.1 h
      obtain ⟨o₂, ho₂, -⟩ := Option.map_eq_some_iff.1 h
      rcases List.mem_cons.1 hst with rfl | hmem
      · exact ⟨o₁, ho₁⟩
      · exact ih ho₂ hmem

end Outcomes

variable [DecidableEq ε] [DecidableEq σ] (step : σ → ε → σ)

/-- The end of a scope: its guards run, and those of the enclosing scope are left. -/
def leave (gs : Guards ε) (st : State σ ε) : State σ ε :=
  { seen := st.guards.flatten.foldl step st.seen, guards := gs }

/-- All the states that a statement can lead to; `none` when a loop does not lead back to the
state it began in. -/
def analyse : Stmt ε → State σ ε → Option (Outcomes σ ε)
  | .act es, st => some { next := [{ st with seen := es.foldl step st.seen }], returned := [] }
  | .guard es, st => some { next := [{ st with guards := es :: st.guards }], returned := [] }
  | .seq s t, st =>
      (analyse s st).bind fun o => (Outcomes.collect (analyse t) o.next).map fun o' =>
        { next := o'.next, returned := o.returned ++ o'.returned }
  | .choice s t, st => (analyse s st).bind fun o => (analyse t st).map o.union
  | .loop s, st =>
      (analyse s st).bind fun o =>
        if ∀ st' ∈ o.next, st' = st then some { next := [st], returned := o.returned } else none
  | .scope s, st =>
      (analyse s { st with guards := [] }).map fun o =>
        { next := o.next.map (leave step st.guards),
          returned := o.returned.map (leave step st.guards) }
  | .invoke s, st =>
      (analyse s { st with guards := [] }).map fun o =>
        { next := (o.next ++ o.returned).map (leave step st.guards), returned := [] }
  | .ret, st => some { next := [], returned := [st] }

variable {step} {s t : Stmt ε} {st : State σ ε} {o : Outcomes σ ε}

theorem mem_analyse_seq (h : analyse step (.seq s t) st = some o) :
    ∃ o₁, analyse step s st = some o₁ ∧ (∀ st₁ ∈ o₁.next, ∃ o₂, analyse step t st₁ = some o₂) ∧
      ∀ b st', st' ∈ o.states b ↔ (b = true ∧ st' ∈ o₁.returned) ∨
        ∃ st₁ ∈ o₁.next, ∃ o₂, analyse step t st₁ = some o₂ ∧ st' ∈ o₂.states b := by
  obtain ⟨o₁, ho₁, h⟩ := Option.bind_eq_some_iff.1 h
  obtain ⟨o₂, ho₂, rfl⟩ := Option.map_eq_some_iff.1 h
  refine ⟨o₁, ho₁, fun st₁ hst₁ => Outcomes.exists_of_collect ho₂ hst₁, fun b st' => ?_⟩
  rw [← Outcomes.mem_states_collect ho₂ b st']
  cases b <;> simp [Outcomes.states]

theorem mem_analyse_choice (h : analyse step (.choice s t) st = some o) :
    ∃ o₁ o₂, analyse step s st = some o₁ ∧ analyse step t st = some o₂ ∧
      ∀ b, o.states b = o₁.states b ++ o₂.states b := by
  obtain ⟨o₁, ho₁, h⟩ := Option.bind_eq_some_iff.1 h
  obtain ⟨o₂, ho₂, rfl⟩ := Option.map_eq_some_iff.1 h
  exact ⟨o₁, o₂, ho₁, ho₂, o₁.states_union o₂⟩

theorem mem_analyse_loop (h : analyse step (.loop s) st = some o) :
    ∃ o₁, analyse step s st = some o₁ ∧ (∀ st₁ ∈ o₁.next, st₁ = st) ∧
      ∀ b st', st' ∈ o.states b ↔ (b = false ∧ st' = st) ∨ (b = true ∧ st' ∈ o₁.returned) := by
  obtain ⟨o₁, ho₁, h⟩ := Option.bind_eq_some_iff.1 h
  split at h
  · rename_i hback
    cases h
    refine ⟨o₁, ho₁, hback, fun b st' => ?_⟩
    cases b <;> simp [Outcomes.states]
  · cases h

theorem mem_analyse_scope (h : analyse step (.scope s) st = some o) :
    ∃ o₁, analyse step s { st with guards := [] } = some o₁ ∧
      ∀ b, o.states b = (o₁.states b).map (leave step st.guards) := by
  obtain ⟨o₁, ho₁, rfl⟩ := Option.map_eq_some_iff.1 h
  refine ⟨o₁, ho₁, fun b => ?_⟩
  cases b <;> rfl

theorem mem_analyse_invoke (h : analyse step (.invoke s) st = some o) :
    ∃ o₁, analyse step s { st with guards := [] } = some o₁ ∧ o.returned = [] ∧
      ∀ st', st' ∈ o.next ↔ ∃ b, ∃ st₁ ∈ o₁.states b, leave step st.guards st₁ = st' := by
  obtain ⟨o₁, ho₁, rfl⟩ := Option.map_eq_some_iff.1 h
  refine ⟨o₁, ho₁, rfl, fun st' => ?_⟩
  rw [Bool.exists_bool, List.map_append, List.mem_append, List.mem_map, List.mem_map]
  exact Iff.rfl

/-- Every run of an analysed statement leads to one of its outcomes. -/
theorem mem_of_runs {gs gs' : Guards ε} {tr : List ε} {b : Bool} (hrun : Runs s gs tr b gs')
    {x : σ} (h : analyse step s ⟨x, gs⟩ = some o) : ⟨tr.foldl step x, gs'⟩ ∈ o.states b := by
  induction hrun generalizing x o with
  | act =>
      cases h
      exact List.mem_singleton_self _
  | guard =>
      cases h
      exact List.mem_singleton_self _
  | seq _ _ ihs iht =>
      obtain ⟨o₁, ho₁, hnext, hmem⟩ := mem_analyse_seq h
      have hst₁ := ihs ho₁
      obtain ⟨o₂, ho₂⟩ := hnext _ hst₁
      rw [List.foldl_append]
      exact (hmem _ _).2 (Or.inr ⟨_, hst₁, o₂, ho₂, iht ho₂⟩)
  | seqRet _ ih =>
      obtain ⟨o₁, ho₁, -, hmem⟩ := mem_analyse_seq h
      exact (hmem _ _).2 (Or.inl ⟨rfl, ih ho₁⟩)
  | left _ ih =>
      obtain ⟨o₁, o₂, ho₁, -, hstates⟩ := mem_analyse_choice h
      rw [hstates]
      exact List.mem_append_left _ (ih ho₁)
  | right _ ih =>
      obtain ⟨o₁, o₂, -, ho₂, hstates⟩ := mem_analyse_choice h
      rw [hstates]
      exact List.mem_append_right _ (ih ho₂)
  | loopEnd =>
      obtain ⟨o₁, -, -, hmem⟩ := mem_analyse_loop h
      exact (hmem _ _).2 (Or.inl ⟨rfl, rfl⟩)
  | loopRet _ ih =>
      obtain ⟨o₁, ho₁, -, hmem⟩ := mem_analyse_loop h
      exact (hmem _ _).2 (Or.inr ⟨rfl, ih ho₁⟩)
  | loopNext _ _ ih ihnext =>
      obtain ⟨o₁, ho₁, hback, -⟩ := mem_analyse_loop h
      have hst := hback _ (ih ho₁)
      rw [State.mk.injEq] at hst
      obtain ⟨hseen, rfl⟩ := hst
      rw [List.foldl_append, hseen]
      exact ihnext h
  | scope _ ih =>
      obtain ⟨o₁, ho₁, hstates⟩ := mem_analyse_scope h
      rw [hstates, List.foldl_append]
      exact List.mem_map.2 ⟨_, ih ho₁, rfl⟩
  | invoke _ ih =>
      obtain ⟨o₁, ho₁, -, hnext⟩ := mem_analyse_invoke h
      rw [List.foldl_append]
      exact (hnext _).2 ⟨_, _, ih ho₁, rfl⟩
  | ret =>
      cases h
      exact List.mem_singleton_self _

/-- Every outcome that the analysis finds is that of a run. -/
theorem exists_runs_of_mem {st' : State σ ε} {b : Bool} (h : analyse step s st = some o)
    (hst' : st' ∈ o.states b) :
    ∃ tr, Runs s st.guards tr b st'.guards ∧ tr.foldl step st.seen = st'.seen := by
  induction s generalizing st st' o b with
  | act es =>
      cases h
      cases b with
      | true => cases hst'
      | false =>
          cases List.mem_singleton.1 hst'
          exact ⟨es, .act, rfl⟩
  | guard es =>
      cases h
      cases b with
      | true => cases hst'
      | false =>
          cases List.mem_singleton.1 hst'
          exact ⟨[], .guard, rfl⟩
  | seq s t ihs iht =>
      obtain ⟨o₁, ho₁, -, hmem⟩ := mem_analyse_seq h
      rcases (hmem _ _).1 hst' with ⟨rfl, hreturned⟩ | ⟨st₁, hst₁, o₂, ho₂, hst₂⟩
      · obtain ⟨tr, hrun, hseen⟩ := ihs ho₁ (b := true) hreturned
        exact ⟨tr, .seqRet hrun, hseen⟩
      · obtain ⟨tr, hrun, hseen⟩ := ihs ho₁ (b := false) hst₁
        obtain ⟨tr', hrun', hseen'⟩ := iht ho₂ hst₂
        refine ⟨tr ++ tr', .seq hrun hrun', ?_⟩
        rw [List.foldl_append, hseen, hseen']
  | choice s t ihs iht =>
      obtain ⟨o₁, o₂, ho₁, ho₂, hstates⟩ := mem_analyse_choice h
      rw [hstates, List.mem_append] at hst'
      rcases hst' with hst' | hst'
      · obtain ⟨tr, hrun, hseen⟩ := ihs ho₁ hst'
        exact ⟨tr, .left hrun, hseen⟩
      · obtain ⟨tr, hrun, hseen⟩ := iht ho₂ hst'
        exact ⟨tr, .right hrun, hseen⟩
  | loop s ih =>
      obtain ⟨o₁, ho₁, -, hmem⟩ := mem_analyse_loop h
      rcases (hmem _ _).1 hst' with ⟨rfl, rfl⟩ | ⟨rfl, hreturned⟩
      · exact ⟨[], .loopEnd, rfl⟩
      · obtain ⟨tr, hrun, hseen⟩ := ih ho₁ (b := true) hreturned
        exact ⟨tr, .loopRet hrun, hseen⟩
  | scope s ih =>
      obtain ⟨o₁, ho₁, hstates⟩ := mem_analyse_scope h
      rw [hstates] at hst'
      obtain ⟨st₁, hst₁, rfl⟩ := List.mem_map.1 hst'
      obtain ⟨tr, hrun, hseen⟩ := ih ho₁ hst₁
      refine ⟨tr ++ st₁.guards.flatten, .scope hrun, ?_⟩
      rw [List.foldl_append, hseen]
      rfl
  | invoke s ih =>
      obtain ⟨o₁, ho₁, hreturned, hnext⟩ := mem_analyse_invoke h
      cases b with
      | true =>
          rw [Outcomes.states, if_pos rfl, hreturned] at hst'
          cases hst'
      | false =>
          obtain ⟨b, st₁, hst₁, rfl⟩ := (hnext st').1 hst'
          obtain ⟨tr, hrun, hseen⟩ := ih ho₁ hst₁
          refine ⟨tr ++ st₁.guards.flatten, .invoke hrun, ?_⟩
          rw [List.foldl_append, hseen]
          rfl
  | ret =>
      cases h
      cases b with
      | false => cases hst'
      | true =>
          cases List.mem_singleton.1 hst'
          exact ⟨[], .ret, rfl⟩

/-- What an observer can have seen at the end of a function. -/
def ends (step : σ → ε → σ) (s : Stmt ε) (x : σ) : Option (List σ) :=
  (analyse step (.invoke s) ⟨x, []⟩).map fun o => o.next.map State.seen

theorem mem_ends_iff {x : σ} {xs : List σ} (h : ends step s x = some xs) (y : σ) :
    y ∈ xs ↔ ∃ tr, Traces s tr ∧ tr.foldl step x = y := by
  obtain ⟨o, ho, rfl⟩ := Option.map_eq_some_iff.1 h
  rw [List.mem_map]
  constructor
  · rintro ⟨st', hst', rfl⟩
    obtain ⟨tr, hrun, hseen⟩ := exists_runs_of_mem ho (b := false) hst'
    obtain ⟨o₁, -, -, hnext⟩ := mem_analyse_invoke ho
    obtain ⟨b, st₁, -, rfl⟩ := (hnext st').1 hst'
    exact ⟨tr, hrun, hseen⟩
  · rintro ⟨tr, htr, rfl⟩
    exact ⟨_, mem_of_runs htr ho, rfl⟩

end Analyse

/-- What happens to a resource. -/
inductive Event (ρ : Type*)
  | acquire (r : ρ)
  | use (r : ρ)
  | release (r : ρ)
  deriving DecidableEq

section Resource

variable {ρ : Type*}

/-- The resource that an event is about. -/
def Event.resource : Event ρ → ρ
  | .acquire r => r
  | .use r => r
  | .release r => r

/-- A call that may fail: then `cleanup` is done and the function returns. -/
def Stmt.call (uses gains : List ρ) (cleanup : List (Event ρ)) : Stmt (Event ρ) :=
  seq (act (uses.map .use)) (choice (seq (act cleanup) ret) (act (gains.map .acquire)))

variable [DecidableEq ρ]

/-- The resources held after an event; `none` when it, or an event before it, is out of place. -/
def hold : Option (List ρ) → Event ρ → Option (List ρ)
  | none, _ => none
  | some held, .acquire r => if r ∈ held then none else some (r :: held)
  | some held, .use r => if r ∈ held then some held else none
  | some held, .release r => if r ∈ held then some (held.erase r) else none

/-- The resources held after a trace. -/
def final (held : List ρ) (es : List (Event ρ)) : Option (List ρ) := es.foldl hold (some held)

theorem foldl_hold_none (es : List (Event ρ)) : es.foldl hold none = none := by
  induction es with
  | nil => rfl
  | cons e es ih => exact ih

theorem final_cons_eq_some {held held' : List ρ} {e : Event ρ} {es : List (Event ρ)}
    (h : final held (e :: es) = some held') :
    ∃ held₁, hold (some held) e = some held₁ ∧ final held₁ es = some held' := by
  rw [final, List.foldl_cons] at h
  cases hhold : hold (some held) e with
  | none =>
      rw [hhold, foldl_hold_none] at h
      cases h
  | some held₁ =>
      rw [hhold] at h
      exact ⟨held₁, rfl, h⟩

/-- How often a resource is acquired and released: what is held at the end was acquired once more
than it was released, if it was not held before. -/
theorem count_of_final {held held' : List ρ} {es : List (Event ρ)} (h : final held es = some held')
    (r : ρ) : es.count (.release r) + held'.count r = es.count (.acquire r) + held.count r := by
  induction es generalizing held with
  | nil =>
      cases h
      rfl
  | cons e es ih =>
      obtain ⟨held₁, hhold, hfinal⟩ := final_cons_eq_some h
      have hrest := ih hfinal
      cases e with
      | acquire r' =>
          rw [hold] at hhold
          split at hhold
          · cases hhold
          · cases hhold
            rw [List.count_cons] at hrest
            rw [List.count_cons, List.count_cons]
            by_cases hr : r' = r
            · subst hr
              simp at hrest ⊢
              omega
            · simp [hr] at hrest ⊢
              omega
      | use r' =>
          rw [hold] at hhold
          split at hhold
          · cases hhold
            simpa [List.count_cons] using hrest
          · cases hhold
      | release r' =>
          rw [hold] at hhold
          split at hhold
          · rename_i hmem
            cases hhold
            by_cases hr : r' = r
            · subst hr
              have hpos := List.count_pos_iff.2 hmem
              rw [List.count_erase_self] at hrest
              simp at hrest ⊢
              omega
            · rw [List.count_erase_of_ne (Ne.symm hr)] at hrest
              simpa [List.count_cons, hr] using hrest
          · cases hhold

/-- What is held from the beginning, is never acquired and is not held at the end is released
exactly once. -/
theorem count_release_eq_one {held held' : List ρ} {es : List (Event ρ)}
    (h : final held es = some held') {r : ρ} (hheld : held.count r = 1)
    (hacquire : .acquire r ∉ es) (hheld' : r ∉ held') : es.count (.release r) = 1 := by
  have hcount := count_of_final h r
  rw [List.count_eq_zero.2 hacquire, List.count_eq_zero.2 hheld', hheld] at hcount
  exact hcount

end Resource

end Scope
