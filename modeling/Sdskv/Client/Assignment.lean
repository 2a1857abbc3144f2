import Sdskv.Client.ProviderHandle

/-!
# Assignments between named provider handles

The second assignment operator of `provider_handle` is documented as the move assignment, but
its parameter is a `provider_handle&` where a `provider_handle&&` would be expected. It is
therefore selected by every operand that names an object which is not `const`, and it leaves
that object without handle and without client.
-/

namespace Sdskv

namespace HandleOperation

/-- The object that the operation constructs, assigns or destroys. -/
def target : HandleOperation → ℕ
  | default this _ => this
  | create this _ _ _ => this
  | construct this _ => this
  | assign this _ => this
  | destroy this => this

/-- A copy construction or an assignment whose operand is the name of an object. -/
def IsNamed : HandleOperation → Prop
  | construct _ other => other.isRvalue = false
  | assign _ other => other.isRvalue = false
  | _ => False

/-- The operation is no assignment from another object that is not `const`, or that object
has neither handle nor client. -/
def LeavesSource (s : HandleState) : HandleOperation → Prop
  | assign this other =>
      this = other.object ∨ other.isConst = true ∨ s.object other.object = ⟨none, none⟩
  | _ => True

instance (s : HandleState) : DecidablePred (LeavesSource s)
  | assign this other => inferInstanceAs (Decidable (this = other.object ∨ _))
  | default .. | create .. | construct .. | destroy _ => inferInstanceAs (Decidable True)

end HandleOperation

namespace HandleState

open HandleOperation (target LeavesSource)
open Transition

/-- Along the run an object keeps its handle and its client, and its handle is not freed, as
long as it is not the target of an operation; after an assignment both objects have the
handle that the operand had. -/
structure KeepsSources (clients : ℕ → Option ℕ) (s : HandleState)
    (ops : List HandleOperation) : Prop where
  kept : ∀ before segment after t u, ops = before ++ (segment ++ after) →
    run? (step clients) s before = some t → run? (step clients) t segment = some u →
      ∀ x ∈ t.live, x ∉ segment.map target →
        u.object x = t.object x ∧ ∀ h ∈ (t.object x).ph, h ∈ u.heap.allocated
  shared : ∀ before this other after t u, ops = before ++ .assign this other :: after →
    run? (step clients) s before = some t → t.step clients (.assign this other) = some u →
      (u.object this).ph = (t.object other.object).ph

variable {clients : ℕ → Option ℕ} {s s' : HandleState} {op : HandleOperation}

theorem object_copyAssign (s : HandleState) (this other : ℕ) :
    (s.copyAssign this other).object = Function.update s.object this (s.object other) := by
  by_cases heq : this = other
  · subst heq
    rw [copyAssign, if_pos rfl, Function.update_eq_self]
  · rw [copyAssign_of_ne heq]

theorem object_moveAssign_of_ne {this other : ℕ} (hne : this ≠ other) :
    (s.moveAssign this other).object =
      Function.update (Function.update s.object this (s.object other)) other ⟨none, none⟩ := by
  rw [moveAssign_of_ne hne]

theorem live_assign (s : HandleState) (this : ℕ) (other : HandleExpression) :
    (s.assign this other).live = s.live := by
  rw [assign]
  by_cases heq : this = other.object
  · rw [moveAssign, copyAssign, if_pos heq, if_pos heq, ite_self]
  · rw [moveAssign_of_ne heq, copyAssign_of_ne heq]
    split <;> rfl

/-- What a named operation does: a copy construction or an assignment. -/
theorem step_of_isNamed (hnamed : op.IsNamed) (hstep : s.step clients op = some s') :
    (∃ this other, op = .construct this other ∧ s' = s.copyConstruct this other.object) ∨
      ∃ this other, op = .assign this other ∧ other.isRvalue = false ∧ other.object ∈ s.live ∧
        s' = s.assign this other := by
  cases op with
  | default => exact hnamed.elim
  | create => exact hnamed.elim
  | destroy => exact hnamed.elim
  | construct this other =>
      obtain ⟨-, ⟨⟩⟩ := Option.ite_none_right_eq_some.1 hstep
      refine Or.inl ⟨this, other, rfl, ?_⟩
      rw [construct, show other.isRvalue = false from hnamed, Bool.false_and,
        if_neg Bool.false_ne_true]
  | assign this other =>
      obtain ⟨⟨-, hother⟩, ⟨⟩⟩ := Option.ite_none_right_eq_some.1 hstep
      exact Or.inr ⟨this, other, rfl, hnamed, hother, rfl⟩

/-- A named operation writes its target only, except for the operand of `LeavesSource`. -/
theorem object_of_step (hnamed : op.IsNamed) (hleaves : op.LeavesSource s)
    (hstep : s.step clients op = some s') {x : ℕ} (hx : x ≠ op.target) :
    s'.object x = s.object x := by
  obtain ⟨this, other, rfl, rfl⟩ | ⟨this, other, rfl, -, -, rfl⟩ := step_of_isNamed hnamed hstep
  · rw [copyConstruct_eq]
    exact Function.update_of_ne hx _ _
  · rw [assign]
    split
    · next hmove =>
        by_cases heq : this = other.object
        · rw [moveAssign, if_pos heq]
        · have hnull : s.object other.object = ⟨none, none⟩ := by
            rcases hleaves with h | h | h
            · exact absurd h heq
            · simp [h] at hmove
            · exact h
          rw [object_moveAssign_of_ne heq, ← hnull]
          by_cases hother : x = other.object
          · rw [hother, Function.update_self]
          · rw [Function.update_of_ne hother]
            exact Function.update_of_ne hx _ _
    · rw [object_copyAssign]
      exact Function.update_of_ne hx _ _

/-- A named operation that writes its target only is one of `LeavesSource`. -/
theorem leavesSource_of_step (hnamed : op.IsNamed) (hstep : s.step clients op = some s')
    (hkept : ∀ x ∈ s.live, x ≠ op.target → s'.object x = s.object x) : op.LeavesSource s := by
  obtain ⟨this, other, rfl, -⟩ | ⟨this, other, rfl, hrvalue, hlive, rfl⟩ :=
    step_of_isNamed hnamed hstep
  · trivial
  · by_contra hbad
    rw [LeavesSource, not_or, not_or] at hbad
    obtain ⟨hne, hconst, hnull⟩ := hbad
    have hobject := hkept other.object hlive (Ne.symm hne)
    rw [assign, if_pos (by simp [hrvalue, hconst]), object_moveAssign_of_ne hne,
      Function.update_self] at hobject
    exact hnull hobject.symm

theorem live_subset_of_step (hnamed : op.IsNamed) (hstep : s.step clients op = some s') :
    s.live ⊆ s'.live := by
  obtain ⟨this, other, rfl, rfl⟩ | ⟨this, other, rfl, -, -, rfl⟩ := step_of_isNamed hnamed hstep
  · rw [copyConstruct_eq]
    exact Finset.subset_insert _ _
  · exact (live_assign s this other).symm.subset

/-- An assignment gives its target the handle that the operand had. -/
theorem ph_assign (s : HandleState) (this : ℕ) (other : HandleExpression) :
    ((s.assign this other).object this).ph = (s.object other.object).ph := by
  rw [assign]
  split
  · by_cases heq : this = other.object
    · rw [moveAssign, if_pos heq, heq]
    · rw [object_moveAssign_of_ne heq, Function.update_of_ne heq, Function.update_self]
  · rw [object_copyAssign, Function.update_self]

/-- What a run of admitted named operations keeps of an object that is not a target. -/
theorem object_of_run {ops : List HandleOperation} (hnamed : ∀ op ∈ ops, op.IsNamed)
    (hleaves : holdsAlong (step clients) (fun s op => op.LeavesSource s) s ops)
    (hrun : run? (step clients) s ops = some s') {x : ℕ} (hx : x ∈ s.live)
    (htarget : x ∉ ops.map target) : x ∈ s'.live ∧ s'.object x = s.object x := by
  have hok : holdsAlong (step clients)
      (fun s op => op.LeavesSource s ∧ op.IsNamed ∧ x ≠ op.target) s ops := by
    rw [holdsAlong_iff_forall_step] at hleaves ⊢
    intro before op after t hops hbefore
    have hmem : op ∈ ops := by simp [hops]
    refine ⟨hleaves before op after t hops hbefore, hnamed op hmem, ?_⟩
    intro heq
    exact htarget (List.mem_map.2 ⟨op, hmem, heq.symm⟩)
  refine invariant_of_run (I := fun t => x ∈ t.live ∧ t.object x = s.object x) ?_
    ⟨hx, rfl⟩ hok hrun
  intro t op u ht hop hstep
  refine ⟨live_subset_of_step hop.2.1 hstep ht.1, ?_⟩
  rw [object_of_step hop.2.1 hop.1 hstep hop.2.2, ht.2]

/-- Reading an object as the operand of named operations leaves it as it was exactly when
every assignment is from the object itself, from a `const` operand, or from an object that
has neither handle nor client. -/
theorem keepsSources_iff (clients : ℕ → Option ℕ) (earlier ops : List HandleOperation)
    (s s' : HandleState) (hearlier : run? (step clients) start earlier = some s)
    (hnamed : ∀ op ∈ ops, op.IsNamed) (hrun : run? (step clients) s ops = some s') :
    KeepsSources clients s ops ↔
      holdsAlong (step clients) (fun s op => op.LeavesSource s) s ops := by
  constructor
  · intro hkeeps
    rw [holdsAlong_iff_forall_step]
    intro before op after t hops hbefore
    -- the step is taken, since the run goes on after it
    rw [hops, run?_append, hbefore, Option.bind_some, run?_cons] at hrun
    obtain ⟨u, hstep, -⟩ := Option.bind_eq_some_iff.1 hrun
    refine leavesSource_of_step (hnamed op (by simp [hops])) hstep fun x hx hne => ?_
    exact (hkeeps.kept before [op] after t u (by rw [hops]; rfl) hbefore
      (by rw [run?_cons, hstep]; rfl) x hx (by simpa using hne)).1
  · intro hleaves
    refine ⟨?_, ?_⟩
    · intro before segment after t u hops hbefore hsegment x hx htarget
      have hpart := hleaves
      rw [hops, holdsAlong_append] at hpart
      have hin := ((holdsAlong_append _ _ _ _ _).1 (hpart.2 t hbefore)).1
      have hsub : ∀ op ∈ segment, op.IsNamed := fun op hop => hnamed op (by simp [hops, hop])
      obtain ⟨hlive, hobject⟩ := object_of_run hsub hin hsegment hx htarget
      refine ⟨hobject, fun h hh => ?_⟩
      have hbalanced : u.Balanced := by
        have hwhole : run? (step clients) start (earlier ++ (before ++ segment)) = some u := by
          rw [run?_append, hearlier, Option.bind_some, run?_append, hbefore, Option.bind_some]
          exact hsegment
        exact Balanced.run hwhole
      refine mem_allocated hbalanced hlive ?_
      rw [hobject]
      exact hh
    · intro before this other after t u hops hbefore hstep
      obtain ⟨-, ⟨⟩⟩ := Option.ite_none_right_eq_some.1 hstep
      exact ph_assign t this other

/-- An object that holds a handle, and one that does not. -/
def twoObjects : List HandleOperation :=
  [.create 1 4 0 ⟨some 100, hgSuccess, 9⟩, .default 2 none]

/-- A copy, and assignments from an object without a handle, from a `const` operand and from the
object itself. -/
def harmlessCopies : List HandleOperation :=
  [.construct 3 ⟨1, false, false⟩, .assign 3 ⟨2, false, false⟩, .assign 2 ⟨1, true, false⟩,
    .assign 1 ⟨1, false, false⟩, .construct 4 ⟨2, true, false⟩]

theorem keepsSources_iff_harmlessCopies :
    ∃ s, run? (step fun _ => some 7) start twoObjects = some s ∧
      KeepsSources (fun _ => some 7) s harmlessCopies := by
  have hnamed : ∀ op ∈ harmlessCopies, op.IsNamed := by
    simp [harmlessCopies, HandleOperation.IsNamed]
  exact ⟨_, rfl, (keepsSources_iff _ twoObjects harmlessCopies _ _ rfl hnamed rfl).2 (by decide)⟩

/-- The object `1` is not `const`. After it was assigned to the object `2` it has no handle. -/
theorem not_keepsSources_lvalue :
    ∃ s, run? (step fun _ => some 7) start twoObjects = some s ∧
      s.object 1 = ⟨some 100, some 4⟩ ∧
      ¬ KeepsSources (fun _ => some 7) s [.assign 2 ⟨1, false, false⟩] := by
  refine ⟨_, rfl, rfl, ?_⟩
  intro hkeeps
  have hkept := (hkeeps.kept [] [.assign 2 ⟨1, false, false⟩] [] _ _ rfl rfl rfl 1
    (by decide) (by decide)).1
  exact absurd hkept (by decide)

end HandleState

end Sdskv
