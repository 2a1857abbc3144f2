import Sdskv.Datastore.Map.Listing
import Sdskv.Migration.Handler

/-!
# A migration loses no pair

A handler that runs alone may stop after any number of steps: a forward fails with the
put applied or not, the answer is lost, or the target refuses the put. `loggedStep`
is a step of a handler together with the keys whose put was acknowledged with
`SDSKV_SUCCESS`. `NoLoss` holds after every step: a pair of the source is erased only
once the target has acknowledged it, and the target keeps it from then on.
-/

namespace Sdskv

open Transition

/-- The key that a step's put was acknowledged for. -/
def acknowledges {ω : Type*} (env : MigrationEnv ω) (s : ω × Phase) (net : Forward) :
    Option Bulk :=
  match s.2 with
  | .forward key value _ => if (forwardPut env s.1 key value net).1 then some key else none
  | _ => none

/-- A step, with the list of the keys acknowledged so far. -/
def loggedStep {ω : Type*} (env : MigrationEnv ω) (handler : MigrateHandler) (flag : Int)
    (s : (ω × Phase) × List Bulk) (net : Forward) : Option ((ω × Phase) × List Bulk) :=
  (migrationStep handler flag env s.1 net).map fun s' =>
    (s', (acknowledges env s.1 net).toList ++ s.2)

section NoLoss

variable {σ τ : Type*} {source : AbstractDataStore σ} {target : AbstractDataStore τ}
  {lt lt' : Bulk → Bulk → Prop} [DecidableRel lt] [DecidableRel lt']
  (L : LawfulStore source lt) (L' : LawfulStore target lt')

/-- The state of a migration against the world `w₀` it started in. -/
structure NoLoss (flag : Int) (w₀ : σ × τ) (s : ((σ × τ) × Phase) × List Bulk) : Prop where
  source_le : ∀ k v, L.value s.1.1.1 k = some v → L.value w₀.1 k = some v
  kept : flag ≠ sdskvRemoveOriginal → L.contents s.1.1.1 = L.contents w₀.1
  pending : ∀ p ∈ s.1.2.pending, L.value w₀.1 p.1 = some p.2
  erasing : ∀ p ∈ s.1.2.erasing, flag = sdskvRemoveOriginal ∧ p.1 ∈ s.2 ∧
    L'.value s.1.1.2 p.1 = some p.2
  safe : ∀ k v, L.value w₀.1 k = some v →
    L.value s.1.1.1 k = some v ∨ k ∈ s.2 ∧ L'.value s.1.1.2 k = some v

variable {L L'}

theorem noLoss_begin (handler : MigrateHandler) (found : Bool) (hrets : List ℕ)
    (flag : Int) (w₀ : σ × τ) :
    NoLoss L L' flag w₀ ((w₀, handler.begin found hrets), []) where
  source_le _ _ h := h
  kept _ := rfl
  pending := by simp
  erasing := by simp
  safe _ _ h := Or.inl h

/-- The handler reads from the source. -/
theorem noLoss_of_read {flag : Int} {w₀ : σ × τ} {s s' : (σ × τ) × Phase} {log : List Bulk}
    (h : NoLoss L L' flag w₀ (s, log)) (hread : ReadsSource L s s') :
    NoLoss L L' flag w₀ (s', log) where
  source_le k v hk := by
    rw [LawfulStore.value, hread.source_eq] at hk
    exact h.source_le k v hk
  kept hflag := hread.source_eq.trans (h.kept hflag)
  pending p hp := h.source_le _ _ (hread.pending p hp)
  erasing := by simp [hread.erasing]
  safe k v hk := by
    rw [LawfulStore.value, hread.source_eq, hread.target_eq]
    exact h.safe k v hk

variable [IsStrictTotalOrder Bulk lt] [IsStrictTotalOrder Bulk lt']

omit [IsStrictTotalOrder Bulk lt] in
/-- In the target of a forwarded pair, every pair of the source stays where it was. -/
theorem value_target_forwardPut {w₀ w : σ × τ} {key value : Bulk}
    (hpair : L.value w₀.1 key = some value) (net : Forward) {k v : Bulk}
    (hk : L.value w₀.1 k = some v) (htarget : L'.value w.2 k = some v) :
    L'.value (forwardPut (distinctDatabases source target) w key value net).2.2 k =
      some v := by
  have := OrderedMap.isStrictWeakOrder_of_isStrictTotalOrder lt'
  rcases value_forwardPut L' w key value net k with hsame | ⟨hkey, hvalue⟩
  · rw [hsame, htarget]
  · rw [OrderedMap.incompRel_iff_eq] at hkey
    subst hkey
    rw [hpair, Option.some.injEq] at hk
    rw [hvalue, hk]

omit [IsStrictTotalOrder Bulk lt] in
theorem noLoss_forward {flag : Int} {w₀ : σ × τ} {s : (σ × τ) × Phase}
    {key value : Bulk} {k : Continuation} {log : List Bulk} {net : Forward} {phase : Phase}
    (h : NoLoss L L' flag w₀ (s, log)) (hphase : s.2 = .forward key value k)
    (hpending : ∀ p ∈ phase.pending, p ∈ s.2.pending)
    (herasing : ∀ p ∈ phase.erasing, p = (key, value) ∧ flag = sdskvRemoveOriginal ∧
      (forwardPut (distinctDatabases source target) s.1 key value net).1 = true) :
    NoLoss L L' flag w₀
      (((forwardPut (distinctDatabases source target) s.1 key value net).2, phase),
        (acknowledges (distinctDatabases source target) s net).toList ++ log) := by
  have hsw' := OrderedMap.isStrictWeakOrder_of_isStrictTotalOrder lt'
  have hsource :
      (forwardPut (distinctDatabases source target) s.1 key value net).2.1 = s.1.1 :=
    forwardPut_source s.1 key value net
  have hpair : L.value w₀.1 key = some value :=
    h.pending (key, value) (by simp [hphase, Phase.pending])
  refine ⟨?_, ?_, fun p hp => h.pending p (hpending p hp), ?_, ?_⟩
  · intro k v hk
    rw [hsource] at hk
    exact h.source_le k v hk
  · intro hflag
    rw [hsource]
    exact h.kept hflag
  · intro p hp
    obtain ⟨rfl, hflag, hacked⟩ := herasing p hp
    refine ⟨hflag, ?_, ?_⟩
    · simp [acknowledges, hphase, hacked]
    · rw [value_forwardPut_of_acked L' hacked, if_pos (IncompRel.refl lt' key)]
  · intro k v hk
    rw [hsource]
    rcases h.safe k v hk with hleft | ⟨hlog, htarget⟩
    · exact Or.inl hleft
    · exact Or.inr ⟨by simp [hlog], value_target_forwardPut hpair net hk htarget⟩

omit [IsStrictTotalOrder Bulk lt'] in
theorem noLoss_erase {handler : MigrateHandler} {flag : Int} {w₀ : σ × τ}
    {s : (σ × τ) × Phase} {key value : Bulk} {k : Continuation} {log : List Bulk}
    (h : NoLoss L L' flag w₀ (s, log)) (hphase : s.2 = .erase key value k) :
    NoLoss L L' flag w₀
      (((distinctDatabases source target).erase s.1 key, k.resume handler flag), log) := by
  have hsw := OrderedMap.isStrictWeakOrder_of_isStrictTotalOrder lt
  obtain ⟨hflag, hlog, htarget⟩ := h.erasing (key, value) (by simp [hphase, Phase.erasing])
  have hpair : L.value w₀.1 key = some value :=
    h.pending (key, value) (by simp [hphase, Phase.pending])
  have hvalue : ∀ k', L.value (source.erase s.1.1 key).2 k' =
      if key = k' then none else L.value s.1.1 k' := by
    intro k'
    rw [L.value_erase]
    simp only [OrderedMap.incompRel_iff_eq]
  refine ⟨?_, fun hne => absurd hflag hne, ?_, by simp, ?_⟩
  · intro k' v hk
    have hk' : L.value (source.erase s.1.1 key).2 k' = some v := hk
    rw [hvalue] at hk'
    split_ifs at hk'
    exact h.source_le k' v hk'
  · intro p hp
    rw [pending_resume] at hp
    exact h.pending p (by simp [hphase, Phase.pending, hp])
  · intro k' v hk
    by_cases heq : key = k'
    · subst heq
      rw [hpair, Option.some.injEq] at hk
      exact Or.inr ⟨hlog, hk ▸ htarget⟩
    · rcases h.safe k' v hk with hleft | hright
      · left
        change L.value (source.erase s.1.1 key).2 k' = some v
        rw [hvalue, if_neg heq]
        exact hleft
      · exact Or.inr hright

theorem noLoss_step (hlist : L.ListsEntries) {handler : MigrateHandler} {flag : Int}
    {w₀ : σ × τ} (s : ((σ × τ) × Phase) × List Bulk) (net : Forward)
    (s' : ((σ × τ) × Phase) × List Bulk) (h : NoLoss L L' flag w₀ s)
    (hstep : loggedStep (distinctDatabases source target) handler flag s net = some s') :
    NoLoss L L' flag w₀ s' := by
  have hsw := OrderedMap.isStrictWeakOrder_of_isStrictTotalOrder lt
  obtain ⟨s, log⟩ := s
  obtain ⟨s₁, hs₁, rfl⟩ := Option.map_eq_some_iff.1 hstep
  replace hs₁ : migrationStep handler flag (distinctDatabases source target) s net =
    some s₁ := hs₁
  rcases migrationStep_cases_distinct hlist hs₁ with hread |
    ⟨key, value, k, hphase, hworld, hnext⟩ | ⟨key, value, k, hphase, hworld, hnext⟩
  · have hnone : acknowledges (distinctDatabases source target) s net = none := by
      unfold acknowledges
      split
      · rename_i heq
        have hidle := hread.idle
        rw [heq] at hidle
        cases hidle
      · rfl
    rw [hnone]
    exact noLoss_of_read h hread
  · obtain ⟨w₁, phase⟩ := s₁
    simp only at hworld hnext
    subst hworld
    refine noLoss_forward h hphase ?_ ?_
    · rcases hnext with ⟨-, -, rfl⟩ | ⟨-, rfl⟩ | ⟨-, rfl⟩
      · rw [hphase]
        exact fun p hp => hp
      · intro p hp
        rw [pending_resume] at hp
        simp [hphase, Phase.pending, hp]
      · simp [Phase.pending]
    · rcases hnext with ⟨hacked, hflag, rfl⟩ | ⟨-, rfl⟩ | ⟨-, rfl⟩
      · intro p hp
        cases hp
        exact ⟨rfl, hflag, hacked⟩
      · simp
      · simp [Phase.erasing]
  · obtain ⟨w₁, phase⟩ := s₁
    simp only at hworld hnext
    subst hworld hnext
    have hnone : acknowledges (distinctDatabases source target) s net = none := by
      simp [acknowledges, hphase]
    rw [hnone]
    exact noLoss_erase h hphase

variable (L L') in
/-- After any number of steps of any of the three handlers and whatever the network and
the target do, no pair of the source is lost, a source that is to be kept is unchanged,
and a key whose put was not acknowledged is still in the source. -/
theorem migration_loses_nothing (hlist : L.ListsEntries) (handler : MigrateHandler)
    (found : Bool) (hrets : List ℕ) (flag : Int) (w₀ : σ × τ) (nets : List Forward)
    (w : σ × τ) (phase : Phase) (acked : List Bulk)
    (hrun : run? (loggedStep (distinctDatabases source target) handler flag)
      ((w₀, handler.begin found hrets), []) nets = some ((w, phase), acked)) :
    (∀ k v, L.value w₀.1 k = some v → L.value w.1 k = some v ∨ L'.value w.2 k = some v) ∧
      (flag = sdskvKeepOriginal → L.contents w.1 = L.contents w₀.1) ∧
      ∀ k v, L.value w₀.1 k = some v → k ∉ acked → L.value w.1 k = some v := by
  have h : NoLoss L L' flag w₀ ((w, phase), acked) :=
    invariant_of_step (noLoss_step hlist) (noLoss_begin handler found hrets flag w₀) hrun
  refine ⟨?_, ?_, ?_⟩
  · intro k v hk
    rcases h.safe k v hk with hleft | ⟨-, hright⟩
    · exact Or.inl hleft
    · exact Or.inr hright
  · rintro rfl
    exact h.kept (by decide)
  · intro k v hk hnot
    rcases h.safe k v hk with hleft | ⟨hlog, -⟩
    · exact hleft
    · exact absurd hlog hnot

end NoLoss

/-- The target refuses to overwrite the key of the only pair. -/
theorem migration_loses_nothing_refused : ∃ w phase acked,
    run? (loggedStep (distinctDatabases (mapStore none false) (mapStore none true)) .all
        sdskvRemoveOriginal)
      (((singleEntry false [1] [2], singleEntry true [1] [9]),
        MigrateHandler.all.begin true [hgSuccess]), [])
      [.delivered, .delivered] = some ((w, phase), acked) ∧
    acked = [] ∧ (mapStore_lawful none false).value w.1 [1] = some [2] := by
  refine ⟨_, _, _, rfl, rfl, ?_⟩
  exact (migration_loses_nothing (mapStore_lawful none false) (mapStore_lawful none true)
    (mapStore_listsEntries none false) .all true [hgSuccess] sdskvRemoveOriginal
    (singleEntry false [1] [2], singleEntry true [1] [9])
    [.delivered, .delivered] _ _ _ rfl).2.2 [1] [2] (by decide) (by decide)

end Sdskv
