import Sdskv.Datastore.Map.Listing
import Sdskv.Migration.Handler

/-!
# A migration next to clients that write to its source

A handler with `SDSKV_REMOVE_ORIGINAL` lists a page, puts its pairs to the target and
erases them from the source, with no lock held in between. The requests of other clients
on the source fall between any two of these steps. `RaceState` has, besides the
databases and the point the handler has reached, the value that the last acknowledged
client request left each key with.

An accepted put of a key that the handler has listed and not yet erased is lost when it
brings a new value: the handler forwards the old value and erases the new one. In a run
without such a put no acknowledged update is lost.
-/

namespace Sdskv

open OrderedMap Transition

/-- The databases, the handler, and `last`: what the last acknowledged client request on
a key put, or `none` if there is none or it was an erase. -/
structure RaceState (σ τ : Type*) where
  world : σ × τ
  phase : Phase
  last : Bulk → Option Bulk

/-- An atomic step of the handler, or a client request on the source. -/
inductive RaceAction
  | migrate
  | put (key value : Bulk)
  | erase (key : Bulk)

section Race

variable {σ τ : Type*} (source : AbstractDataStore σ) (target : AbstractDataStore τ)
  (lt : Bulk → Bulk → Prop) [DecidableRel lt] (handler : MigrateHandler)

/-- The handler at its beginning; no client request has been made. -/
def raceStart (found : Bool) (hrets : List ℕ) (w : σ × τ) : RaceState σ τ :=
  { world := w, phase := handler.begin found hrets, last := fun _ => none }

/-- One step of the handler or of a client. -/
def raceStep (s : RaceState σ τ) : RaceAction → Option (RaceState σ τ)
  | .migrate =>
      (migrationStep handler sdskvRemoveOriginal (distinctDatabases source target)
        (s.world, s.phase) .delivered).map fun s' =>
          { s with world := s'.1, phase := s'.2 }
  | .put key value =>
      let (ret, w) := source.put s.world.1 key value
      some { s with
        world := (w, s.world.2)
        last := fun k =>
          if ret = .success ∧ IncompRel lt key k then some value else s.last k }
  | .erase key =>
      some { s with
        world := ((source.erase s.world.1 key).2, s.world.2)
        last := fun k => if IncompRel lt key k then none else s.last k }

/-- A put that the source accepts does not give a new value to a key that the handler has
read and not yet erased. -/
def NoStalePut (s : RaceState σ τ) : RaceAction → Prop
  | .put key value => (source.put s.world.1 key value).1 = .success →
      ∀ p ∈ s.phase.pending, IncompRel lt p.1 key → p.2 = value
  | _ => True

instance (s : RaceState σ τ) : ∀ a, Decidable (NoStalePut source lt s a)
  | .put key value => inferInstanceAs
      (Decidable ((source.put s.world.1 key value).1 = .success →
        ∀ p ∈ s.phase.pending, IncompRel lt p.1 key → p.2 = value))
  | .migrate => isTrue trivial
  | .erase _ => isTrue trivial

variable {source target lt handler} {lt' : Bulk → Bulk → Prop} [DecidableRel lt']
  (L : LawfulStore source lt) (L' : LawfulStore target lt')

/-- The value of the last acknowledged put of a key is in the source or in the target. -/
def NoLostUpdate (s : RaceState σ τ) : Prop :=
  ∀ k v, s.last k = some v →
    L.value s.world.1 k = some v ∨ L'.value s.world.2 k = some v

/-- The invariant of runs without a stale put. A pair that is read and not yet erased is
still the binding of its key, unless a client has erased it. -/
structure RaceInv (s : RaceState σ τ) : Prop where
  acked : ∀ k v, s.last k = some v → L.value s.world.1 k = some v ∨
    L.value s.world.1 k = none ∧ L'.value s.world.2 k = some v
  pending : ∀ p ∈ s.phase.pending, L.value s.world.1 p.1 = some p.2 ∨
    L.value s.world.1 p.1 = none ∧ s.last p.1 = none
  distinct : s.phase.pending.Pairwise fun p q => ¬ IncompRel lt p.1 q.1
  erasing : ∀ p ∈ s.phase.erasing, L'.value s.world.2 p.1 = some p.2
  last_congr : ∀ k k', IncompRel lt k k' → s.last k = s.last k'

variable {L L'}

theorem raceInv_start (found : Bool) (hrets : List ℕ) (w : σ × τ) :
    RaceInv L L' (raceStart handler found hrets w) where
  acked _ _ h := by cases h
  pending := by simp [raceStart]
  distinct := by simp [raceStart]
  erasing := by simp [raceStart]
  last_congr _ _ _ := rfl

/-- The handler answers or reads from the source. -/
theorem raceInv_of_read {s : RaceState σ τ} {w : σ × τ} {phase : Phase}
    (h : RaceInv L L' s) (hread : ReadsSource L (s.world, s.phase) (w, phase)) :
    RaceInv L L' { s with world := w, phase := phase } where
  acked k v hk := by
    rw [LawfulStore.value, hread.source_eq, hread.target_eq]
    exact h.acked k v hk
  pending p hp := by
    rw [LawfulStore.value, hread.source_eq]
    exact Or.inl (hread.pending p hp)
  distinct := hread.distinct
  erasing := by simp [hread.erasing]
  last_congr := h.last_congr

variable [IsStrictWeakOrder Bulk lt] [IsStrictWeakOrder Bulk lt']

/-- The handler forwards a pair. A key that the put reaches in the target was not left to
the target by an acknowledged update: its pair is still in the source, or erased by a
client. -/
theorem raceInv_forward (hequiv : ∀ a b, IncompRel lt a b ↔ IncompRel lt' a b)
    (hput : ∀ t k v, (target.put t k v).1 = .success) {s : RaceState σ τ}
    {key value : Bulk} {k : Continuation} (h : RaceInv L L' s)
    (hphase : s.phase = .forward key value k) :
    RaceInv L L' { s with
      world := (s.world.1, (target.put s.world.2 key value).2)
      phase := .erase key value k } := by
  have hvalue := L'.value_put_success (hput s.world.2 key value)
  have hmem : (key, value) ∈ s.phase.pending := by simp [hphase, Phase.pending]
  have hpending : Phase.pending (.erase key value k) = s.phase.pending := by
    rw [hphase]
    rfl
  refine ⟨?_, ?_, ?_, ?_, h.last_congr⟩
  · intro k₀ v₀ hk₀
    rcases h.acked k₀ v₀ hk₀ with hleft | ⟨hnone, htarget⟩
    · exact Or.inl hleft
    · refine Or.inr ⟨hnone, ?_⟩
      have hother : ¬ IncompRel lt' key k₀ := by
        intro hinc
        have hinc' : IncompRel lt key k₀ := (hequiv key k₀).2 hinc
        rcases h.pending _ hmem with hsome | ⟨-, hlast⟩
        · rw [L.value_congr _ hinc', hnone] at hsome
          cases hsome
        · rw [h.last_congr _ _ hinc', hk₀] at hlast
          cases hlast
      rw [hvalue, if_neg hother]
      exact htarget
  · rw [hpending]
    exact h.pending
  · rw [hpending]
    exact h.distinct
  · intro p hp
    cases hp
    rw [hvalue, if_pos (IncompRel.refl lt' key)]

/-- The handler erases a pair that the target holds. -/
theorem raceInv_erase (hequiv : ∀ a b, IncompRel lt a b ↔ IncompRel lt' a b)
    {s : RaceState σ τ} {key value : Bulk} {k : Continuation} (h : RaceInv L L' s)
    (hphase : s.phase = .erase key value k) :
    RaceInv L L' { s with
      world := ((source.erase s.world.1 key).2, s.world.2)
      phase := k.resume handler sdskvRemoveOriginal } := by
  have hvalue := L.value_erase s.world.1 key
  have htarget : L'.value s.world.2 key = some value :=
    h.erasing (key, value) (by simp [hphase, Phase.erasing])
  have hmem : (key, value) ∈ s.phase.pending := by simp [hphase, Phase.pending]
  have hpending : s.phase.pending = (key, value) :: k.pending := by rw [hphase]; rfl
  have hdistinct := h.distinct
  rw [hpending, List.pairwise_cons] at hdistinct
  refine ⟨?_, ?_, ?_, by simp, h.last_congr⟩
  · intro k₀ v₀ hk₀
    rw [hvalue]
    by_cases hinc : IncompRel lt key k₀
    · rw [if_pos hinc]
      refine Or.inr ⟨rfl, ?_⟩
      rcases h.acked k₀ v₀ hk₀ with hleft | ⟨-, hright⟩
      · rcases h.pending _ hmem with hsome | ⟨hnone, -⟩
        · rw [L.value_congr _ hinc, hleft] at hsome
          rw [← L'.value_congr _ ((hequiv key k₀).1 hinc), htarget, hsome]
        · rw [L.value_congr _ hinc, hleft] at hnone
          cases hnone
      · exact hright
    · rw [if_neg hinc]
      exact h.acked k₀ v₀ hk₀
  · intro p hp
    rw [pending_resume] at hp
    rw [hvalue, if_neg (hdistinct.1 p hp)]
    exact h.pending p (by rw [hpending]; exact List.mem_cons_of_mem _ hp)
  · rw [pending_resume]
    exact hdistinct.2

omit [IsStrictWeakOrder Bulk lt'] in
theorem raceInv_put {s s' : RaceState σ τ} {key value : Bulk} (h : RaceInv L L' s)
    (hok : NoStalePut source lt s (.put key value))
    (hstep : raceStep source target lt handler s (.put key value) = some s') :
    RaceInv L L' s' := by
  cases hstep
  by_cases hsuccess : (source.put s.world.1 key value).1 = .success
  · have hvalue := L.value_put_success hsuccess
    refine ⟨?_, ?_, h.distinct, h.erasing, ?_⟩
    · intro k v hk
      simp only [hsuccess, true_and] at hk
      rw [hvalue]
      split_ifs at hk ⊢
      · exact Or.inl hk
      · exact h.acked k v hk
    · intro p hp
      simp only [hsuccess, true_and]
      rw [hvalue]
      by_cases hinc : IncompRel lt key p.1
      · rw [if_pos hinc, hok hsuccess p hp hinc.symm]
        exact Or.inl rfl
      · rw [if_neg hinc, if_neg hinc]
        exact h.pending p hp
    · intro k k' hkk'
      simp only [hsuccess, true_and, incompRel_congr_right lt hkk' key, h.last_congr _ _ hkk']
  · have hvalue := L.value_put_failure hsuccess
    refine ⟨?_, ?_, h.distinct, h.erasing, ?_⟩
    · intro k v hk
      simp only [hsuccess, false_and, if_false] at hk
      rw [hvalue]
      exact h.acked k v hk
    · intro p hp
      simp only [hsuccess, false_and, if_false]
      rw [hvalue]
      exact h.pending p hp
    · intro k k' hkk'
      simp only [hsuccess, false_and, if_false]
      exact h.last_congr k k' hkk'

omit [IsStrictWeakOrder Bulk lt'] in
theorem raceInv_clientErase {s s' : RaceState σ τ} {key : Bulk} (h : RaceInv L L' s)
    (hstep : raceStep source target lt handler s (.erase key) = some s') :
    RaceInv L L' s' := by
  cases hstep
  have hvalue := L.value_erase s.world.1 key
  refine ⟨?_, ?_, h.distinct, h.erasing, ?_⟩
  · intro k v hk
    simp only at hk
    rw [hvalue]
    split_ifs at hk ⊢
    exact h.acked k v hk
  · intro p hp
    rw [hvalue]
    by_cases hinc : IncompRel lt key p.1
    · simp only [if_pos hinc]
      exact Or.inr ⟨trivial, trivial⟩
    · simp only [if_neg hinc]
      exact h.pending p hp
  · intro k k' hkk'
    simp only [incompRel_congr_right lt hkk' key, h.last_congr _ _ hkk']

theorem raceInv_step (hequiv : ∀ a b, IncompRel lt a b ↔ IncompRel lt' a b)
    (hput : ∀ t k v, (target.put t k v).1 = .success) (hlist : L.ListsEntries)
    (s : RaceState σ τ) (a : RaceAction) (s' : RaceState σ τ) (h : RaceInv L L' s)
    (hok : NoStalePut source lt s a)
    (hstep : raceStep source target lt handler s a = some s') : RaceInv L L' s' := by
  cases a with
  | migrate =>
      obtain ⟨⟨w, phase⟩, hs₁, rfl⟩ := Option.map_eq_some_iff.1 hstep
      rcases migrationStep_cases_distinct hlist hs₁ with hread |
        ⟨key, value, k, hphase, hworld, hnext⟩ | ⟨key, value, k, hphase, hworld, hnext⟩
      · exact raceInv_of_read h hread
      · simp only at hphase hworld hnext
        have hforward : forwardPut (distinctDatabases source target) s.world key value
            .delivered = (true, s.world.1, (target.put s.world.2 key value).2) :=
          forwardPut_delivered hput s.world key value
        rw [hforward] at hworld hnext
        rcases hnext with ⟨-, -, rfl⟩ | ⟨hflag, -⟩ | ⟨hfalse, -⟩
        · subst hworld
          exact raceInv_forward hequiv hput h hphase
        · exact absurd rfl hflag
        · cases hfalse
      · simp only at hphase hworld hnext
        subst hworld hnext
        exact raceInv_erase hequiv h hphase
  | put key value => exact raceInv_put h hok hstep
  | erase key => exact raceInv_clientErase h hstep

variable (L L' handler) in
/-- No acknowledged update is lost in a run in which no accepted client put gives a new
value to a key that the handler has read and not yet erased, when the two databases
identify the same keys. -/
theorem noLostUpdate_of_noStalePut (hequiv : ∀ a b, IncompRel lt a b ↔ IncompRel lt' a b)
    (hput : ∀ t k v, (target.put t k v).1 = .success) (hlist : L.ListsEntries)
    (found : Bool) (hrets : List ℕ) (w : σ × τ) (actions : List RaceAction)
    (s : RaceState σ τ)
    (hok : holdsAlong (raceStep source target lt handler) (NoStalePut source lt)
      (raceStart handler found hrets w) actions)
    (hrun : run? (raceStep source target lt handler) (raceStart handler found hrets w)
      actions = some s) :
    NoLostUpdate L L' s := by
  have h : RaceInv L L' s := invariant_of_run (raceInv_step hequiv hput hlist)
    (raceInv_start found hrets w) hok hrun
  intro k v hk
  rcases h.acked k v hk with hleft | ⟨-, hright⟩
  · exact Or.inl hleft
  · exact Or.inr hright

end Race

/-- A migration of all keys between two map databases. -/
abbrev mapRaceStep := raceStep (mapStore none false) (mapStore none false) (keycmp none) .all

/-- Both databases hold one pair at the start. -/
def mapRaceStart : RaceState (MapState none false) (MapState none false) :=
  raceStart .all true [hgSuccess] (singleEntry false [1] [1], singleEntry false [2] [2])

/-- A client overwrites the pair before the handler lists it, and again after the
handler has erased it. -/
theorem noLostUpdate_of_noStalePut_outside : ∃ s,
    run? mapRaceStep mapRaceStart
      [.put [1] [5], .migrate, .migrate, .migrate, .put [1] [7]] = some s ∧
    s.phase = .done SdskvReturn.success.code ∧
    NoLostUpdate (mapStore_lawful none false) (mapStore_lawful none false) s := by
  refine ⟨_, rfl, rfl, ?_⟩
  exact noLostUpdate_of_noStalePut .all (mapStore_lawful none false)
    (mapStore_lawful none false) (fun _ _ => Iff.rfl) (mapStore_put_success none)
    (mapStore_listsEntries none false) true [hgSuccess]
    (singleEntry false [1] [1], singleEntry false [2] [2])
    [.put [1] [5], .migrate, .migrate, .migrate, .put [1] [7]] _ (by decide) rfl

/-- A client overwrites the pair after the handler has forwarded it and before it is
erased: the new value is in neither database. -/
theorem stalePut_lost : ∃ s,
    run? mapRaceStep mapRaceStart [.migrate, .migrate, .put [1] [5], .migrate] = some s ∧
    s.phase = .done SdskvReturn.success.code ∧ s.last [1] = some [5] ∧
    (mapStore_lawful none false).value s.world.1 [1] = none ∧
    (mapStore_lawful none false).value s.world.2 [1] = some [1] ∧
    ¬ NoLostUpdate (mapStore_lawful none false) (mapStore_lawful none false) s := by
  refine ⟨_, rfl, rfl, rfl, by decide, by decide, ?_⟩
  intro h
  have hlost := h [1] [5] rfl
  revert hlost
  decide

end Sdskv
