import Sdskv.Datastore.BerkeleyDB.Reads
import Sdskv.Datastore.Map.Listing
import Sdskv.Migration.Handler

/-!
# Read errors during a migration of keys

`sdskv_migrate_keys_ult` takes what `get` returns for the value of a key. With a
BerkeleyDB source a read that fails looks like a read of an empty value, so the handler
puts the empty value into the target and then erases the original.

The machine is observed together with the last read call on the source. `CleanRead` says
that a read has one of the three codes that the backend understands; in a run of clean
reads every forwarded value is the one of the source, and every erased key was read.
-/

namespace Sdskv

open Transition

section ReadErrors

variable {δ τ : Type*} (db : BerkeleyDbReads δ) (target : AbstractDataStore τ)
  (listKeyvals : BerkeleyDBDataStore δ → Bulk → ℕ → Bulk → Listing)
  (keys : List Bulk) (flag : Int)

/-- A state of the handler with the last read call on the source: its key and its
status. -/
abbrev ReadState (δ τ : Type*) :=
  ((BerkeleyDBDataStore δ × τ) × Phase) × Option (Bulk × BdbReadStatus)

/-- The read call that the next step makes on the source. -/
def readOf (s : ReadState δ τ) : Option (Bulk × BdbReadStatus) :=
  match s.1.2 with
  | .nextKey (key :: _) => some (key, (db.get s.1.1.1.dbm key).1)
  | _ => none

/-- One step of the handler, observed. -/
def readStep (s : ReadState δ τ) (net : Forward) : Option (ReadState δ τ) :=
  (migrationStep (.keys keys) flag
    (distinctDatabases (BerkeleyDBDataStore.store db listKeyvals) target) s.1 net).map
      fun s' => (s', (readOf db s).or s.2)

/-- The read call of the step, if it makes one, ends with 0, `DB_NOTFOUND` or
`DB_KEYEMPTY`. -/
def CleanRead (s : ReadState δ τ) (_ : Forward) : Prop :=
  ∀ read ∈ readOf db s, read.2 ∈ [BdbReadStatus.zero, .notfound, .keyempty]

instance (s : ReadState δ τ) (net : Forward) : Decidable (CleanRead db s net) :=
  inferInstanceAs (Decidable (∀ read ∈ readOf db s, _))

/-- A value that the step puts into the target is the one that the source holds for the
key, and a key that the step erases was read with success just before. -/
def FaithfulStep (view : δ → Bulk → Option Bulk) (s : ReadState δ τ) (_ : Forward) : Prop :=
  match s.1.2 with
  | .forward key value _ => view s.1.1.1.dbm key = some value
  | .erase key _ _ => s.2 = some (key, .zero)
  | _ => True

instance (view : δ → Bulk → Option Bulk) : (s : ReadState δ τ) → (net : Forward) →
    Decidable (FaithfulStep view s net)
  | ((w, .forward key value _), _), _ =>
      inferInstanceAs (Decidable (view w.1.dbm key = some value))
  | ((_, .erase key _ _), last), _ => inferInstanceAs (Decidable (last = some (key, .zero)))
  | ((_, .nextKey _), _), _ => isTrue trivial
  | ((_, .list _), _), _ => isTrue trivial
  | ((_, .done _), _), _ => isTrue trivial

/-- What the handler knows at each point of its loop. -/
def ReadInvariant (view : δ → Bulk → Option Bulk) (s : ReadState δ τ) : Prop :=
  match s.1.2 with
  | .nextKey _ => True
  | .list _ => False
  | .forward key value k =>
      (∃ todo, k = .keys todo) ∧ view s.1.1.1.dbm key = some value ∧ s.2 = some (key, .zero)
  | .erase key _ k => (∃ todo, k = .keys todo) ∧ s.2 = some (key, .zero)
  | .done _ => True

variable {db target listKeyvals keys flag} {lt : Bulk → Bulk → Prop} [DecidableRel lt]

/-- After a clean read, the backend has a value exactly when the read succeeded, and it
is the value of the source. -/
theorem get_of_clean (S : db.Spec lt) {s : BerkeleyDBDataStore δ} {key value : Bulk}
    (hclean : (db.get s.dbm key).1 ∈ [BdbReadStatus.zero, .notfound, .keyempty])
    (hget : (s.get db key).1 = some value) :
    (db.get s.dbm key).1 = .zero ∧ S.view (s.get db key).2.dbm key = some value := by
  simp only [List.mem_cons, List.not_mem_nil, or_false] at hclean
  rcases hclean with hzero | hnot | hempty
  · simp only [BerkeleyDBDataStore.get, hzero] at hget ⊢
    refine ⟨trivial, ?_⟩
    rw [S.get_view, S.get_zero _ _ hzero]
    exact hget
  · simp [BerkeleyDBDataStore.get, hnot] at hget
  · simp [BerkeleyDBDataStore.get, hempty] at hget

theorem readInvariant_step (S : db.Spec lt) {s s' : ReadState δ τ} {net : Forward}
    (h : ReadInvariant S.view s) (hclean : CleanRead db s net)
    (hstep : readStep db target listKeyvals keys flag s net = some s') :
    ReadInvariant S.view s' := by
  obtain ⟨⟨w, phase⟩, last⟩ := s
  obtain ⟨t, hmove, rfl⟩ := Option.map_eq_some_iff.1 hstep
  cases phase with
  | nextKey todo =>
      cases todo with
      | nil =>
          cases hmove
          trivial
      | cons key todo =>
          simp only [migrationStep, distinctDatabases, BerkeleyDBDataStore.store] at hmove
          cases hget : (w.1.get db key).1 with
          | none =>
              simp only [hget] at hmove
              cases hmove
              trivial
          | some value =>
              simp only [hget] at hmove
              cases hmove
              obtain ⟨hzero, hview⟩ := get_of_clean S (hclean _ rfl) hget
              refine ⟨⟨todo, rfl⟩, hview, ?_⟩
              simp [readOf, hzero]
  | list startKey => exact h.elim
  | forward key value k =>
      obtain ⟨⟨todo, rfl⟩, -, hlast⟩ := h
      simp only [migrationStep] at hmove
      split at hmove
      · split_ifs at hmove
        · cases hmove
          exact ⟨⟨todo, rfl⟩, hlast⟩
        · cases hmove
          trivial
      · cases hmove
        trivial
  | erase key value k =>
      obtain ⟨⟨todo, rfl⟩, -⟩ := h
      cases hmove
      trivial
  | done ret => cases hmove

theorem faithfulStep_of_invariant {view : δ → Bulk → Option Bulk} {s : ReadState δ τ}
    (h : ReadInvariant view s) (net : Forward) : FaithfulStep view s net := by
  obtain ⟨⟨w, phase⟩, last⟩ := s
  cases phase with
  | forward key value k => exact h.2.1
  | erase key value k => exact h.2
  | _ => trivial

theorem readInvariant_begin (view : δ → Bulk → Option Bulk) (found : Bool) (hrets : List ℕ)
    (w : BerkeleyDBDataStore δ × τ) (last : Option (Bulk × BdbReadStatus)) :
    ReadInvariant view ((w, (MigrateHandler.keys keys).begin found hrets), last) := by
  unfold MigrateHandler.begin
  split_ifs
  · split
    · trivial
    · trivial
  · trivial

end ReadErrors

section Examples

/-- A BerkeleyDB database that binds 1 to 2, with faults to come. -/
def faultySource (faults : List (Option ℕ)) :
    BerkeleyDBDataStore (List (Bulk × Bulk) × List (Option ℕ)) :=
  { noOverwrite := false, dbm := ([([1], [2])], faults) }

end Examples

end Sdskv
