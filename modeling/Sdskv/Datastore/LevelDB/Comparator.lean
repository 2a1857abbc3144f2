import Sdskv.Datastore.ListKeys
import Sdskv.Transition.Run

/-!
# The comparator of the LevelDB backend

The comparator that the backend gives to `leveldb::DB::Open` reads `_less` of the datastore at
every comparison. `sdskv_provider_attach_database` opens the datastore first and installs the
comparison function of the configuration in the datastore that it gets, so that LevelDB
compares bytes until then: while `Open` recovers what is at the path, and while its background
thread works before the function is installed.

LevelDB is a parameter, of which the model has the keys that `Open` compares. All other
comparisons are events of a run. `comparesConfigured_iff` says that a run compares in the
configured order throughout exactly when no keys are compared before the function is
installed, unless the function orders the keys as their bytes do.
-/

namespace Sdskv

open Transition

/-- `leveldb::DB::Open` on what is at a path: the keys that it compares with a comparator, and
whether it succeeds. -/
structure LevelDBOpen (π : Type*) where
  compares : π → ComparatorFn → List (Bulk × Bulk)
  ok : π → ComparatorFn → Bool

/-- Where a database is in its life; it is attached when `sdskv_provider_attach_database` has
installed the comparison function. -/
inductive AttachPhase
  | created
  | opened
  | attached
  | closed
  deriving DecidableEq

/-- Two keys that LevelDB compares, and the comparator that answers. -/
structure KeyComparison where
  order : ComparatorFn
  keys : Bulk × Bulk

/-- A `LevelDBDataStore` from its construction on, with the comparisons made on its behalf. -/
structure LevelDBLife where
  less : Option ComparatorFn
  phase : AttachPhase
  comparisons : List KeyComparison

/-- What happens to a database. `compare` is a comparison of the background thread or of an
operation. -/
inductive LevelDBEvent (π : Type*)
  | openDatabase (path : π)
  | setComparisonFunction
  | compare (keys : Bulk × Bulk)
  | close

namespace LevelDBLife

variable {π : Type*}

/-- The constructor of `LevelDBDataStore`. -/
def create : LevelDBLife :=
  { less := none, phase := .created, comparisons := [] }

/-- The comparator in force. -/
def keycmp (l : LevelDBLife) : ComparatorFn := LevelDBDataStoreComparator.compare l.less

/-- LevelDB compares keys. -/
def compareAll (l : LevelDBLife) (keys : List (Bulk × Bulk)) : LevelDBLife :=
  { l with comparisons := l.comparisons ++ keys.map fun k => { order := l.keycmp, keys := k } }

/-- The phase after `Open`; a datastore that cannot be opened is deleted by the factory. -/
def phaseOfOpen (ok : Bool) : AttachPhase := if ok then .opened else .closed

/-- One event in the life of a database that is attached with the comparison function
`compFn`. -/
def step (db : LevelDBOpen π) (compFn : ComparatorFn) (l : LevelDBLife) :
    LevelDBEvent π → Option LevelDBLife
  | .openDatabase path =>
      if l.phase = .created then
        some { l.compareAll (db.compares path l.keycmp) with
               phase := phaseOfOpen (db.ok path l.keycmp) }
      else none
  | .setComparisonFunction =>
      if l.phase = .opened then some { l with less := some compFn, phase := .attached }
      else none
  | .compare keys =>
      if l.phase = .opened ∨ l.phase = .attached then some (l.compareAll [keys]) else none
  | .close => if l.phase = .attached then some { l with phase := .closed } else none

/-- All comparisons use the configured order. -/
def ComparesConfigured (compFn : ComparatorFn) (l : LevelDBLife) : Prop :=
  ∀ c ∈ l.comparisons, comparatorLess c.order = comparatorLess compFn

/-- The event compares no keys before the function is installed, unless the function orders
the keys as their bytes do. -/
def ComparesAttached (db : LevelDBOpen π) (compFn : ComparatorFn) (l : LevelDBLife) :
    LevelDBEvent π → Prop
  | .openDatabase path =>
      comparatorLess compFn = stringLess ∨ db.compares path sliceCompare = []
  | .compare _ => comparatorLess compFn = stringLess ∨ l.phase = .attached
  | _ => True

/-- The function is installed exactly in an attached database, and all comparisons so far use
the configured order. -/
structure Inv (compFn : ComparatorFn) (l : LevelDBLife) : Prop where
  unset : l.phase = .created ∨ l.phase = .opened → l.less = none
  set : l.phase = .attached → l.less = some compFn
  configured : l.ComparesConfigured compFn

variable {db : LevelDBOpen π} {compFn : ComparatorFn} {l l' : LevelDBLife}

theorem inv_create (compFn : ComparatorFn) : create.Inv compFn where
  unset _ := rfl
  set h := by cases h
  configured c hc := absurd hc List.not_mem_nil

theorem keycmp_of_unset (h : l.less = none) : l.keycmp = sliceCompare := by
  rw [keycmp, h]
  rfl

theorem keycmp_of_set (h : l.less = some compFn) : l.keycmp = compFn := by
  rw [keycmp, h]
  rfl

/-- Comparisons keep the configured order exactly when there are none or the comparator in
force has that order. -/
theorem comparesConfigured_compareAll_iff (hl : l.ComparesConfigured compFn)
    (keys : List (Bulk × Bulk)) :
    (l.compareAll keys).ComparesConfigured compFn ↔
      comparatorLess l.keycmp = comparatorLess compFn ∨ keys = [] := by
  constructor
  · intro h
    cases keys with
    | nil => exact Or.inr rfl
    | cons k keys => exact Or.inl (h ⟨l.keycmp, k⟩ (by simp [compareAll]))
  · intro h c hc
    rcases List.mem_append.1 hc with hc | hc
    · exact hl c hc
    · obtain ⟨k, hk, rfl⟩ := List.mem_map.1 hc
      rcases h with horder | rfl
      · exact horder
      · cases hk

/-- What an event does, and when it can happen. -/
theorem step_cases {e : LevelDBEvent π} (hstep : l.step db compFn e = some l') :
    (∃ path, e = .openDatabase path ∧ l.phase = .created ∧
      l' = { l.compareAll (db.compares path l.keycmp) with
             phase := phaseOfOpen (db.ok path l.keycmp) }) ∨
    (e = .setComparisonFunction ∧ l.phase = .opened ∧
      l' = { l with less := some compFn, phase := .attached }) ∨
    (∃ keys, e = .compare keys ∧ (l.phase = .opened ∨ l.phase = .attached) ∧
      l' = l.compareAll [keys]) ∨
    (e = .close ∧ l.phase = .attached ∧ l' = { l with phase := .closed }) := by
  cases e with
  | openDatabase path =>
      simp only [step] at hstep
      split_ifs at hstep with hphase
      exact Or.inl ⟨path, rfl, hphase, (Option.some.inj hstep).symm⟩
  | setComparisonFunction =>
      simp only [step] at hstep
      split_ifs at hstep with hphase
      exact Or.inr (Or.inl ⟨rfl, hphase, (Option.some.inj hstep).symm⟩)
  | compare keys =>
      simp only [step] at hstep
      split_ifs at hstep with hphase
      exact Or.inr (Or.inr (Or.inl ⟨keys, rfl, hphase, (Option.some.inj hstep).symm⟩))
  | close =>
      simp only [step] at hstep
      split_ifs at hstep with hphase
      exact Or.inr (Or.inr (Or.inr ⟨rfl, hphase, (Option.some.inj hstep).symm⟩))

/-- The comparisons after an event use the configured order exactly when the event meets the
condition. -/
theorem comparesConfigured_step_iff {e : LevelDBEvent π} (hinv : l.Inv compFn)
    (hstep : l.step db compFn e = some l') :
    l'.ComparesConfigured compFn ↔ l.ComparesAttached db compFn e := by
  have hbytes : comparatorLess sliceCompare = stringLess := comparatorLess_compare_none
  rcases step_cases hstep with ⟨path, rfl, hphase, rfl⟩ | ⟨rfl, -, rfl⟩ |
    ⟨keys, rfl, hphase, rfl⟩ | ⟨rfl, -, rfl⟩
  · have hkeycmp := keycmp_of_unset (hinv.unset (Or.inl hphase))
    refine (comparesConfigured_compareAll_iff hinv.configured _).trans ?_
    rw [ComparesAttached, hkeycmp, hbytes, eq_comm]
  · exact iff_of_true hinv.configured trivial
  · rw [comparesConfigured_compareAll_iff hinv.configured, ComparesAttached]
    rcases hphase with hopened | hattached
    · rw [keycmp_of_unset (hinv.unset (Or.inr hopened)), hbytes, hopened]
      simp [eq_comm]
    · rw [keycmp_of_set (hinv.set hattached), hattached]
      simp
  · exact iff_of_true hinv.configured trivial

theorem inv_step {e : LevelDBEvent π} (hinv : l.Inv compFn)
    (hok : l.ComparesAttached db compFn e) (hstep : l.step db compFn e = some l') :
    l'.Inv compFn := by
  have hconfigured := (comparesConfigured_step_iff hinv hstep).2 hok
  rcases step_cases hstep with ⟨path, rfl, hphase, rfl⟩ | ⟨rfl, -, rfl⟩ | ⟨keys, rfl, -, rfl⟩ |
    ⟨rfl, -, rfl⟩
  · refine ⟨fun _ => hinv.unset (Or.inl hphase), fun hattached => ?_, hconfigured⟩
    simp only [phaseOfOpen] at hattached
    split_ifs at hattached
  · exact ⟨by simp, fun _ => rfl, hconfigured⟩
  · exact ⟨hinv.unset, hinv.set, hconfigured⟩
  · exact ⟨by simp, by simp, hconfigured⟩

end LevelDBLife

/-- From the creation of the datastore on, all comparisons made on behalf of a database use the
configured order exactly when none is made before the comparison function is installed, neither
by `Open` on what is at the path nor by the background thread, or the function orders the keys
as their bytes do. -/
theorem comparesConfigured_iff {π : Type*} (db : LevelDBOpen π) (compFn : ComparatorFn)
    {events : List (LevelDBEvent π)} {l : LevelDBLife}
    (hrun : run? (LevelDBLife.step db compFn) LevelDBLife.create events = some l) :
    (∀ n t, run? (LevelDBLife.step db compFn) LevelDBLife.create (events.take n) = some t →
      t.ComparesConfigured compFn) ↔
    holdsAlong (LevelDBLife.step db compFn) (LevelDBLife.ComparesAttached db compFn)
      LevelDBLife.create events := by
  have hgood : ∀ s, LevelDBLife.Inv compFn s → s.ComparesConfigured compFn :=
    fun s hinv => hinv.configured
  apply forall_prefix_iff_holdsAlong hgood _ _ (LevelDBLife.inv_create compFn) hrun
  · exact fun s e s' hinv hok hstep => LevelDBLife.inv_step hinv hok hstep
  · exact fun s e s' hinv hnot hstep hconfigured =>
      hnot ((LevelDBLife.comparesConfigured_step_iff hinv hstep).1 hconfigured)

/-- The insertion of a key into a sorted list, with the keys that are compared. -/
def insertCompares (cmp : ComparatorFn) (key : Bulk) : List Bulk → List (Bulk × Bulk) × List Bulk
  | [] => ([], [key])
  | k :: ks =>
      if cmp k key < 0 then
        let (compared, ks) := insertCompares cmp key ks
        ((k, key) :: compared, k :: ks)
      else ([(k, key)], key :: k :: ks)

/-- The keys of a log are inserted one after the other. -/
def replayCompares (cmp : ComparatorFn) : List Bulk → List Bulk → List (Bulk × Bulk)
  | _, [] => []
  | memtable, key :: log =>
      let (compared, memtable) := insertCompares cmp key memtable
      compared ++ replayCompares cmp memtable log

/-- A database whose path has a log of keys that `Open` inserts into an empty table. -/
def logReplay : LevelDBOpen (List Bulk) where
  compares log cmp := replayCompares cmp [] log
  ok _ _ := true

/-- The order of the bytes from the greatest to the smallest key. -/
def reverseCompare : ComparatorFn := fun a b => sliceCompare b a

/-- At a fresh path all comparisons use the configured order. -/
theorem comparesConfigured_fresh :
    ∃ l, run? (LevelDBLife.step logReplay reverseCompare) LevelDBLife.create
        [.openDatabase [], .setComparisonFunction, .compare ([1], [2]), .close] = some l ∧
      ∀ n t, run? (LevelDBLife.step logReplay reverseCompare) LevelDBLife.create
        (List.take n
          [.openDatabase [], .setComparisonFunction, .compare ([1], [2]), .close]) = some t →
        t.ComparesConfigured reverseCompare := by
  have hrun : run? (LevelDBLife.step logReplay reverseCompare) LevelDBLife.create
      [.openDatabase [], .setComparisonFunction, .compare ([1], [2]), .close] =
      some { less := some reverseCompare, phase := .closed,
             comparisons := [{ order := reverseCompare, keys := ([1], [2]) }] } := rfl
  refine ⟨_, hrun, (comparesConfigured_iff logReplay reverseCompare hrun).2 ?_⟩
  refine ⟨Or.inr rfl, fun l hl => ⟨trivial, fun l' hl' => ⟨Or.inr ?_, fun _ _ => ⟨trivial, ?_⟩⟩⟩⟩
  · cases hl
    cases hl'
    rfl
  · exact fun _ _ => trivial

/-- At a path with two records in its log, `Open` compares them in the order of the bytes. -/
theorem not_comparesConfigured_log :
    ∃ l, run? (LevelDBLife.step logReplay reverseCompare) LevelDBLife.create
        [.openDatabase [[1], [2]]] = some l ∧
      l.comparisons = [{ order := sliceCompare, keys := ([1], [2]) }] ∧
      ¬ l.ComparesConfigured reverseCompare := by
  refine ⟨_, rfl, rfl, fun h => ?_⟩
  have horder : comparatorLess sliceCompare = comparatorLess reverseCompare :=
    h ⟨sliceCompare, ([1], [2])⟩ List.mem_cons_self
  have hless : comparatorLess reverseCompare [1] [2] := horder ▸ (by decide)
  revert hless
  decide

end Sdskv
