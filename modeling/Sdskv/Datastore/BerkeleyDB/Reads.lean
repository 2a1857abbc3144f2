import Sdskv.Datastore.BerkeleyDB.Basic

/-!
# Reads of the BerkeleyDB backend

The read calls of `Db` report more than the write calls: besides success and
`DB_NOTFOUND` there is `DB_KEYEMPTY`, and any other code is an error, such as a
deadlock. `get` of the backend tells the first two codes of absence from all others:
after an error it returns what the `Dbt` holds, as after a success.

`faultyBerkeleyDb` is an ordered map behind a sequence of faults: the call at the head
of the sequence fails with the given code, or goes through.
-/

namespace Sdskv

/-- The status codes of the read calls of `Db`. -/
inductive BdbReadStatus
  | zero
  | notfound
  | keyempty
  | error (code : ℕ)
  deriving DecidableEq

/-- The read calls of `Db`; `get` also gives the content of the `Dbt` after the call. -/
structure BerkeleyDbReads (δ : Type*) extends BerkeleyDb δ where
  get : δ → Bulk → BdbReadStatus × Bulk × δ
  «exists» : δ → Bulk → BdbReadStatus × δ

/-- The calls on `Dbt`s; the `Dbt` of a value is filled by the database. -/
def BerkeleyDbReads.onDbts {δ : Type*} (db : BerkeleyDbReads δ) : BerkeleyDbReads δ :=
  { db.toBerkeleyDb.onDbts with
    get := fun d key => db.get d (dbt key)
    «exists» := fun d key => db.exists d (dbt key) }

/-- The documented behaviour of the read calls. -/
structure BerkeleyDbReads.Spec {δ : Type*} (db : BerkeleyDbReads δ)
    (lt : Bulk → Bulk → Prop) [DecidableRel lt] extends db.toBerkeleyDb.Spec lt where
  get_view : ∀ d k, view (db.get d k).2.2 = view d
  get_zero : ∀ d k, (db.get d k).1 = .zero → view d k = some (db.get d k).2.1
  get_notfound : ∀ d k, (db.get d k).1 = .notfound → view d k = none
  get_keyempty : ∀ d k, (db.get d k).1 = .keyempty → view d k = none
  exists_view : ∀ d k, view (db.exists d k).2 = view d
  exists_zero : ∀ d k, (db.exists d k).1 = .zero → view d k ≠ none
  exists_notfound : ∀ d k, (db.exists d k).1 = .notfound → view d k = none

namespace BerkeleyDBDataStore

variable {δ : Type*} (db : BerkeleyDbReads δ)

/-- `get(const ds_bulk_t&, ds_bulk_t&)`; the factory leaves `_eraseOnGet` off. -/
def get (s : BerkeleyDBDataStore δ) (key : Bulk) : Option Bulk × BerkeleyDBDataStore δ :=
  let (status, data, d) := db.get s.dbm key
  (if status ≠ .notfound ∧ status ≠ .keyempty then some data else none, { s with dbm := d })

/-- `exists(const void*, hg_size_t)`: every status but `DB_NOTFOUND` counts as present. -/
def «exists» (s : BerkeleyDBDataStore δ) (key : Pointer) (size : ℕ) :
    Bool × BerkeleyDBDataStore δ :=
  let (status, d) := db.exists s.dbm (bulkOfPointer key size)
  (decide (status ≠ .notfound), { s with dbm := d })

/-- The backend with a listing method. -/
def store (listKeyvals : BerkeleyDBDataStore δ → Bulk → ℕ → Bulk → Listing) :
    AbstractDataStore (BerkeleyDBDataStore δ) :=
  { writes db.toBerkeleyDb with
    get := get db
    listKeyvals := listKeyvals }

end BerkeleyDBDataStore

/-- The status of a read call that does not fail, for the value under the key. -/
def readStatus : Option Bulk → BdbReadStatus
  | none => .notfound
  | some _ => .zero

theorem readStatus_eq_zero_iff {value : Option Bulk} :
    readStatus value = .zero ↔ ∃ v, value = some v := by
  cases value <;> simp [readStatus]

theorem readStatus_eq_notfound_iff {value : Option Bulk} :
    readStatus value = .notfound ↔ value = none := by
  cases value <;> simp [readStatus]

theorem readStatus_ne_keyempty (value : Option Bulk) : readStatus value ≠ .keyempty := by
  cases value <;> simp [readStatus]

/-- A database whose calls do not fail: a `put` that may overwrite succeeds, and the other
calls tell whether the key is there. -/
structure BerkeleyDbReads.NoErrors {δ : Type*} {lt : Bulk → Bulk → Prop} [DecidableRel lt]
    {db : BerkeleyDbReads δ} (S : db.Spec lt) : Prop where
  put_zero : ∀ d k v, (db.put d k v false).1 = .zero
  del_zero_iff : ∀ d k, (db.del d k).1 = .zero ↔ S.view d k ≠ none
  get : ∀ d k, (db.get d k).1 = readStatus (S.view d k)
  «exists» : ∀ d k, (db.exists d k).1 = readStatus (S.view d k)

/-- The ordered map with read calls. -/
def orderedBerkeleyDbReads (lt : Bulk → Bulk → Prop) [DecidableRel lt] :
    BerkeleyDbReads (List (Bulk × Bulk)) :=
  { orderedBerkeleyDb lt with
    get := fun m k =>
      (readStatus (OrderedMap.lookup lt m k), (OrderedMap.lookup lt m k).getD [], m)
    «exists» := fun m k => (readStatus (OrderedMap.lookup lt m k), m) }

/-- The ordered map meets the specification. -/
def orderedBerkeleyDbReads_spec (lt : Bulk → Bulk → Prop) [DecidableRel lt]
    [IsStrictWeakOrder Bulk lt] : (orderedBerkeleyDbReads lt).Spec lt :=
  { orderedBerkeleyDb_spec lt with
    get_view := fun _ _ => rfl
    get_zero := fun d k h => by
      obtain ⟨v, hv⟩ := readStatus_eq_zero_iff.1 h
      change OrderedMap.lookup lt d k = some ((OrderedMap.lookup lt d k).getD [])
      rw [hv]
      rfl
    get_notfound := fun _ _ h => readStatus_eq_notfound_iff.1 h
    get_keyempty := fun _ _ h => absurd h (readStatus_ne_keyempty _)
    exists_view := fun _ _ => rfl
    exists_zero := fun _ _ h => Option.ne_none_iff_exists'.2 (readStatus_eq_zero_iff.1 h)
    exists_notfound := fun _ _ h => readStatus_eq_notfound_iff.1 h }

theorem orderedBerkeleyDbReads_noErrors (lt : Bulk → Bulk → Prop) [DecidableRel lt]
    [IsStrictWeakOrder Bulk lt] :
    BerkeleyDbReads.NoErrors (orderedBerkeleyDbReads_spec lt) where
  put_zero d k v := by simp [orderedBerkeleyDbReads, orderedBerkeleyDb]
  del_zero_iff d k := by
    change ((orderedBerkeleyDb lt).del d k).1 = .zero ↔ OrderedMap.lookup lt d k ≠ none
    by_cases h : OrderedMap.lookup lt d k = none <;> simp [orderedBerkeleyDb, h]
  get _ _ := rfl
  «exists» _ _ := rfl

/-- The status of a read call on an ordered map in front of a sequence of faults. -/
def faultyRead (lt : Bulk → Bulk → Prop) [DecidableRel lt]
    (d : List (Bulk × Bulk) × List (Option ℕ)) (k : Bulk) : BdbReadStatus :=
  match d.2.head?.join with
  | some code => .error code
  | none => readStatus (OrderedMap.lookup lt d.1 k)

/-- An ordered map whose read calls fail as the sequence of faults says; a call that
fails leaves the `Dbt` empty. -/
def faultyBerkeleyDb (lt : Bulk → Bulk → Prop) [DecidableRel lt] :
    BerkeleyDbReads (List (Bulk × Bulk) × List (Option ℕ)) where
  put d k v flag :=
    (((orderedBerkeleyDb lt).put d.1 k v flag).1,
      ((orderedBerkeleyDb lt).put d.1 k v flag).2, d.2)
  putMultiple d keys data flag :=
    (((orderedBerkeleyDb lt).putMultiple d.1 keys data flag).1,
      ((orderedBerkeleyDb lt).putMultiple d.1 keys data flag).2, d.2)
  del d k :=
    (((orderedBerkeleyDb lt).del d.1 k).1, ((orderedBerkeleyDb lt).del d.1 k).2, d.2)
  get d k :=
    (faultyRead lt d k,
      if faultyRead lt d k = .zero then (OrderedMap.lookup lt d.1 k).getD [] else [],
      d.1, d.2.tail)
  «exists» d k := (faultyRead lt d k, d.1, d.2.tail)

section Faulty

variable (lt : Bulk → Bulk → Prop) [DecidableRel lt]

/-- A read call that does not fail tells whether the key is there. -/
theorem faultyRead_cases (d : List (Bulk × Bulk) × List (Option ℕ)) (k : Bulk) :
    (∃ code, faultyRead lt d k = .error code) ∨
      faultyRead lt d k = readStatus (OrderedMap.lookup lt d.1 k) := by
  unfold faultyRead
  split
  · next code _ => exact Or.inl ⟨code, rfl⟩
  · exact Or.inr rfl

theorem readStatus_of_faultyRead {d : List (Bulk × Bulk) × List (Option ℕ)} {k : Bulk}
    {status : BdbReadStatus} (h : faultyRead lt d k = status)
    (hstatus : ∀ code, status ≠ .error code) :
    readStatus (OrderedMap.lookup lt d.1 k) = status := by
  rcases faultyRead_cases lt d k with ⟨code, hcode⟩ | hread
  · exact absurd (h.symm.trans hcode) (hstatus code)
  · exact hread.symm.trans h

/-- The faulty map meets the specification, whatever the faults are. -/
def faultyBerkeleyDb_spec [IsStrictWeakOrder Bulk lt] : (faultyBerkeleyDb lt).Spec lt where
  view d := OrderedMap.lookup lt d.1
  view_congr d := (orderedBerkeleyDb_spec lt).view_congr d.1
  put_zero d := (orderedBerkeleyDb_spec lt).put_zero d.1
  put_not_zero d := (orderedBerkeleyDb_spec lt).put_not_zero d.1
  put_noOverwrite d := (orderedBerkeleyDb_spec lt).put_noOverwrite d.1
  putMultiple_zero d := (orderedBerkeleyDb_spec lt).putMultiple_zero d.1
  putMultiple_not_zero d := (orderedBerkeleyDb_spec lt).putMultiple_not_zero d.1
  del_zero d := (orderedBerkeleyDb_spec lt).del_zero d.1
  del_not_zero d := (orderedBerkeleyDb_spec lt).del_not_zero d.1
  get_view _ _ := rfl
  get_zero d k h := by
    obtain ⟨v, hv⟩ := readStatus_eq_zero_iff.1 (readStatus_of_faultyRead lt h (by simp))
    have hread : faultyRead lt d k = .zero := h
    simp [faultyBerkeleyDb, hread, hv]
  get_notfound _ _ h :=
    readStatus_eq_notfound_iff.1 (readStatus_of_faultyRead lt h (by simp))
  get_keyempty _ _ h :=
    absurd (readStatus_of_faultyRead lt h (by simp)) (readStatus_ne_keyempty _)
  exists_view _ _ := rfl
  exists_zero _ _ h := Option.ne_none_iff_exists'.2
    (readStatus_eq_zero_iff.1 (readStatus_of_faultyRead lt h (by simp)))
  exists_notfound _ _ h :=
    readStatus_eq_notfound_iff.1 (readStatus_of_faultyRead lt h (by simp))

end Faulty

end Sdskv
