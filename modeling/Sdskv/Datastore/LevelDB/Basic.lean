import Sdskv.Datastore.Interface

/-!
# The LevelDB backend

LevelDB itself is a parameter. `LevelDB δ` has the three calls of `leveldb::DB`
that the backend makes on a database of type `δ`; each may fail with a status
other than `NotFound`, and a failing device may behave differently at the next
call, so a read returns a new `δ` as well. `LevelDB.Spec` is what the backend
relies on: a successful call reads or changes the bindings, a failing one does
not change them.

`put` with overwriting off is two calls, a `Get` inside `exists` and a `Put`.
-/

namespace Sdskv

/-- `leveldb::Status`. -/
inductive LevelStatus
  | ok
  | notFound
  | error
  deriving DecidableEq, Repr

/-- The calls of `leveldb::DB`. -/
structure LevelDB (δ : Type*) where
  get : δ → Bulk → LevelStatus × Bulk × δ
  put : δ → Bulk → Bulk → LevelStatus × δ
  delete : δ → Bulk → LevelStatus × δ

/-- The documented behaviour of the calls, over the bindings `view` of a
database. -/
structure LevelDB.Spec {δ : Type*} (db : LevelDB δ) (lt : Bulk → Bulk → Prop)
    [DecidableRel lt] where
  view : δ → Bulk → Option Bulk
  view_congr : ∀ d k k', IncompRel lt k k' → view d k = view d k'
  get_view : ∀ d k, view (db.get d k).2.2 = view d
  get_ok : ∀ d k, (db.get d k).1 = .ok → view d k = some (db.get d k).2.1
  get_notFound : ∀ d k, (db.get d k).1 = .notFound → view d k = none
  put_ok : ∀ d k v, (db.put d k v).1 = .ok → ∀ k', view (db.put d k v).2 k' =
    if IncompRel lt k k' then some v else view d k'
  put_not_ok : ∀ d k v, (db.put d k v).1 ≠ .ok → view (db.put d k v).2 = view d
  delete_ok : ∀ d k, (db.delete d k).1 = .ok → ∀ k', view (db.delete d k).2 k' =
    if IncompRel lt k k' then none else view d k'
  delete_not_ok : ∀ d k, (db.delete d k).1 ≠ .ok → view (db.delete d k).2 = view d

/-- The fields of `LevelDBDataStore` that its methods use. -/
structure LevelDBDataStore (δ : Type*) where
  noOverwrite : Bool
  dbm : δ

namespace LevelDBDataStore

variable {δ : Type*} (db : LevelDB δ)

/-- `exists(const void*, hg_size_t)`: every status but `ok` counts as absent. -/
def «exists» (s : LevelDBDataStore δ) (key : Pointer) (ksize : ℕ) :
    Bool × LevelDBDataStore δ :=
  let (status, _, d) := db.get s.dbm (bulkOfPointer key ksize)
  (decide (status = .ok), { s with dbm := d })

/-- The second half of `put`, after the check for an existing key. -/
def putUnchecked (s : LevelDBDataStore δ) (key : Pointer) (ksize : ℕ) (value : Pointer)
    (vsize : ℕ) : SdskvReturn × LevelDBDataStore δ :=
  let (status, d) := db.put s.dbm (bulkOfPointer key ksize) (bulkOfPointer value vsize)
  (if status = .ok then .success else .errPut, { s with dbm := d })

/-- `put(const void*, hg_size_t, const void*, hg_size_t)`. -/
def put (s : LevelDBDataStore δ) (key : Pointer) (ksize : ℕ) (value : Pointer)
    (vsize : ℕ) : SdskvReturn × LevelDBDataStore δ :=
  if s.noOverwrite then
    let (present, s') := s.exists db key ksize
    if present then (.errKeyexists, s') else s'.putUnchecked db key ksize value vsize
  else s.putUnchecked db key ksize value vsize

/-- `get(const ds_bulk_t&, ds_bulk_t&)`. -/
def get (s : LevelDBDataStore δ) (key : Bulk) : Option Bulk × LevelDBDataStore δ :=
  let (status, value, d) := db.get s.dbm key
  (if status = .ok then some value else none, { s with dbm := d })

/-- `erase`. -/
def erase (s : LevelDBDataStore δ) (key : Bulk) : Bool × LevelDBDataStore δ :=
  let (status, d) := db.delete s.dbm key
  (decide (status = .ok), { s with dbm := d })

/-- The write methods; the batched puts are those of the base class. -/
def writes : DatastoreWrites (LevelDBDataStore δ) where
  put s key data := put db s key key.length data data.length
  putMulti := putMulti (put db)
  putPacked := putPacked (put db)
  erase := erase db

end LevelDBDataStore

/-- A database whose calls do not fail; a `Delete` succeeds whether the key is there or
not. -/
structure LevelDB.NoErrors {δ : Type*} (db : LevelDB δ) : Prop where
  get : ∀ d k, (db.get d k).1 ≠ .error
  put : ∀ d k v, (db.put d k v).1 = .ok
  delete : ∀ d k, (db.delete d k).1 = .ok

/-- A database that never fails, over the entries of an ordered map. -/
def orderedLevelDB (lt : Bulk → Bulk → Prop) [DecidableRel lt] :
    LevelDB (List (Bulk × Bulk)) where
  get m k := match OrderedMap.lookup lt m k with
    | some v => (.ok, v, m)
    | none => (.notFound, [], m)
  put m k v := (.ok, OrderedMap.assign lt m k v)
  delete m k := (.ok, OrderedMap.erase lt m k)

/-- The ordered map meets the specification. -/
def orderedLevelDB_spec (lt : Bulk → Bulk → Prop) [DecidableRel lt]
    [IsStrictWeakOrder Bulk lt] : (orderedLevelDB lt).Spec lt where
  view := OrderedMap.lookup lt
  view_congr d _ _ h := OrderedMap.lookup_congr lt h d
  get_view d k := by
    cases h : OrderedMap.lookup lt d k <;> simp [orderedLevelDB, h]
  get_ok d k hok := by
    cases h : OrderedMap.lookup lt d k with
    | none => simp [orderedLevelDB, h] at hok
    | some v => simp [orderedLevelDB, h]
  get_notFound d k hnot := by
    cases h : OrderedMap.lookup lt d k with
    | none => rfl
    | some v => simp [orderedLevelDB, h] at hnot
  put_ok d k v _ k' := OrderedMap.lookup_assign lt d k v k'
  put_not_ok d k v h := absurd rfl h
  delete_ok d k _ k' := OrderedMap.lookup_erase lt d k k'
  delete_not_ok d k h := absurd rfl h

theorem orderedLevelDB_noErrors (lt : Bulk → Bulk → Prop) [DecidableRel lt] :
    (orderedLevelDB lt).NoErrors where
  get d k := by cases h : OrderedMap.lookup lt d k <;> simp [orderedLevelDB, h]
  put _ _ _ := rfl
  delete _ _ := rfl

end Sdskv
