import Sdskv.Concurrency.RwLock
import Sdskv.Datastore.Map.Range
import Sdskv.Transition.Run

/-!
# The lock of the map backend

Every method of `MapDataStore` takes `_map_lock` and releases it by hand before each of its
`return`s. Here the methods are written with these calls, on a store next to its lock. An
operation that does not return is `none`: the lock is not free, its loop does not end, or
it reads the end iterator.

`step_eq` says what an operation does: it takes the lock once, has the effect that the
method has on the store, and releases the lock once. The exception is the early return of
the two range listings, which is made before the release. A run of operations therefore
leaves the lock free exactly when none of its range listings has a lower bound with no key
after it; after such a listing no writer gets the lock any more.
-/

namespace Sdskv

open Concurrency (RwLock)
open Transition

/-- The lock of a map, with the number of times it was taken and released. -/
structure MapLock extends RwLock where
  taken : ℕ
  released : ℕ

namespace MapLock

/-- `ABT_rwlock_create`. -/
def create : MapLock :=
  { RwLock.free with taken := 0, released := 0 }

/-- `ABT_rwlock_rdlock`; `none` when the call waits. -/
def rdlock (l : MapLock) : Option MapLock :=
  l.toRwLock.rdlock.map fun lock => { l with toRwLock := lock, taken := l.taken + 1 }

/-- `ABT_rwlock_wrlock`; `none` when the call waits. -/
def wrlock (l : MapLock) : Option MapLock :=
  l.toRwLock.wrlock.map fun lock => { l with toRwLock := lock, taken := l.taken + 1 }

/-- `ABT_rwlock_unlock`. -/
def unlock (l : MapLock) : MapLock :=
  { l with toRwLock := l.toRwLock.unlock, released := l.released + 1 }

/-- Nobody holds the lock, and it was released as often as it was taken. -/
structure Idle (l : MapLock) : Prop where
  readers : l.readers = 0
  writer : l.writer = false
  balance : l.taken = l.released

theorem idle_create : create.Idle := ⟨rfl, rfl, rfl⟩

theorem idle_unlock_of_rdlock {l l' : MapLock} (h : l.Idle) (hlock : l.rdlock = some l') :
    l'.unlock.Idle := by
  obtain ⟨lock, hread, rfl⟩ := Option.map_eq_some_iff.1 hlock
  obtain ⟨hwriter, rfl⟩ := RwLock.rdlock_eq_some_iff.1 hread
  constructor
  · simp [unlock, RwLock.unlock, hwriter, h.readers]
  · simp [unlock, RwLock.unlock, hwriter]
  · simp [unlock, h.balance]

theorem idle_unlock_of_wrlock {l l' : MapLock} (h : l.Idle) (hlock : l.wrlock = some l') :
    l'.unlock.Idle := by
  obtain ⟨lock, hwrite, rfl⟩ := Option.map_eq_some_iff.1 hlock
  obtain ⟨-, hreaders, rfl⟩ := RwLock.wrlock_eq_some_iff.1 hwrite
  exact ⟨hreaders, rfl, by simp [unlock, h.balance]⟩

/-- A read lock that is kept leaves the lock taken once more than released. -/
theorem taken_ne_released_of_rdlock {l l' : MapLock} (h : l.Idle)
    (hlock : l.rdlock = some l') : l'.taken ≠ l'.released := by
  obtain ⟨lock, -, rfl⟩ := Option.map_eq_some_iff.1 hlock
  simp [h.balance]

theorem wrlock_isSome_of_idle {l : MapLock} (h : l.Idle) : l.wrlock.isSome := by
  rw [wrlock, RwLock.wrlock, if_neg (by simp [h.writer, h.readers])]
  rfl

end MapLock

/-- A map database and its lock. -/
structure LockedMap where
  store : MapDataStore
  mapLock : MapLock

namespace LockedMap

/-- `ABT_rwlock_rdlock(_map_lock)`. -/
def rdlock (l : LockedMap) : Option LockedMap :=
  l.mapLock.rdlock.map fun lock => { l with mapLock := lock }

/-- `ABT_rwlock_wrlock(_map_lock)`. -/
def wrlock (l : LockedMap) : Option LockedMap :=
  l.mapLock.wrlock.map fun lock => { l with mapLock := lock }

/-- `ABT_rwlock_unlock(_map_lock)`. -/
def unlock (l : LockedMap) : LockedMap :=
  { l with mapLock := l.mapLock.unlock }

/-- `openDatabase`. -/
def openDatabase (l : LockedMap) (dbName path : String) : Option (Bool × LockedMap) := do
  let l := { l with store := { l.store with name := dbName, path := path } }
  let l ← l.wrlock
  let l := { l with store := { l.store with map := [] } }
  return (true, l.unlock)

/-- `put(const ds_bulk_t&, const ds_bulk_t&)`. -/
def put (l : LockedMap) (key data : Bulk) : Option (SdskvReturn × LockedMap) := do
  let l ← l.wrlock
  let x := OrderedMap.count (keycmp l.store.less) l.store.map key
  if l.store.noOverwrite ∧ x ≠ 0 then
    return (.errKeyexists, l.unlock)
  let map := OrderedMap.assign (keycmp l.store.less) l.store.map key data
  let l := { l with store := { l.store with map := map } }
  return (.success, l.unlock)

/-- `put(ds_bulk_t&&, ds_bulk_t&&)`: the same body on moved arguments. -/
def putMove (l : LockedMap) (key data : Bulk) : Option (SdskvReturn × LockedMap) :=
  l.put key data

/-- `put(const void*, hg_size_t, const void*, hg_size_t)`. -/
def putRaw (l : LockedMap) (key : Pointer) (ksize : ℕ) (value : Pointer) (vsize : ℕ) :
    Option (SdskvReturn × LockedMap) :=
  if vsize ≠ 0 then l.putMove (bulkOfPointer key ksize) (bulkOfPointer value vsize)
  else l.putMove (bulkOfPointer key ksize) []

/-- `get(const ds_bulk_t&, ds_bulk_t&)`. -/
def get (l : LockedMap) (key : Bulk) : Option (Option Bulk × LockedMap) := do
  let l ← l.rdlock
  match OrderedMap.findEntry (keycmp l.store.less) l.store.map key with
  | none => return (none, l.unlock)
  | some it => return (some it.2, l.unlock)

/-- `get(const ds_bulk_t&, std::vector<ds_bulk_t>&)`. -/
def getValues (l : LockedMap) (key : Bulk) : Option ((Bool × List Bulk) × LockedMap) := do
  let (value, l) ← l.get key
  match value with
  | some data => return ((true, [data]), l)
  | none => return ((false, [[]]), l)

/-- `length(const ds_bulk_t&, size_t*)`. -/
def length (l : LockedMap) (key : Bulk) : Option (Option ℕ × LockedMap) := do
  let l ← l.rdlock
  match OrderedMap.findEntry (keycmp l.store.less) l.store.map key with
  | none => return (none, l.unlock)
  | some it => return (some it.2.length, l.unlock)

/-- `exists(const ds_bulk_t&)`. -/
def «exists» (l : LockedMap) (key : Bulk) : Option (Bool × LockedMap) := do
  let l ← l.rdlock
  let e := decide (OrderedMap.count (keycmp l.store.less) l.store.map key > 0)
  return (e, l.unlock)

/-- `exists(const void*, hg_size_t)`. -/
def existsRaw (l : LockedMap) (key : Pointer) (ksize : ℕ) : Option (Bool × LockedMap) :=
  l.exists (bulkOfPointer key ksize)

/-- `erase`. -/
def erase (l : LockedMap) (key : Bulk) : Option (Bool × LockedMap) := do
  let l ← l.wrlock
  let b := (OrderedMap.findEntry (keycmp l.store.less) l.store.map key).isSome
  let map := OrderedMap.erase (keycmp l.store.less) l.store.map key
  let l := { l with store := { l.store with map := map } }
  return (b, l.unlock)

/-- `vlist_keys`. -/
def vlistKeys (l : LockedMap) (startKey : Bulk) (count : ℕ) (keyPrefix : Bulk) :
    Option (List Bulk × LockedMap) := do
  let l ← l.rdlock
  let result ← l.store.vlistKeys startKey count keyPrefix
  return (result, l.unlock)

/-- `vlist_keyvals`. -/
def vlistKeyvals (l : LockedMap) (startKey : Bulk) (count : ℕ) (keyPrefix : Bulk) :
    Option (List (Bulk × Bulk) × LockedMap) := do
  let l ← l.rdlock
  match l.store.vlistKeyvals startKey count keyPrefix with
  | .pairs result => return (result, l.unlock)
  | _ => none

/-- The body of the range listings: the early return is made with the lock held. -/
def vlistRange {α : Type} (push : Bulk × Bulk → α) (maxKeys : ℕ) (l : LockedMap)
    (lowerBound upperBound : Bulk) : Option (List α × LockedMap) := do
  let l ← l.rdlock
  match OrderedMap.upperBound (keycmp l.store.less) l.store.map lowerBound with
  | [] => return ([], l)
  | p :: it =>
      match OrderedMap.lowerBound (keycmp l.store.less) l.store.map upperBound with
      | [] => none
      | q :: rest =>
          let ub := if q.1 ≠ upperBound then rest else q :: rest
          let result ← MapDataStore.vlistRangeLoop push maxKeys ub [] (p :: it)
          return (result, l.unlock)

/-- `vlist_key_range`. -/
def vlistKeyRange (l : LockedMap) (lowerBound upperBound : Bulk) (maxKeys : ℕ) :
    Option (List Bulk × LockedMap) :=
  vlistRange Prod.snd maxKeys l lowerBound upperBound

/-- `vlist_keyval_range`. -/
def vlistKeyvalRange (l : LockedMap) (lowerBound upperBound : Bulk) (maxKeys : ℕ) :
    Option (List (Bulk × Bulk) × LockedMap) :=
  vlistRange id maxKeys l lowerBound upperBound

end LockedMap

/-- The operations of a map database. -/
inductive MapOperation
  | openDatabase (dbName path : String)
  | put (key data : Bulk)
  | putMove (key data : Bulk)
  | putRaw (key : Pointer) (ksize : ℕ) (value : Pointer) (vsize : ℕ)
  | get (key : Bulk)
  | getValues (key : Bulk)
  | length (key : Bulk)
  | exists (key : Bulk)
  | existsRaw (key : Pointer) (ksize : ℕ)
  | erase (key : Bulk)
  | listKeys (startKey : Bulk) (count : ℕ) (keyPrefix : Bulk)
  | listKeyvals (startKey : Bulk) (count : ℕ) (keyPrefix : Bulk)
  | listKeyRange (lowerBound upperBound : Bulk) (maxKeys : ℕ)
  | listKeyvalRange (lowerBound upperBound : Bulk) (maxKeys : ℕ)

/-- The state in which an operation returns. -/
def LockedMap.step (l : LockedMap) : MapOperation → Option LockedMap
  | .openDatabase dbName path => (l.openDatabase dbName path).map Prod.snd
  | .put key data => (l.put key data).map Prod.snd
  | .putMove key data => (l.putMove key data).map Prod.snd
  | .putRaw key ksize value vsize => (l.putRaw key ksize value vsize).map Prod.snd
  | .get key => (l.get key).map Prod.snd
  | .getValues key => (l.getValues key).map Prod.snd
  | .length key => (l.length key).map Prod.snd
  | .exists key => (l.exists key).map Prod.snd
  | .existsRaw key ksize => (l.existsRaw key ksize).map Prod.snd
  | .erase key => (l.erase key).map Prod.snd
  | .listKeys startKey count keyPrefix =>
      (l.vlistKeys startKey count keyPrefix).map Prod.snd
  | .listKeyvals startKey count keyPrefix =>
      (l.vlistKeyvals startKey count keyPrefix).map Prod.snd
  | .listKeyRange lowerBound upperBound maxKeys =>
      (l.vlistKeyRange lowerBound upperBound maxKeys).map Prod.snd
  | .listKeyvalRange lowerBound upperBound maxKeys =>
      (l.vlistKeyvalRange lowerBound upperBound maxKeys).map Prod.snd

namespace MapOperation

/-- How the operation takes the lock. -/
def acquire : MapOperation → MapLock → Option MapLock
  | openDatabase _ _ | put _ _ | putMove _ _ | putRaw _ _ _ _ | erase _ => MapLock.wrlock
  | _ => MapLock.rdlock

/-- The store after the operation, by the methods without the lock; `none` if the method
does not return. -/
def effect (s : MapDataStore) : MapOperation → Option MapDataStore
  | openDatabase dbName path => some (s.openDatabase dbName path).2
  | put key data => some (s.put key data).2
  | putMove key data => some (s.putMove key data).2
  | putRaw key ksize value vsize => some (s.putRaw key ksize value vsize).2
  | erase key => some (s.erase key).2
  | listKeys startKey count keyPrefix => (s.vlistKeys startKey count keyPrefix).map fun _ => s
  | listKeyvals startKey count keyPrefix =>
      (s.vlistKeyvals startKey count keyPrefix).keys.map fun _ => s
  | listKeyRange lowerBound upperBound maxKeys =>
      (s.vlistKeyRange lowerBound upperBound maxKeys).map fun _ => s
  | listKeyvalRange lowerBound upperBound maxKeys =>
      (s.vlistKeyvalRange lowerBound upperBound maxKeys).map fun _ => s
  | _ => some s

/-- A range listing has a stored key after its lower bound. -/
def KeyAfterLowerBound (s : MapDataStore) : MapOperation → Prop
  | listKeyRange lowerBound _ _ => ∃ p ∈ s.map, keycmp s.less lowerBound p.1
  | listKeyvalRange lowerBound _ _ => ∃ p ∈ s.map, keycmp s.less lowerBound p.1
  | _ => True

instance (s : MapDataStore) : (op : MapOperation) → Decidable (op.KeyAfterLowerBound s)
  | listKeyRange lowerBound _ _ | listKeyvalRange lowerBound _ _ =>
      inferInstanceAs (Decidable (∃ p ∈ s.map, keycmp s.less lowerBound p.1))
  | openDatabase _ _ | put _ _ | putMove _ _ | putRaw _ _ _ _ | get _ | getValues _
  | length _ | «exists» _ | existsRaw _ _ | erase _ | listKeys _ _ _ | listKeyvals _ _ _ =>
      isTrue trivial

end MapOperation

namespace LockedMap

theorem put_eq (l : LockedMap) (key data : Bulk) :
    l.put key data = l.mapLock.wrlock.map fun lock =>
      ((l.store.put key data).1, ⟨(l.store.put key data).2, lock.unlock⟩) := by
  unfold put wrlock
  cases l.mapLock.wrlock with
  | none => rfl
  | some lock =>
      simp only [Option.map_some, Option.bind_eq_bind, Option.bind_some, MapDataStore.put]
      split_ifs <;> rfl

theorem putRaw_eq (l : LockedMap) (key : Pointer) (ksize : ℕ) (value : Pointer) (vsize : ℕ) :
    l.putRaw key ksize value vsize = l.mapLock.wrlock.map fun lock =>
      ((l.store.putRaw key ksize value vsize).1,
        ⟨(l.store.putRaw key ksize value vsize).2, lock.unlock⟩) := by
  unfold putRaw MapDataStore.putRaw
  split_ifs
  · exact put_eq l _ _
  · exact put_eq l _ _

theorem get_eq (l : LockedMap) (key : Bulk) :
    l.get key = l.mapLock.rdlock.map fun lock => (l.store.get key, ⟨l.store, lock.unlock⟩) := by
  unfold get rdlock MapDataStore.get OrderedMap.lookup
  cases l.mapLock.rdlock with
  | none => rfl
  | some lock =>
      simp only [Option.map_some, Option.bind_eq_bind, Option.bind_some]
      cases OrderedMap.findEntry (keycmp l.store.less) l.store.map key <;> rfl

theorem getValues_eq (l : LockedMap) (key : Bulk) :
    l.getValues key = l.mapLock.rdlock.map fun lock =>
      (l.store.getValues key, ⟨l.store, lock.unlock⟩) := by
  rw [getValues, get_eq]
  unfold MapDataStore.getValues
  cases l.mapLock.rdlock with
  | none => rfl
  | some lock => cases l.store.get key <;> rfl

theorem length_eq (l : LockedMap) (key : Bulk) :
    l.length key = l.mapLock.rdlock.map fun lock =>
      (l.store.length key, ⟨l.store, lock.unlock⟩) := by
  unfold length rdlock MapDataStore.length OrderedMap.lookup
  cases l.mapLock.rdlock with
  | none => rfl
  | some lock =>
      simp only [Option.map_some, Option.bind_eq_bind, Option.bind_some]
      cases OrderedMap.findEntry (keycmp l.store.less) l.store.map key <;> rfl

/-- A range listing releases the lock unless nothing is after its lower bound. -/
theorem vlistRange_eq {α : Type} (push : Bulk × Bulk → α) (maxKeys : ℕ) (l : LockedMap)
    (lowerBound upperBound : Bulk) :
    vlistRange push maxKeys l lowerBound upperBound = l.mapLock.rdlock.bind fun lock =>
      (MapDataStore.vlistRange push maxKeys l.store lowerBound upperBound).map fun result =>
        (result, ⟨l.store,
          if OrderedMap.upperBound (keycmp l.store.less) l.store.map lowerBound = [] then lock
          else lock.unlock⟩) := by
  unfold vlistRange rdlock MapDataStore.vlistRange
  cases l.mapLock.rdlock with
  | none => rfl
  | some lock =>
      simp only [Option.map_some, Option.bind_eq_bind, Option.bind_some]
      cases OrderedMap.upperBound (keycmp l.store.less) l.store.map lowerBound with
      | nil => rfl
      | cons p it =>
          cases OrderedMap.lowerBound (keycmp l.store.less) l.store.map upperBound with
          | nil => rfl
          | cons q rest =>
              simp only [reduceCtorEq, if_false]
              cases MapDataStore.vlistRangeLoop push maxKeys _ [] (p :: it) <;> rfl

theorem vlistKeys_eq (l : LockedMap) (startKey : Bulk) (count : ℕ) (keyPrefix : Bulk) :
    l.vlistKeys startKey count keyPrefix = l.mapLock.rdlock.bind fun lock =>
      (l.store.vlistKeys startKey count keyPrefix).map fun result =>
        (result, ⟨l.store, lock.unlock⟩) := by
  unfold vlistKeys rdlock
  cases l.mapLock.rdlock with
  | none => rfl
  | some lock =>
      simp only [Option.map_some, Option.bind_eq_bind, Option.bind_some]
      cases l.store.vlistKeys startKey count keyPrefix <;> rfl

theorem vlistKeyvals_snd (l : LockedMap) (startKey : Bulk) (count : ℕ) (keyPrefix : Bulk) :
    (l.vlistKeyvals startKey count keyPrefix).map Prod.snd =
      l.mapLock.rdlock.bind fun lock =>
        (l.store.vlistKeyvals startKey count keyPrefix).keys.map fun _ =>
          ⟨l.store, lock.unlock⟩ := by
  unfold vlistKeyvals rdlock
  cases l.mapLock.rdlock with
  | none => rfl
  | some lock =>
      simp only [Option.map_some, Option.bind_eq_bind, Option.bind_some]
      cases l.store.vlistKeyvals startKey count keyPrefix <;> rfl

theorem vlistRange_snd {α : Type} (push : Bulk × Bulk → α) (maxKeys : ℕ) (l : LockedMap)
    (lowerBound upperBound : Bulk) :
    (vlistRange push maxKeys l lowerBound upperBound).map Prod.snd =
      l.mapLock.rdlock.bind fun lock =>
        ((MapDataStore.vlistRange push maxKeys l.store lowerBound upperBound).map
          fun _ => l.store).map fun s =>
            ⟨s, if ∃ p ∈ l.store.map, keycmp l.store.less lowerBound p.1 then lock.unlock
              else lock⟩ := by
  rw [vlistRange_eq, Option.map_bind]
  congr 1
  funext lock
  have hiff : OrderedMap.upperBound (keycmp l.store.less) l.store.map lowerBound = [] ↔
      ¬ ∃ p ∈ l.store.map, keycmp l.store.less lowerBound p.1 := by
    rw [OrderedMap.upperBound_eq_nil_iff]
    simp
  simp only [hiff, ite_not, Function.comp_apply, Option.map_map]
  rfl

/-- An operation takes the lock, has the effect of its method on the store, and releases the
lock, unless it is a range listing with nothing after its lower bound. -/
theorem step_eq (l : LockedMap) (op : MapOperation) :
    l.step op = (op.acquire l.mapLock).bind fun lock =>
      (op.effect l.store).map fun s =>
        ⟨s, if op.KeyAfterLowerBound l.store then lock.unlock else lock⟩ := by
  cases op with
  | openDatabase dbName path =>
      simp only [step, openDatabase, wrlock, MapOperation.acquire]
      cases l.mapLock.wrlock <;> rfl
  | put key data =>
      simp only [step, put_eq, MapOperation.acquire]
      cases l.mapLock.wrlock <;> rfl
  | putMove key data =>
      simp only [step, putMove, put_eq, MapOperation.acquire]
      cases l.mapLock.wrlock <;> rfl
  | putRaw key ksize value vsize =>
      simp only [step, putRaw_eq, MapOperation.acquire]
      cases l.mapLock.wrlock <;> rfl
  | get key =>
      simp only [step, get_eq, MapOperation.acquire]
      cases l.mapLock.rdlock <;> rfl
  | getValues key =>
      simp only [step, getValues_eq, MapOperation.acquire]
      cases l.mapLock.rdlock <;> rfl
  | length key =>
      simp only [step, length_eq, MapOperation.acquire]
      cases l.mapLock.rdlock <;> rfl
  | «exists» key =>
      simp only [step, «exists», rdlock, MapOperation.acquire]
      cases l.mapLock.rdlock <;> rfl
  | existsRaw key ksize =>
      simp only [step, existsRaw, «exists», rdlock, MapOperation.acquire]
      cases l.mapLock.rdlock <;> rfl
  | erase key =>
      simp only [step, erase, wrlock, MapOperation.acquire]
      cases l.mapLock.wrlock <;> rfl
  | listKeys startKey count keyPrefix =>
      simp only [step, vlistKeys_eq, Option.map_bind, Function.comp_def, Option.map_map,
        MapOperation.acquire, MapOperation.effect]
      rfl
  | listKeyvals startKey count keyPrefix =>
      simp only [step, vlistKeyvals_snd, Function.comp_def, Option.map_map,
        MapOperation.acquire, MapOperation.effect]
      rfl
  | listKeyRange lowerBound upperBound maxKeys =>
      exact vlistRange_snd Prod.snd maxKeys l lowerBound upperBound
  | listKeyvalRange lowerBound upperBound maxKeys =>
      exact vlistRange_snd id maxKeys l lowerBound upperBound

/-- What a step that returns has done. -/
theorem step_eq_some {l l' : LockedMap} {op : MapOperation} (h : l.step op = some l') :
    ∃ lock, op.acquire l.mapLock = some lock ∧
      l'.mapLock = if op.KeyAfterLowerBound l.store then lock.unlock else lock := by
  rw [step_eq] at h
  obtain ⟨lock, hlock, heffect⟩ := Option.bind_eq_some_iff.1 h
  obtain ⟨s, -, rfl⟩ := Option.map_eq_some_iff.1 heffect
  exact ⟨lock, hlock, rfl⟩

theorem idle_step (l : LockedMap) (op : MapOperation) (l' : LockedMap) (h : l.mapLock.Idle)
    (hop : op.KeyAfterLowerBound l.store) (hstep : l.step op = some l') : l'.mapLock.Idle := by
  obtain ⟨lock, hlock, heq⟩ := step_eq_some hstep
  rw [heq, if_pos hop]
  cases op with
  | openDatabase | put | putMove | putRaw | erase => exact MapLock.idle_unlock_of_wrlock h hlock
  | _ => exact MapLock.idle_unlock_of_rdlock h hlock

theorem taken_ne_released_step (l : LockedMap) (op : MapOperation) (l' : LockedMap)
    (h : l.mapLock.Idle) (hop : ¬ op.KeyAfterLowerBound l.store)
    (hstep : l.step op = some l') : l'.mapLock.taken ≠ l'.mapLock.released := by
  obtain ⟨lock, hlock, heq⟩ := step_eq_some hstep
  rw [heq, if_neg hop]
  cases op with
  | listKeyRange | listKeyvalRange => exact MapLock.taken_ne_released_of_rdlock h hlock
  | _ => exact absurd trivial hop

/-- The lock was released as often as it was taken, and a writer can take it. -/
def LockReleased (l : LockedMap) : Prop :=
  l.mapLock.taken = l.mapLock.released ∧ l.wrlock.isSome

theorem lockReleased_of_idle {l : LockedMap} (h : l.mapLock.Idle) : l.LockReleased := by
  refine ⟨h.balance, ?_⟩
  rw [wrlock, Option.isSome_map]
  exact MapLock.wrlock_isSome_of_idle h

/-- In a run of operations on a map database with a new lock, the lock is released whenever
one of them has returned exactly when every range listing of the run finds a key after its
lower bound. -/
theorem mapDataStore_lockReleased_iff (s : MapDataStore) (ops : List MapOperation)
    (l' : LockedMap) (hrun : run? step ⟨s, MapLock.create⟩ ops = some l') :
    (∀ n l, run? step ⟨s, MapLock.create⟩ (ops.take n) = some l → l.LockReleased) ↔
      holdsAlong step (fun l op => op.KeyAfterLowerBound l.store) ⟨s, MapLock.create⟩ ops :=
  forall_prefix_iff_holdsAlong (fun _ h => lockReleased_of_idle h) idle_step
    (fun l op l' h hop hstep hreleased =>
      taken_ne_released_step l op l' h hop hstep hreleased.1)
    MapLock.idle_create hrun

/-- A put, a range listing that finds its key, and another put. -/
def listAfterPut : List MapOperation :=
  [.put [1] [7], .listKeyRange [0] [1] 0, .put [2] [8]]

theorem mapDataStore_lockReleased_iff_listAfterPut :
    (run? step ⟨MapDataStore.new, MapLock.create⟩ listAfterPut).isSome ∧
      ∀ n l, run? step ⟨MapDataStore.new, MapLock.create⟩ (listAfterPut.take n) = some l →
        l.LockReleased :=
  ⟨rfl, (mapDataStore_lockReleased_iff MapDataStore.new listAfterPut _ rfl).2 (by decide)⟩

/-- A range listing of an empty database keeps the lock, and the next put does not return. -/
theorem listKeyRange_keeps_lock :
    ∃ l, run? step ⟨MapDataStore.new, MapLock.create⟩ [.listKeyRange [0] [1] 0] = some l ∧
      l.mapLock.taken = 1 ∧ l.mapLock.released = 0 ∧ ¬ l.LockReleased ∧
      l.step (.put [1] [7]) = none := by
  refine ⟨⟨MapDataStore.new, { MapLock.create with readers := 1, taken := 1 }⟩, rfl, rfl, rfl,
    ?_, rfl⟩
  intro h
  exact absurd h.1 (by decide)

end LockedMap

end Sdskv
