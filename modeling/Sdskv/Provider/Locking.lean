import Sdskv.Common.Types
import Sdskv.Concurrency.RwLock
import Sdskv.Transition.Run

/-!
# Datastore calls next to the removal of databases

Every data request looks its database up under the read lock and drops the lock
before it calls the datastore; a removal deletes datastores under the write lock. The
requests run as threads of atomic steps: taking and releasing the lock, the lookup,
each call of a datastore method, and the deletion.

A request is the list of the steps it makes. How many calls it makes depends on its
input and on the transport, so a request carries the number of its calls, and
`returnsAfter` ends it early. An id is the address of its datastore, so the lookup of
an id yields that pointer.

The lock does not protect a call, so a call is safe only when no removal deletes the
datastore between the lookup and the last call of the request.
-/

namespace Sdskv

open Concurrency (RwLock)
open Transition

/-- The methods of a datastore that the handlers call. -/
inductive Method
  | put
  | putMulti
  | putPacked
  | get
  | length
  | exists
  | erase
  | listKeys
  | listKeyvals
  | sync
  | createAndPopulateFileset
  deriving DecidableEq

/-- An atomic step of a request. -/
inductive Instr
  | rdlock
  | wrlock
  | unlock
  | find (id : UInt64)
  | call (m : Method)
  | remove (id : UInt64)
  | removeAll
  deriving DecidableEq

/-- The step is a call of a datastore. -/
def Instr.isCall : Instr → Bool
  | call _ => true
  | _ => false

/-- The handlers that look a database up, with the data that decides which calls
they make: a number of keys, for every key of `migrate_keys` whether it is erased,
and the number of erases on every page of the other two migrations. -/
inductive DataHandler
  | put
  | putMulti
  | putPacked
  | bulkPut
  | get
  | bulkGet
  | length
  | exists
  | erase
  | listKeys
  | listKeyvals
  | getMulti (numKeys : ℕ)
  | getPacked (numKeys : ℕ)
  | lengthMulti (numKeys : ℕ)
  | lengthPacked (numKeys : ℕ)
  | existsMulti (numKeys : ℕ)
  | eraseMulti (numKeys : ℕ)
  | migrateKeys (erased : List Bool)
  | migrateKeyRange
  | migrateKeysPrefixed (pages : List ℕ)
  | migrateAllKeys (pages : List ℕ)
  | migrateDatabase (removeSrc : Bool)

namespace DataHandler

/-- The calls of a page by page migration. -/
def pageCalls (pages : List ℕ) : List Method :=
  pages.flatMap fun erases => .listKeyvals :: List.replicate erases .erase

/-- The calls that a handler makes on its database when nothing fails. -/
def calls : DataHandler → List Method
  | put => [.put]
  | putMulti => [.putMulti]
  | putPacked => [.putPacked]
  | bulkPut => [.put]
  | get => [.get]
  | bulkGet => [.get]
  | length => [.length]
  | «exists» => [.exists]
  | erase => [.erase]
  | listKeys => [.listKeys]
  | listKeyvals => [.listKeyvals]
  | getMulti numKeys => List.replicate numKeys .get
  | getPacked numKeys => List.replicate numKeys .get
  | lengthMulti numKeys => List.replicate numKeys .length
  | lengthPacked numKeys => List.replicate numKeys .length
  | existsMulti numKeys => List.replicate numKeys .exists
  | eraseMulti numKeys => List.replicate numKeys .erase
  | migrateKeys erased => erased.flatMap fun e => if e then [.get, .erase] else [.get]
  | migrateKeyRange => []
  | migrateKeysPrefixed pages => pageCalls pages
  | migrateAllKeys pages => pageCalls pages
  | migrateDatabase _ => [.sync, .createAndPopulateFileset]

/-- What a handler does after its calls: `migrate_key_range` takes the lock again,
and `migrate_database` may remove its source. -/
def finish (id : UInt64) : DataHandler → List Instr
  | migrateKeyRange => [.rdlock, .unlock]
  | migrateDatabase true => [.wrlock, .remove id, .unlock]
  | _ => []

end DataHandler

/-- A request to a provider. -/
inductive Request
  | data (handler : DataHandler) (dbId : UInt64) (returnsAfter : ℕ)
  | removeDatabase (dbId : UInt64)
  | removeAllDatabases

/-- The steps of a request. -/
def Request.program : Request → List Instr
  | data handler dbId returnsAfter =>
      [.rdlock, .find dbId, .unlock] ++ (handler.calls.take returnsAfter).map Instr.call ++
        if handler.calls.length ≤ returnsAfter then handler.finish dbId else []
  | removeDatabase dbId => [.wrlock, .remove dbId, .unlock]
  | removeAllDatabases => [.wrlock, .removeAll, .unlock]

/-- A running request: its remaining steps and the pointer `db`. -/
structure Thread where
  program : List Instr
  db : Option UInt64

/-- The provider's lock, its table of databases, the datastores that are allocated,
and the running requests. -/
structure System where
  lock : RwLock
  databases : List UInt64
  heap : List UInt64
  threads : List Thread

namespace System

/-- All requests at their first step. -/
def start (databases : List UInt64) (requests : List Request) : System :=
  { lock := .free
    databases := databases
    heap := databases
    threads := requests.map fun r => { program := r.program, db := none } }

/-- The datastores that a step deletes. -/
def deleted (s : System) : Instr → List UInt64
  | .remove id => if id ∈ s.databases then [id] else []
  | .removeAll => s.databases
  | _ => []

/-- Delete datastores and drop them from the table. -/
def delete (s : System) (ids : List UInt64) : System :=
  { s with
    databases := s.databases.filter (· ∉ ids)
    heap := s.heap.filter (· ∉ ids) }

/-- One step of a thread; `rest` are its steps after this one. A thread that does not
find its database releases the lock and returns. -/
def exec (s : System) (t : Thread) (rest : List Instr) : Instr → Option (System × Thread)
  | .rdlock => s.lock.rdlock.map fun lock => ({ s with lock := lock }, { t with program := rest })
  | .wrlock => s.lock.wrlock.map fun lock => ({ s with lock := lock }, { t with program := rest })
  | .unlock => some ({ s with lock := s.lock.unlock }, { t with program := rest })
  | .find id =>
      if id ∈ s.databases then some (s, { program := rest, db := some id })
      else some (s, { t with program := [.unlock] })
  | .call _ => some (s, { t with program := rest })
  | .remove id => some (s.delete (s.deleted (.remove id)), { t with program := rest })
  | .removeAll => some (s.delete (s.deleted .removeAll), { t with program := rest })

/-- The next step of thread `i`. -/
def next (s : System) (i : ℕ) : Option (Thread × Instr × List Instr) := do
  let t ← s.threads[i]?
  match t.program with
  | [] => none
  | instr :: rest => some (t, instr, rest)

/-- Thread `i` makes its next step. -/
def step (s : System) (i : ℕ) : Option System := do
  let (t, instr, rest) ← s.next i
  let (s', t') ← s.exec t rest instr
  some { s' with threads := s'.threads.set i t' }

end System

/-- The steps contain a call before the next lookup. -/
def callsDb : List Instr → Bool
  | [] => false
  | .call _ :: _ => true
  | .find _ :: _ => false
  | _ :: rest => callsDb rest

namespace System

/-- If thread `i` makes a call, its datastore is allocated. -/
def SafeCall (s : System) (i : ℕ) : Prop :=
  ∀ p ∈ s.next i, p.2.1.isCall → ∃ db ∈ p.1.db, db ∈ s.heap

/-- If thread `i` deletes datastores, no thread that holds one of them still has a
call to make. -/
def NoCallsPending (s : System) (i : ℕ) : Prop :=
  ∀ p ∈ s.next i, ∀ id ∈ s.deleted p.2.1, ∀ t ∈ s.threads, t.db = some id →
    callsDb t.program = false

instance (s : System) (i : ℕ) : Decidable (s.SafeCall i) :=
  inferInstanceAs (Decidable (∀ p ∈ s.next i, _))

-- Bounded by the list: `UInt64` is finite, and its own instance runs over all of it.
instance (s : System) (i : ℕ) : Decidable (s.NoCallsPending i) :=
  have (p : Thread × Instr × List Instr) : Decidable (∀ id ∈ s.deleted p.2.1, ∀ t ∈ s.threads,
      t.db = some id → callsDb t.program = false) := List.decidableBAll _ _
  inferInstanceAs (Decidable (∀ p ∈ s.next i, _))

/-- Every database is allocated, and so is the datastore of every thread that has a
call to make. -/
structure Inv (s : System) : Prop where
  allocated : ∀ id ∈ s.databases, id ∈ s.heap
  ready : ∀ t ∈ s.threads, callsDb t.program = true → ∃ db, t.db = some db ∧ db ∈ s.heap

end System

theorem callsDb_program (r : Request) : callsDb r.program = false := by
  cases r <;> rfl

namespace System

theorem inv_start (databases : List UInt64) (requests : List Request) :
    (start databases requests).Inv where
  allocated _ h := h
  ready t ht hcalls := by
    obtain ⟨r, -, rfl⟩ := List.mem_map.1 ht
    rw [callsDb_program] at hcalls
    cases hcalls

/-- What one step of a thread may do to the table, the heap and the thread itself. -/
structure Effect (s s' : System) (t t' : Thread) (instr : Instr) (rest : List Instr) :
    Prop where
  threads_eq : s'.threads = s.threads
  databases : ∀ id, id ∈ s'.databases → id ∈ s.databases ∧ id ∉ s.deleted instr
  heap : ∀ id, id ∈ s.heap → id ∉ s.deleted instr → id ∈ s'.heap
  thread : callsDb t'.program = true →
    (t'.db = t.db ∧ callsDb (instr :: rest) = true) ∨
      ∃ id ∈ s.databases, t'.db = some id ∧ s.deleted instr = []

/-- A step that deletes nothing. -/
theorem effect_of_deleted_eq_nil {s s' : System} {t t' : Thread} {instr : Instr}
    {rest : List Instr} (hnil : s.deleted instr = []) (hthreads : s'.threads = s.threads)
    (hdatabases : s'.databases = s.databases) (hheap : s'.heap = s.heap)
    (hthread : callsDb t'.program = true →
      (t'.db = t.db ∧ callsDb (instr :: rest) = true) ∨ ∃ id ∈ s.databases, t'.db = some id) :
    Effect s s' t t' instr rest where
  threads_eq := hthreads
  databases id hid := by
    rw [hnil, ← hdatabases]
    exact ⟨hid, List.not_mem_nil⟩
  heap id hid _ := by
    rw [hheap]
    exact hid
  thread hcalls := by
    rcases hthread hcalls with hsame | ⟨id, hid, hdb⟩
    · exact Or.inl hsame
    · exact Or.inr ⟨id, hid, hdb, hnil⟩

theorem effect_delete (s : System) (t : Thread) (rest : List Instr) {instr : Instr}
    (hcalls : callsDb (instr :: rest) = callsDb rest) :
    Effect s (s.delete (s.deleted instr)) t { t with program := rest } instr rest where
  threads_eq := rfl
  databases id hid := by simpa [delete] using hid
  heap id hid hnot := by simpa [delete] using ⟨hid, hnot⟩
  thread hrest := Or.inl ⟨rfl, hcalls.trans hrest⟩

theorem effect_of_exec {s s' : System} {t t' : Thread} {rest : List Instr} {instr : Instr}
    (h : s.exec t rest instr = some (s', t')) : Effect s s' t t' instr rest := by
  cases instr with
  | rdlock =>
      obtain ⟨lock, -, hafter⟩ := Option.map_eq_some_iff.1 h
      cases hafter
      exact effect_of_deleted_eq_nil rfl rfl rfl rfl fun hcalls => Or.inl ⟨rfl, hcalls⟩
  | wrlock =>
      obtain ⟨lock, -, hafter⟩ := Option.map_eq_some_iff.1 h
      cases hafter
      exact effect_of_deleted_eq_nil rfl rfl rfl rfl fun hcalls => Or.inl ⟨rfl, hcalls⟩
  | unlock =>
      cases h
      exact effect_of_deleted_eq_nil rfl rfl rfl rfl fun hcalls => Or.inl ⟨rfl, hcalls⟩
  | find id =>
      simp only [exec] at h
      split_ifs at h with hmem
      · cases h
        exact effect_of_deleted_eq_nil rfl rfl rfl rfl fun _ => Or.inr ⟨id, hmem, rfl⟩
      · cases h
        apply effect_of_deleted_eq_nil rfl rfl rfl rfl
        intro hcalls
        simp [callsDb] at hcalls
  | call m =>
      cases h
      exact effect_of_deleted_eq_nil rfl rfl rfl rfl fun _ => Or.inl ⟨rfl, rfl⟩
  | remove id =>
      cases h
      exact effect_delete s t rest rfl
  | removeAll =>
      cases h
      exact effect_delete s t rest rfl

theorem next_eq_some {s : System} {i : ℕ} {t : Thread} {instr : Instr} {rest : List Instr}
    (h : s.next i = some (t, instr, rest)) :
    t ∈ s.threads ∧ t.program = instr :: rest := by
  obtain ⟨t', ht', hmatch⟩ := Option.bind_eq_some_iff.1 h
  split at hmatch
  · cases hmatch
  · rename_i heq
    cases hmatch
    exact ⟨List.mem_of_getElem? ht', heq⟩

theorem inv_step (s : System) (i : ℕ) (s' : System) (h : s.Inv)
    (hok : s.NoCallsPending i) (hstep : s.step i = some s') : s'.Inv := by
  obtain ⟨⟨t, instr, rest⟩, hnext, hrest⟩ := Option.bind_eq_some_iff.1 hstep
  obtain ⟨⟨s₁, t₁⟩, hexec, heq⟩ := Option.bind_eq_some_iff.1 hrest
  cases heq
  obtain ⟨hmem, hprogram⟩ := next_eq_some hnext
  obtain ⟨hthreads, hdatabases, hheap, hthread⟩ := effect_of_exec hexec
  -- a thread of the old state that has a call to make keeps its datastore
  have hkeep : ∀ u ∈ s.threads, callsDb u.program = true →
      ∃ db, u.db = some db ∧ db ∈ s₁.heap := by
    intro u hu hcalls
    obtain ⟨db, hdb, hin⟩ := h.ready u hu hcalls
    refine ⟨db, hdb, hheap db hin fun hdel => ?_⟩
    have hnone := hok _ hnext db hdel u hu hdb
    rw [hcalls] at hnone
    cases hnone
  constructor
  · intro id hid
    obtain ⟨hid, hnot⟩ := hdatabases id hid
    exact hheap id (h.allocated id hid) hnot
  · intro u hu hcalls
    rw [hthreads] at hu
    rcases List.mem_or_eq_of_mem_set hu with hu | rfl
    · exact hkeep u hu hcalls
    · rcases hthread hcalls with ⟨hdb, hcalls⟩ | ⟨id, hid, hdb, hdel⟩
      · rw [hdb]
        exact hkeep t hmem (by rw [hprogram]; exact hcalls)
      · exact ⟨id, hdb, hheap id (h.allocated id hid) (by simp [hdel])⟩

theorem safeCall_of_inv (s : System) (i : ℕ) (h : s.Inv) : s.SafeCall i := by
  rintro ⟨t, instr, rest⟩ hnext hcall
  obtain ⟨hmem, hprogram⟩ := next_eq_some hnext
  apply h.ready t hmem
  rw [hprogram]
  cases instr with
  | call m => rfl
  | _ => cases hcall

/-- When every deletion of a run happens while no request that looked the database up
has a call left, every call of the run finds its datastore allocated. -/
theorem safeCalls_of_noCallsPending (databases : List UInt64) (requests : List Request)
    (schedule : List ℕ)
    (h : holdsAlong step NoCallsPending (start databases requests) schedule) :
    holdsAlong step SafeCall (start databases requests) schedule :=
  holdsAlong_of_invariant inv_step (fun s i hI _ => safeCall_of_inv s i hI)
    (inv_start databases requests) h

/-- A put that has finished before its database is removed. -/
theorem safeCalls_of_noCallsPending_putFirst :
    holdsAlong step SafeCall (start [16] [.data .put 16 1, .removeDatabase 16])
      [0, 0, 0, 0, 1, 1, 1] :=
  safeCalls_of_noCallsPending [16] [.data .put 16 1, .removeDatabase 16]
    [0, 0, 0, 0, 1, 1, 1] (by decide)

/-- The database is removed between the lookup of a put and its call. -/
theorem put_calls_deleted_datastore :
    ¬ holdsAlong step SafeCall (start [16] [.data .put 16 1, .removeDatabase 16])
      [0, 0, 0, 1, 1, 1, 0] := by
  decide

end System

end Sdskv
