import Sdskv.Datastore.ListKeys
import Sdskv.Transition.Run

/-!
# The comparison callback of the BerkeleyDB backend

BerkeleyDB calls `compkeys` with the `Db` whose keys it compares, and the callback looks for
the comparison function in the `DbWrapper` of that `Db`. The wrapper holds a pointer to the
`Db`, and both are objects of the heap. `compkeys` takes the address of the `Db` for the
address of the member `_db`, so that the word it reads as `_less` is a word of the `Db`.

The heap is a function from addresses to words, and the callback is a read of it. A process
opens and closes datastores, installs comparison functions and compares keys; everything else
it does is a write outside the live wrappers. `inv_run` says that the wrappers hold the
functions that were installed last, and `compkeysOfDb_uses_iff` that the comparisons of a run
use them exactly when the `Db` has, at the place of `_less`, the same word as the wrapper.
-/

namespace Sdskv

open Transition

/-- `sizeof(DbWrapper)`. -/
def sizeofDbWrapper : ℕ := 16

/-- The comparison is made with the function `less`, or in the order of the bytes when `less`
is null. -/
structure Compared.Uses (code : ℕ → Option ComparatorFn) (less : ℕ) (a b : Bulk)
    (c : Compared) : Prop where
  called : c.called = if less = 0 then none else some less
  installed : less ≠ 0 → c.answer = (code less).map fun f => f a b
  bytewise : less = 0 → ∃ n, c.answer = some n ∧ (n < 0 ↔ stringLess a b) ∧
    (0 < n ↔ stringLess b a)

/-- An open `BerkeleyDBDataStore`, by its pointers `_wrapper` and `_dbm`. -/
structure BdbHandle where
  wrapper : ℕ
  dbm : ℕ
  deriving DecidableEq

/-- The heap and the open datastores of a process. -/
structure BdbProcess where
  memory : ℕ → ℕ
  stores : List BdbHandle

/-- What a process does. `write` is everything that does not concern a wrapper, such as the
work of BerkeleyDB on its own objects. -/
inductive BdbEvent
  | openDatabase (h : BdbHandle)
  | setComparisonFunction (h : BdbHandle) (less : ℕ)
  | compare (h : BdbHandle) (a b : Bulk)
  | close (h : BdbHandle)
  | write (address word : ℕ)

/-- Two wrappers that do not overlap. -/
def BdbHandle.Apart (h h' : BdbHandle) : Prop :=
  h.wrapper + sizeofDbWrapper ≤ h'.wrapper ∨ h'.wrapper + sizeofDbWrapper ≤ h.wrapper

instance : DecidableRel BdbHandle.Apart := fun h h' =>
  inferInstanceAs (Decidable (h.wrapper + sizeofDbWrapper ≤ h'.wrapper ∨
    h'.wrapper + sizeofDbWrapper ≤ h.wrapper))

instance : Std.Symm BdbHandle.Apart where
  symm _ _ hapart := Or.symm hapart

/-- Two wrappers that do not overlap keep their functions in different words. -/
theorem BdbHandle.Apart.less_ne {h h' : BdbHandle} (hapart : h.Apart h') :
    h.wrapper + offsetLess ≠ h'.wrapper + offsetLess := by
  rcases hapart with hle | hle
  · simp only [sizeofDbWrapper] at hle
    omega
  · simp only [sizeofDbWrapper] at hle
    omega

namespace BdbProcess

/-- A process without datastores. -/
def start (memory : ℕ → ℕ) : BdbProcess :=
  { memory := memory, stores := [] }

/-- A word is written. -/
def store (p : BdbProcess) (address word : ℕ) : BdbProcess :=
  { p with memory := Function.update p.memory address word }

/-- `new DbWrapper`. -/
def newDbWrapper (p : BdbProcess) (h : BdbHandle) : BdbProcess :=
  (BdbProcess.store { p with stores := h :: p.stores } (h.wrapper + offsetDb) h.dbm).store
    (h.wrapper + offsetLess) 0

/-- The word at `address` is outside the wrappers. -/
def Outside (p : BdbProcess) (address : ℕ) : Prop :=
  ∀ h ∈ p.stores, address + 8 ≤ h.wrapper ∨ h.wrapper + sizeofDbWrapper ≤ address

instance (p : BdbProcess) (address : ℕ) : Decidable (p.Outside address) :=
  inferInstanceAs (Decidable (∀ h ∈ p.stores,
    address + 8 ≤ h.wrapper ∨ h.wrapper + sizeofDbWrapper ≤ address))

/-- One event. An allocation does not overlap the live wrappers, and the wrapper and the `Db`
are at different addresses; a datastore is used while it is open. -/
def step (p : BdbProcess) : BdbEvent → Option BdbProcess
  | .openDatabase h =>
      if h.wrapper ≠ h.dbm ∧ ∀ h' ∈ p.stores, h.Apart h' then
        some (p.newDbWrapper h)
      else none
  | .setComparisonFunction h less =>
      if h ∈ p.stores then some (p.store (h.wrapper + offsetLess) less) else none
  | .compare h _ _ => if h ∈ p.stores then some p else none
  | .close h => if h ∈ p.stores then some { p with stores := p.stores.erase h } else none
  | .write address word =>
      if p.Outside address then some (p.store address word) else none

end BdbProcess

/-- What one event changes in the functions that are installed. -/
def installStep (installed : BdbHandle → ℕ) : BdbEvent → BdbHandle → ℕ
  | .openDatabase h => Function.update installed h 0
  | .setComparisonFunction h less => Function.update installed h less
  | _ => installed

/-- The functions that the events of a run have installed last; null when there is none. -/
def lastInstalled (events : List BdbEvent) : BdbHandle → ℕ :=
  events.foldl installStep fun _ => 0

namespace BdbProcess

variable {p p' : BdbProcess} {installed : BdbHandle → ℕ}

/-- The live wrappers are apart, and hold the functions that were installed last. -/
structure Inv (p : BdbProcess) (installed : BdbHandle → ℕ) : Prop where
  apart : p.stores.Pairwise BdbHandle.Apart
  less : ∀ h ∈ p.stores, p.memory (h.wrapper + offsetLess) = installed h

theorem inv_start (memory : ℕ → ℕ) (installed : BdbHandle → ℕ) :
    (start memory).Inv installed where
  apart := List.Pairwise.nil
  less _ h := absurd h List.not_mem_nil

/-- A word that is written outside the wrappers is not the function of one of them. -/
theorem Outside.less_ne {address : ℕ} {h : BdbHandle} (hout : p.Outside address)
    (hh : h ∈ p.stores) : h.wrapper + offsetLess ≠ address := by
  have hapart := hout h hh
  simp only [sizeofDbWrapper, offsetLess] at hapart ⊢
  omega

theorem store_memory_self (p : BdbProcess) (address word : ℕ) :
    (p.store address word).memory address = word := Function.update_self ..

theorem store_memory_of_ne {address address' : ℕ} (p : BdbProcess) (word : ℕ)
    (hne : address' ≠ address) : (p.store address word).memory address' = p.memory address' :=
  Function.update_of_ne hne ..

theorem inv_newDbWrapper {h : BdbHandle} (hinv : p.Inv installed)
    (hapart : ∀ h' ∈ p.stores, h.Apart h') :
    (p.newDbWrapper h).Inv (Function.update installed h 0) where
  apart := List.Pairwise.cons hapart hinv.apart
  less h' hmem := by
    by_cases heq : h' = h
    · subst heq
      rw [Function.update_self]
      exact store_memory_self ..
    · have hmem' : h' ∈ p.stores := (List.mem_cons.1 hmem).resolve_left heq
      have hne := hapart h' hmem'
      have hdb : h'.wrapper + offsetLess ≠ h.wrapper + offsetDb := by
        simp only [BdbHandle.Apart, sizeofDbWrapper, offsetLess, offsetDb] at hne ⊢
        omega
      rw [Function.update_of_ne heq, newDbWrapper, store_memory_of_ne _ _ hne.less_ne.symm,
        store_memory_of_ne _ _ hdb]
      exact hinv.less h' hmem'

theorem inv_setComparisonFunction {h : BdbHandle} (hinv : p.Inv installed)
    (hh : h ∈ p.stores) (less : ℕ) :
    (p.store (h.wrapper + offsetLess) less).Inv (Function.update installed h less) where
  apart := hinv.apart
  less h' hmem := by
    by_cases heq : h' = h
    · subst heq
      rw [Function.update_self]
      exact store_memory_self ..
    · have hne : h'.Apart h := hinv.apart.forall hmem hh heq
      rw [Function.update_of_ne heq, store_memory_of_ne _ _ hne.less_ne, hinv.less h' hmem]

theorem inv_step {e : BdbEvent} (hinv : p.Inv installed) (hstep : p.step e = some p') :
    p'.Inv (installStep installed e) := by
  cases e with
  | openDatabase h =>
      simp only [step] at hstep
      split_ifs at hstep with hnew
      cases hstep
      exact inv_newDbWrapper hinv hnew.2
  | setComparisonFunction h less =>
      simp only [step] at hstep
      split_ifs at hstep with hh
      cases hstep
      exact inv_setComparisonFunction hinv hh less
  | compare h a b =>
      simp only [step] at hstep
      split_ifs at hstep
      cases hstep
      exact hinv
  | close h =>
      simp only [step] at hstep
      split_ifs at hstep
      cases hstep
      constructor
      · exact hinv.apart.sublist List.erase_sublist
      · exact fun h' hmem => hinv.less h' (List.mem_of_mem_erase hmem)
  | write address word =>
      simp only [step] at hstep
      split_ifs at hstep with hout
      cases hstep
      constructor
      · exact hinv.apart
      · intro h hmem
        rw [store_memory_of_ne _ _ (hout.less_ne hmem)]
        exact hinv.less h hmem

theorem inv_run {events : List BdbEvent} (hinv : p.Inv installed)
    (hrun : run? step p events = some p') : p'.Inv (events.foldl installStep installed) := by
  induction events generalizing p installed with
  | nil =>
      cases hrun
      exact hinv
  | cons e events ih =>
      obtain ⟨q, hstep, hrun⟩ := Option.bind_eq_some_iff.1 hrun
      exact ih (inv_step hinv hstep) hrun

/-- The word of the `Db` at the place of `_less` is the word of the wrapper. -/
def ReadsLess (p : BdbProcess) : BdbEvent → Prop
  | .compare h _ _ =>
      h ∈ p.stores → p.memory (h.dbm + offsetLess) = p.memory (h.wrapper + offsetLess)
  | _ => True

end BdbProcess

/-- The callback uses the function that it finds behind the `Db`, and no other one. -/
theorem compkeysOfDb_uses_iff_word (code : ℕ → Option ComparatorFn) (memory : ℕ → ℕ)
    (db less : ℕ) (a b : Bulk) :
    (compkeysOfDb code memory db a b).Uses code less a b ↔ memory (db + offsetLess) = less := by
  have hcompkeys : compkeysOfDb code memory db a b =
      if memory (db + offsetLess) ≠ 0 then
        { called := some (memory (db + offsetLess)),
          answer := (code (memory (db + offsetLess))).map fun f => f a b }
      else { called := none, answer := some (sliceCompare a b) } := by
    rw [compkeysOfDb, compareDbts_none]
    rfl
  rw [hcompkeys]
  by_cases hword : memory (db + offsetLess) = 0
  · rw [if_neg (not_not.2 hword)]
    constructor
    · intro huses
      by_contra hne
      have hless : less ≠ 0 := fun hnull => hne (hword.trans hnull.symm)
      have hcalled := huses.called
      rw [if_neg hless] at hcalled
      cases hcalled
    · rintro rfl
      constructor
      · rw [if_pos hword]
      · exact fun hne => absurd hword hne
      · exact fun _ => ⟨_, rfl, sliceCompare_neg_iff a b, sliceCompare_pos_iff a b⟩
  · rw [if_pos hword]
    constructor
    · intro huses
      have hcalled := huses.called
      by_cases hless : less = 0
      · rw [if_pos hless] at hcalled
        cases hcalled
      · rw [if_neg hless] at hcalled
        exact Option.some.inj hcalled
    · rintro rfl
      constructor
      · rw [if_neg hword]
      · exact fun _ => rfl
      · exact fun heq => absurd heq hword

/-- Every comparison that is made on a datastore during a run uses the function that was
installed last on that datastore, and the order of the bytes when there is none, exactly when
at every comparison the word of the `Db` at the place of `_less` is the one of the wrapper. -/
theorem compkeysOfDb_uses_iff (code : ℕ → Option ComparatorFn) (memory : ℕ → ℕ)
    (events : List BdbEvent) :
    (∀ before h a b after p, events = before ++ .compare h a b :: after →
      run? BdbProcess.step (BdbProcess.start memory) before = some p → h ∈ p.stores →
      (compkeysOfDb code p.memory h.dbm a b).Uses code (lastInstalled before h) a b) ↔
    holdsAlong BdbProcess.step BdbProcess.ReadsLess (BdbProcess.start memory) events := by
  have hless : ∀ before h p, run? BdbProcess.step (BdbProcess.start memory) before = some p →
      h ∈ p.stores → p.memory (h.wrapper + offsetLess) = lastInstalled before h := by
    intro before h p hrun hh
    exact (BdbProcess.inv_run (BdbProcess.inv_start memory _) hrun).less h hh
  rw [holdsAlong_iff_forall_step]
  constructor
  · intro huses before e after p heq hrun
    cases e with
    | compare h a b =>
        intro hh
        rw [hless before h p hrun hh]
        exact (compkeysOfDb_uses_iff_word code p.memory h.dbm _ a b).1
          (huses before h a b after p heq hrun hh)
    | _ => trivial
  · intro hreads before h a b after p heq hrun hh
    rw [compkeysOfDb_uses_iff_word, ← hless before h p hrun hh]
    exact hreads before (.compare h a b) after p heq hrun hh

/-- A datastore whose wrapper and `Db` are apart. -/
def exampleHandle : BdbHandle := { wrapper := 0x1000, dbm := 0x2000 }

/-- The process has one comparison function. -/
def exampleCode (address : ℕ) : Option ComparatorFn :=
  if address = 0x5000 then some sliceCompare else none

/-- The datastore is opened, BerkeleyDB stores the pointer to its handle in the second word of
the `Db`, and the comparison function is installed. -/
def handleInDb : List BdbEvent :=
  [.openDatabase exampleHandle, .write 0x2008 0x3000, .setComparisonFunction exampleHandle 0x5000]

/-- The callback calls the handle of BerkeleyDB and not the function that was installed. -/
theorem not_uses_handleInDb :
    ∃ p, run? BdbProcess.step (BdbProcess.start fun _ => 0) handleInDb = some p ∧
      exampleHandle ∈ p.stores ∧ lastInstalled handleInDb exampleHandle = 0x5000 ∧
      compkeysOfDb exampleCode p.memory exampleHandle.dbm [1] [2] =
        { called := some 0x3000, answer := none } ∧
      ¬ (compkeysOfDb exampleCode p.memory exampleHandle.dbm [1] [2]).Uses exampleCode
        (lastInstalled handleInDb exampleHandle) [1] [2] := by
  have hinstalled : lastInstalled handleInDb exampleHandle = 0x5000 := by decide
  refine ⟨_, rfl, by decide, hinstalled, by decide, ?_⟩
  rw [hinstalled, compkeysOfDb_uses_iff_word]
  decide

end Sdskv
