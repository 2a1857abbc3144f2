import Mathlib.Order.Interval.Finset.Nat
import Sdskv.Common.Types
import Sdskv.Ownership.Holders
import Sdskv.Transition.Run

/-!
# The provider handles of the client

`sdskv_provider_handle_create`, `sdskv_provider_handle_ref_incr` and
`sdskv_provider_handle_release` keep a count in every handle and the number of handles in the
client. The class `provider_handle` of the C++ interface adjusts the count by hand in its
constructors, its two assignment operators and its destructor.

A program that uses the class is a sequence of `HandleOperation`s on objects that are named by
their address. Which constructor or assignment operator an operation runs is decided by
overload resolution on the expression it is given. An operation that the language does not
allow (on an object that is not alive, or a construction where one is) is not a step.
-/

namespace Sdskv

/-- A `uint64_t` after `+= 1`. -/
def increment64 (n : ℕ) : ℕ := (n + 1) % 2 ^ 64

/-- A `uint64_t` after `-= 1`. -/
def decrement64 (n : ℕ) : ℕ := (n + (2 ^ 64 - 1)) % 2 ^ 64

theorem increment64_of_lt {n : ℕ} (h : n + 1 < 2 ^ 64) : increment64 n = n + 1 :=
  Nat.mod_eq_of_lt h

theorem decrement64_succ {n : ℕ} (h : n + 1 < 2 ^ 64) : decrement64 (n + 1) = n := by
  have hsum : n + 1 + (2 ^ 64 - 1) = n + 2 ^ 64 := by omega
  rw [decrement64, hsum, Nat.add_mod_right]
  exact Nat.mod_eq_of_lt (by omega)

/-- `struct sdskv_provider_handle`. -/
structure ProviderHandle where
  client : ℕ
  addr : ℕ
  providerId : ℕ
  refcount : ℕ
  deriving DecidableEq

/-- The memory that the functions on provider handles share: the handles that are allocated,
their contents, the field `num_provider_handles` of every client, and whether a handle that
is not allocated was read, written or freed. -/
structure HandleHeap where
  allocated : Finset ℕ
  handle : ℕ → ProviderHandle
  numProviderHandles : ℕ → ℕ
  invalidAccess : Bool

namespace HandleHeap

/-- The answers of `calloc`, with `none` for `NULL`, and of `margo_addr_dup`. -/
structure CreateAnswers where
  calloc : Option ℕ
  hret : ℕ
  addr : ℕ

/-- The memory with the fields of a new handle at `p`, counted in its client. -/
def add (m : HandleHeap) (p : ℕ) (provider : ProviderHandle) : HandleHeap :=
  let c := provider.client
  { m with
    allocated := insert p m.allocated
    handle := Function.update m.handle p provider
    numProviderHandles :=
      Function.update m.numProviderHandles c (increment64 (m.numProviderHandles c)) }

/-- `sdskv_provider_handle_create`, with what it stores in `*handle`. -/
def sdskvProviderHandleCreate (m : HandleHeap) (client : Option ℕ) (providerId : ℕ)
    (answers : CreateAnswers) : HandleHeap × Int × Option ℕ :=
  match client with
  | none => (m, SdskvReturn.errInvalidArg.code, none)
  | some c =>
      match answers.calloc with
      | none => (m, SdskvReturn.errAllocation.code, none)
      | some p =>
          -- the memory is freed again when the address cannot be duplicated
          if answers.hret ≠ hgSuccess then (m, makeHgError answers.hret, none)
          else
            (m.add p ⟨c, answers.addr, providerId, 1⟩, SdskvReturn.success.code, some p)

/-- The memory after an access to `h`, which is invalid when `h` is not allocated. -/
def access (m : HandleHeap) (h : ℕ) : HandleHeap :=
  { m with invalidAccess := m.invalidAccess || decide (h ∉ m.allocated) }

def setRefcount (m : HandleHeap) (h n : ℕ) : HandleHeap :=
  { m with handle := Function.update m.handle h { m.handle h with refcount := n } }

/-- `margo_addr_free`, the update of the client and `free`. -/
def discard (m : HandleHeap) (h : ℕ) : HandleHeap :=
  let c := (m.handle h).client
  { m with
    allocated := m.allocated.erase h
    numProviderHandles :=
      Function.update m.numProviderHandles c (decrement64 (m.numProviderHandles c)) }

/-- `sdskv_provider_handle_ref_incr`. -/
def sdskvProviderHandleRefIncr (m : HandleHeap) (handle : Option ℕ) : HandleHeap × Int :=
  match handle with
  | none => (m, SdskvReturn.errInvalidArg.code)
  | some h =>
      ((m.access h).setRefcount h (increment64 (m.handle h).refcount), SdskvReturn.success.code)

/-- `sdskv_provider_handle_release`. -/
def sdskvProviderHandleRelease (m : HandleHeap) (handle : Option ℕ) : HandleHeap × Int :=
  match handle with
  | none => (m, -1)
  | some h =>
      let refcount := decrement64 (m.handle h).refcount
      let m := (m.access h).setRefcount h refcount
      (if refcount = 0 then m.discard h else m, SdskvReturn.success.code)

end HandleHeap

/-- The members `m_ph` and `m_client` of `sdskv::provider_handle`, with `none` for a null
pointer. -/
structure HandleObject where
  ph : Option ℕ
  client : Option ℕ
  deriving DecidableEq

/-- The operand of a construction or an assignment: the object it names, whether its type is
`const`, and whether it is an rvalue. -/
structure HandleExpression where
  object : ℕ
  isConst : Bool
  isRvalue : Bool
  deriving DecidableEq

/-- What a program does with objects of the class. The constructor without arguments leaves
`m_client` as it finds it, or zero when the object is value-initialised. -/
inductive HandleOperation
  | default (this : ℕ) (client : Option ℕ)
  | create (this : ℕ) (c : ℕ) (providerId : ℕ) (answers : HandleHeap.CreateAnswers)
  | construct (this : ℕ) (other : HandleExpression)
  | assign (this : ℕ) (other : HandleExpression)
  | destroy (this : ℕ)

/-- The objects that are alive, what they contain, and the code of the exception with which
the last operation ended. -/
structure HandleState where
  heap : HandleHeap
  live : Finset ℕ
  object : ℕ → HandleObject
  thrown : Option Int

/-- `_CHECK_RET`: the code of the exception it throws. -/
def checkRet (ret : Int) : Option Int :=
  if ret ≠ SdskvReturn.success.code then some ret else none

@[simp] theorem checkRet_success : checkRet SdskvReturn.success.code = none := rfl

/-- `if (m_ph != SDSKV_PROVIDER_HANDLE_NULL) ret = sdskv_provider_handle_release(m_ph)`. -/
def HandleHeap.releaseHeld (m : HandleHeap) (ph : Option ℕ) : HandleHeap × Int :=
  if ph ≠ none then m.sdskvProviderHandleRelease ph else (m, SdskvReturn.success.code)

namespace HandleState

/-- `provider_handle() = default`. -/
def defaultConstruct (s : HandleState) (this : ℕ) (client : Option ℕ) : HandleState :=
  { s with
    live := insert this s.live
    object := Function.update s.object this ⟨none, client⟩
    thrown := none }

/-- `provider_handle(client& c, hg_addr_t addr, uint16_t provider_id)`. An object whose
constructor throws is not alive. -/
def createConstruct (s : HandleState) (this c : ℕ) (mClient : Option ℕ) (providerId : ℕ)
    (answers : HandleHeap.CreateAnswers) : HandleState :=
  let (heap, ret, ph) := s.heap.sdskvProviderHandleCreate mClient providerId answers
  match checkRet ret with
  | some code => { s with heap := heap, thrown := some code }
  | none =>
      { heap := heap
        live := insert this s.live
        object := Function.update s.object this ⟨ph, some c⟩
        thrown := none }

/-- `provider_handle(const provider_handle& other)`. -/
def copyConstruct (s : HandleState) (this other : ℕ) : HandleState :=
  let fields := s.object other
  let (heap, ret) :=
    if fields.ph ≠ none then s.heap.sdskvProviderHandleRefIncr fields.ph
    else (s.heap, SdskvReturn.success.code)
  match checkRet ret with
  | some code => { s with heap := heap, thrown := some code }
  | none =>
      { heap := heap
        live := insert this s.live
        object := Function.update s.object this fields
        thrown := none }

/-- `provider_handle(provider_handle&& other)`. -/
def moveConstruct (s : HandleState) (this other : ℕ) : HandleState :=
  let fields := s.object other
  { s with
    live := insert this s.live
    object :=
      Function.update (Function.update s.object this fields) other ⟨none, fields.client⟩
    thrown := none }

/-- `operator=(const provider_handle& other)`. -/
def copyAssign (s : HandleState) (this other : ℕ) : HandleState :=
  if this = other then { s with thrown := none }
  else
    let (heap, ret) := s.heap.releaseHeld (s.object this).ph
    match checkRet ret with
    | some code => { s with heap := heap, thrown := some code }
    | none =>
        let fields := s.object other
        -- the handle is null when the other object has none, and then this call fails
        let (heap, ret) := heap.sdskvProviderHandleRefIncr fields.ph
        { s with
          heap := heap
          object := Function.update s.object this fields
          thrown := checkRet ret }

/-- `operator=(provider_handle& other)`. -/
def moveAssign (s : HandleState) (this other : ℕ) : HandleState :=
  if this = other then { s with thrown := none }
  else
    let (heap, ret) := s.heap.releaseHeld (s.object this).ph
    match checkRet ret with
    | some code => { s with heap := heap, thrown := some code }
    | none =>
        let fields := s.object other
        { s with
          heap := heap
          object := Function.update (Function.update s.object this fields) other ⟨none, none⟩
          thrown := none }

/-- `~provider_handle()`. -/
def destruct (s : HandleState) (this : ℕ) : HandleState :=
  { s with
    heap := (s.heap.releaseHeld (s.object this).ph).1
    live := s.live.erase this
    thrown := none }

/-- The constructor that the expression selects: a `provider_handle&&` binds to an rvalue that
is not `const`, and every other expression to a `const provider_handle&`. -/
def construct (s : HandleState) (this : ℕ) (other : HandleExpression) : HandleState :=
  if other.isRvalue && !other.isConst then s.moveConstruct this other.object
  else s.copyConstruct this other.object

/-- The assignment operator that the expression selects: a `provider_handle&` binds to an
lvalue that is not `const`, and every other expression to a `const provider_handle&`. -/
def assign (s : HandleState) (this : ℕ) (other : HandleExpression) : HandleState :=
  if !other.isRvalue && !other.isConst then s.moveAssign this other.object
  else s.copyAssign this other.object

/-- A program that has not constructed an object yet. -/
def start : HandleState where
  heap :=
    { allocated := ∅
      handle := fun _ => ⟨0, 0, 0, 0⟩
      numProviderHandles := fun _ => 0
      invalidAccess := false }
  live := ∅
  object := fun _ => ⟨none, none⟩
  thrown := none

/-- The storage at `this` is an address and holds no object. -/
def Free (s : HandleState) (this : ℕ) : Prop := 0 < this ∧ this < 2 ^ 64 ∧ this ∉ s.live

instance (s : HandleState) (this : ℕ) : Decidable (s.Free this) :=
  inferInstanceAs (Decidable (0 < this ∧ this < 2 ^ 64 ∧ this ∉ s.live))

/-- One operation, where `clients` gives the member `m_client` of the objects of the class
`client`. The memory that `calloc` returns is not in use. -/
def step (clients : ℕ → Option ℕ) (s : HandleState) : HandleOperation → Option HandleState
  | .default this client => if s.Free this then some (s.defaultConstruct this client) else none
  | .create this c providerId answers =>
      if s.Free this ∧ ∀ p ∈ answers.calloc, p ∉ s.heap.allocated then
        some (s.createConstruct this c (clients c) providerId answers)
      else none
  | .construct this other =>
      if s.Free this ∧ other.object ∈ s.live then some (s.construct this other) else none
  | .assign this other =>
      if this ∈ s.live ∧ other.object ∈ s.live then some (s.assign this other) else none
  | .destroy this => if this ∈ s.live then some (s.destruct this) else none

/-- The live objects that hold the handle `h`. -/
def holders (s : HandleState) (h : ℕ) : Finset ℕ :=
  Ownership.holders s.live (fun a => (s.object a).ph) h

end HandleState

/-! ### What the functions do to the counts -/

namespace HandleHeap

open Ownership

/-- The handles of the client `c` that are allocated. -/
def ofClient (m : HandleHeap) (c : ℕ) : Finset ℕ :=
  m.allocated.filter fun h => (m.handle h).client = c

/-- The memory counts `n h` holders of every handle `h`, and the handles that are held are
those that are allocated. -/
structure Counts (m : HandleHeap) (n : ℕ → ℕ) : Prop where
  mem_iff : ∀ h, h ∈ m.allocated ↔ 0 < n h
  refcount : ∀ h ∈ m.allocated, (m.handle h).refcount = n h
  num : ∀ c, m.numProviderHandles c = (m.ofClient c).card
  valid : m.invalidAccess = false

variable {m : HandleHeap} {n : ℕ → ℕ} {h : ℕ}

theorem access_of_mem (hmem : h ∈ m.allocated) : m.access h = m := by
  rw [access, decide_eq_false (not_not_intro hmem), Bool.or_false]

theorem client_setRefcount (m : HandleHeap) (h k h' : ℕ) :
    ((m.setRefcount h k).handle h').client = (m.handle h').client := by
  by_cases heq : h' = h
  · subst heq
    simp [setRefcount]
  · simp [setRefcount, heq]

theorem ofClient_setRefcount (m : HandleHeap) (h k c : ℕ) :
    (m.setRefcount h k).ofClient c = m.ofClient c := by
  refine Finset.filter_congr fun h' _ => ?_
  rw [client_setRefcount]

theorem refcount_setRefcount (m : HandleHeap) (h k h' : ℕ) :
    ((m.setRefcount h k).handle h').refcount = if h' = h then k else (m.handle h').refcount := by
  by_cases heq : h' = h
  · subst heq
    simp [setRefcount]
  · simp [setRefcount, heq]

/-- A count that stays positive. -/
theorem Counts.setRefcount (hm : m.Counts n) {n' : ℕ → ℕ} (hmem : h ∈ m.allocated)
    (hpos : 0 < n' h) (hrest : ∀ h' ≠ h, n' h' = n h') :
    (m.setRefcount h (n' h)).Counts n' where
  mem_iff h' := by
    by_cases heq : h' = h
    · subst heq
      exact iff_of_true hmem hpos
    · rw [hrest h' heq]
      exact hm.mem_iff h'
  refcount h' hh' := by
    rw [refcount_setRefcount]
    split
    · next heq => rw [heq]
    · next hne => rw [hrest h' hne, hm.refcount h' hh']
  num c := by
    rw [ofClient_setRefcount]
    exact hm.num c
  valid := hm.valid

theorem ofClient_discard_self (m : HandleHeap) (h : ℕ) :
    (m.discard h).ofClient (m.handle h).client = (m.ofClient (m.handle h).client).erase h :=
  Finset.filter_erase ..

theorem ofClient_discard_of_ne {c : ℕ} (hne : c ≠ (m.handle h).client) :
    (m.discard h).ofClient c = m.ofClient c := by
  refine (Finset.filter_erase ..).trans (Finset.erase_eq_of_notMem ?_)
  intro hmem
  exact hne (Finset.mem_filter.1 hmem).2.symm

/-- A handle whose last holder goes away. -/
theorem Counts.discard (hm : m.Counts n) {n' : ℕ → ℕ} (hmem : h ∈ m.allocated)
    (hzero : n' h = 0) (hrest : ∀ h' ≠ h, n' h' = n h') (hlt : m.allocated.card < 2 ^ 64) :
    ((m.setRefcount h 0).discard h).Counts n' where
  mem_iff h' := by
    have herase : h' ∈ ((m.setRefcount h 0).discard h).allocated ↔
        h' ≠ h ∧ h' ∈ m.allocated := Finset.mem_erase
    rw [herase]
    by_cases heq : h' = h
    · subst heq
      simp [hzero]
    · rw [hrest h' heq, hm.mem_iff h']
      exact and_iff_right heq
  refcount h' hh' := by
    obtain ⟨hne, hh'⟩ := Finset.mem_erase.1 hh'
    have hkept := refcount_setRefcount m h 0 h'
    rw [if_neg hne, hm.refcount h' hh', ← hrest h' hne] at hkept
    exact hkept
  num c := by
    have hclient : ((m.setRefcount h 0).handle h).client = (m.handle h).client :=
      client_setRefcount m h 0 h
    by_cases heq : c = (m.handle h).client
    · subst heq
      have hin : h ∈ m.ofClient (m.handle h).client := Finset.mem_filter.2 ⟨hmem, rfl⟩
      have hcard : (m.ofClient (m.handle h).client).card ≤ m.allocated.card :=
        Finset.card_filter_le _ _
      have hset := ofClient_discard_self (m.setRefcount h 0) h
      rw [hclient, ofClient_setRefcount] at hset
      rw [hset, Finset.card_erase_of_mem hin]
      have hpos : 0 < (m.ofClient (m.handle h).client).card := Finset.card_pos.2 ⟨h, hin⟩
      obtain ⟨k, hk⟩ := Nat.exists_eq_succ_of_ne_zero hpos.ne'
      have hnum : ((m.setRefcount h 0).discard h).numProviderHandles (m.handle h).client =
          decrement64 (m.numProviderHandles (m.handle h).client) := by
        simp only [HandleHeap.discard, hclient, Function.update_self]
        rfl
      rw [hnum, hm.num, hk, Nat.succ_eq_add_one, decrement64_succ (by omega)]
      rfl
    · have hset := ofClient_discard_of_ne (m := m.setRefcount h 0) (h := h) (c := c)
        (by rw [hclient]; exact heq)
      rw [hset, ofClient_setRefcount, ← hm.num c]
      simp only [HandleHeap.discard, hclient, Function.update_of_ne heq]
      rfl
  valid := hm.valid

/-- `sdskv_provider_handle_ref_incr` counts one holder more. -/
theorem Counts.refIncr (hm : m.Counts n) (hmem : h ∈ m.allocated) (hlt : n h + 1 < 2 ^ 64) :
    (m.sdskvProviderHandleRefIncr (some h)).1.Counts fun h' => n h' + share (some h) h' := by
  have hrest : ∀ h' ≠ h, (fun h' => n h' + share (some h) h') h' = n h' := by
    intro h' hne
    simp only [share_of_ne hne, Nat.add_zero]
  have hset := hm.setRefcount hmem (by simp) hrest
  simp only [share_self] at hset
  rw [sdskvProviderHandleRefIncr, access_of_mem hmem, hm.refcount h hmem, increment64_of_lt hlt]
  exact hset

/-- `sdskv_provider_handle_release` counts one holder less, and frees the handle when it was
the last one. -/
theorem Counts.release {n' : ℕ → ℕ} (hm : m.Counts n)
    (hn : ∀ h', n' h' + share (some h) h' = n h') (hlt : n h < 2 ^ 64)
    (hcard : m.allocated.card < 2 ^ 64) :
    (m.sdskvProviderHandleRelease (some h)).1.Counts n' := by
  have hself : n h = n' h + 1 := by rw [← hn h, share_self]
  have hmem : h ∈ m.allocated := (hm.mem_iff h).2 (by omega)
  have hrest : ∀ h' ≠ h, n' h' = n h' := by
    intro h' hne
    rw [← hn h', share_of_ne hne, Nat.add_zero]
  have hdecr : decrement64 (m.handle h).refcount = n' h := by
    rw [hm.refcount h hmem, hself, decrement64_succ (by omega)]
  simp only [sdskvProviderHandleRelease, access_of_mem hmem, hdecr]
  split
  · next hzero =>
      rw [hzero]
      exact hm.discard hmem hzero hrest hcard
  · next hpos => exact hm.setRefcount hmem (Nat.pos_of_ne_zero hpos) hrest

theorem Counts.releaseHeld {n' : ℕ → ℕ} {ph : Option ℕ} (hm : m.Counts n)
    (hn : ∀ h', n' h' + share ph h' = n h') (hlt : ∀ h', n h' < 2 ^ 64)
    (hcard : m.allocated.card < 2 ^ 64) :
    (m.releaseHeld ph).1.Counts n' := by
  cases ph with
  | none =>
      have heq : n' = n := funext fun h' => hn h'
      rw [heq]
      exact hm
  | some h => exact hm.release hn (hlt h) hcard

theorem releaseHeld_snd (m : HandleHeap) (ph : Option ℕ) :
    (m.releaseHeld ph).2 = SdskvReturn.success.code := by
  cases ph <;> rfl

/-- `sdskv_provider_handle_create` fails and changes nothing, or adds a handle. -/
theorem create_cases (m : HandleHeap) (client : Option ℕ) (providerId : ℕ)
    (answers : CreateAnswers) :
    (∃ ret, m.sdskvProviderHandleCreate client providerId answers = (m, ret, none)) ∨
      ∃ p ∈ answers.calloc, ∃ provider : ProviderHandle, provider.refcount = 1 ∧
        m.sdskvProviderHandleCreate client providerId answers =
          (m.add p provider, SdskvReturn.success.code, some p) := by
  cases client with
  | none => exact Or.inl ⟨_, rfl⟩
  | some c =>
      cases hcalloc : answers.calloc with
      | none =>
          refine Or.inl ⟨SdskvReturn.errAllocation.code, ?_⟩
          simp only [sdskvProviderHandleCreate, hcalloc]
      | some p =>
          by_cases hret : answers.hret ≠ hgSuccess
          · refine Or.inl ⟨makeHgError answers.hret, ?_⟩
            simp only [sdskvProviderHandleCreate, hcalloc, if_pos hret]
          · refine Or.inr ⟨p, rfl, ⟨c, answers.addr, providerId, 1⟩, rfl, ?_⟩
            simp only [sdskvProviderHandleCreate, hcalloc, if_neg hret]

theorem ofClient_add {provider : ProviderHandle} (hfresh : h ∉ m.allocated) (c : ℕ) :
    (m.add h provider).ofClient c =
      if provider.client = c then insert h (m.ofClient c) else m.ofClient c := by
  ext h'
  have hinsert : h' ∈ (m.add h provider).allocated ↔ h' = h ∨ h' ∈ m.allocated :=
    Finset.mem_insert
  rw [ofClient, Finset.mem_filter, hinsert]
  by_cases heq : h' = h
  · subst heq
    have hnotMem : h' ∉ m.ofClient c := fun hin => hfresh (Finset.mem_filter.1 hin).1
    simp only [add, Function.update_self]
    split
    · next hclient => simp [hclient]
    · next hclient => simp [hclient, hnotMem]
  · have hkept : (m.add h provider).handle h' = m.handle h' := Function.update_of_ne heq _ _
    rw [hkept]
    split <;> simp [ofClient, heq]

/-- `sdskv_provider_handle_create` counts one holder of the new handle. -/
theorem Counts.add (hm : m.Counts n) (hfresh : h ∉ m.allocated)
    (hcard : m.allocated.card + 1 < 2 ^ 64) {provider : ProviderHandle}
    (hone : provider.refcount = 1) :
    (m.add h provider).Counts fun h' => n h' + share (some h) h' where
  mem_iff h' := by
    have hinsert : h' ∈ (m.add h provider).allocated ↔ h' = h ∨ h' ∈ m.allocated :=
      Finset.mem_insert
    rw [hinsert]
    by_cases heq : h' = h
    · subst heq
      simp
    · rw [share_of_ne heq, Nat.add_zero, ← hm.mem_iff h']
      exact or_iff_right heq
  refcount h' hh' := by
    rcases Finset.mem_insert.1 hh' with rfl | hold
    · have hzero : n h' = 0 := by
        by_contra hne
        exact hfresh ((hm.mem_iff h').2 (Nat.pos_of_ne_zero hne))
      simp [HandleHeap.add, hone, hzero]
    · have hne : h' ≠ h := fun heq => hfresh (heq ▸ hold)
      simp only [HandleHeap.add, Function.update_of_ne hne, share_of_ne hne, Nat.add_zero]
      exact hm.refcount h' hold
  num c := by
    have hle : (m.ofClient c).card ≤ m.allocated.card := Finset.card_filter_le _ _
    have hnotMem : h ∉ m.ofClient c := fun hin => hfresh (Finset.mem_filter.1 hin).1
    rw [ofClient_add hfresh]
    split
    · next heq =>
        subst heq
        rw [Finset.card_insert_of_notMem hnotMem, ← hm.num]
        simp only [HandleHeap.add, Function.update_self]
        rw [increment64_of_lt (by rw [hm.num]; omega)]
    · next hne =>
        rw [← hm.num]
        exact Function.update_of_ne (fun heq => hne heq.symm) _ _
  valid := hm.valid

end HandleHeap

/-! ### What the operations keep -/

namespace HandleState

open Ownership

/-- The memory counts the live objects that hold each handle. -/
structure Balanced (s : HandleState) : Prop where
  counts : s.heap.Counts fun h => (s.holders h).card
  address : ∀ a ∈ s.live, 0 < a ∧ a < 2 ^ 64

variable {s : HandleState} {this : ℕ}

theorem balanced_start : Balanced start where
  counts := by
    refine ⟨fun h => ?_, fun h hh => ?_, fun c => rfl, rfl⟩
    · exact iff_of_false (Finset.notMem_empty h) (Nat.lt_irrefl 0)
    · exact absurd hh (Finset.notMem_empty h)
  address a ha := absurd ha (Finset.notMem_empty a)

/-- Objects have different addresses, and none of them is null. -/
theorem card_lt_of_address {live : Finset ℕ} (h : ∀ a ∈ live, 0 < a ∧ a < 2 ^ 64) :
    live.card < 2 ^ 64 := by
  have hsubset : live ⊆ Finset.Ioo 0 (2 ^ 64) := fun a ha => Finset.mem_Ioo.2 (h a ha)
  have hle := Finset.card_le_card hsubset
  rw [Nat.card_Ioo] at hle
  omega

theorem address_insert (hs : s.Balanced) (hfree : s.Free this) :
    ∀ a ∈ insert this s.live, 0 < a ∧ a < 2 ^ 64 := by
  intro a ha
  rcases Finset.mem_insert.1 ha with rfl | ha
  · exact ⟨hfree.1, hfree.2.1⟩
  · exact hs.address a ha

theorem card_succ_lt_of_free (hs : s.Balanced) (hfree : s.Free this) :
    s.live.card + 1 < 2 ^ 64 := by
  rw [← Finset.card_insert_of_notMem hfree.2.2]
  exact card_lt_of_address (address_insert hs hfree)

theorem card_allocated_le (hs : s.Balanced) : s.heap.allocated.card ≤ s.live.card :=
  card_le_of_forall_held fun h hh => (hs.counts.mem_iff h).1 hh

theorem card_holders_lt (hs : s.Balanced) (h : ℕ) : (s.holders h).card < 2 ^ 64 :=
  lt_of_le_of_lt (card_holders_le ..) (card_lt_of_address hs.address)

theorem mem_allocated (hs : s.Balanced) {a h : ℕ} (ha : a ∈ s.live)
    (hph : (s.object a).ph = some h) : h ∈ s.heap.allocated :=
  (hs.counts.mem_iff h).2 (one_le_card_holders ha hph)

/-- The handles that the objects hold after a write to the object at `this`. -/
theorem ph_update (object : ℕ → HandleObject) (this : ℕ) (fields : HandleObject) :
    (fun a => (Function.update object this fields a).ph) =
      Function.update (fun a => (object a).ph) this fields.ph := by
  funext a
  by_cases heq : a = this
  · subst heq
    simp
  · simp [heq]

/-- A constructor that stores `fields` and makes the memory count the new object. -/
theorem Balanced.insert (hs : s.Balanced) (hfree : s.Free this) {heap : HandleHeap}
    {fields : HandleObject}
    (hheap : heap.Counts fun h => (s.holders h).card + share fields.ph h)
    (thrown : Option Int) :
    Balanced ⟨heap, insert this s.live, Function.update s.object this fields, thrown⟩ where
  counts := by
    simp only [holders, ph_update, card_holders_insert hfree.2.2]
    exact hheap
  address := address_insert hs hfree

theorem Balanced.defaultConstruct (hs : s.Balanced) (hfree : s.Free this)
    (client : Option ℕ) : (s.defaultConstruct this client).Balanced :=
  hs.insert hfree hs.counts none

theorem Balanced.createConstruct (hs : s.Balanced) (hfree : s.Free this) (c : ℕ)
    (mClient : Option ℕ) (providerId : ℕ) {answers : HandleHeap.CreateAnswers}
    (hfresh : ∀ p ∈ answers.calloc, p ∉ s.heap.allocated) :
    (s.createConstruct this c mClient providerId answers).Balanced := by
  rcases HandleHeap.create_cases s.heap mClient providerId answers with
    ⟨ret, hfailed⟩ | ⟨p, hp, provider, hone, hcreated⟩
  · rw [HandleState.createConstruct, hfailed]
    cases hret : checkRet ret with
    | some code =>
        simp only [hret]
        exact ⟨hs.counts, hs.address⟩
    | none =>
        -- a code of the transport that is shifted to zero leaves a null handle
        simp only [hret]
        exact hs.insert hfree hs.counts none
  · rw [HandleState.createConstruct, hcreated]
    have hle := card_allocated_le hs
    have hlt := card_succ_lt_of_free hs hfree
    have hadd := hs.counts.add (hfresh p hp) (by omega) hone
    simp only [checkRet_success]
    exact hs.insert hfree hadd none

theorem copyConstruct_eq (s : HandleState) (this other : ℕ) :
    s.copyConstruct this other =
      ⟨if (s.object other).ph = none then s.heap
        else (s.heap.sdskvProviderHandleRefIncr (s.object other).ph).1,
        insert this s.live, Function.update s.object this (s.object other), none⟩ := by
  rw [copyConstruct]
  cases (s.object other).ph <;> rfl

theorem Balanced.copyConstruct (hs : s.Balanced) (hfree : s.Free this) {other : ℕ}
    (hother : other ∈ s.live) : (s.copyConstruct this other).Balanced := by
  rw [copyConstruct_eq]
  refine hs.insert hfree ?_ none
  cases hph : (s.object other).ph with
  | none =>
      rw [if_pos rfl]
      exact hs.counts
  | some h =>
      rw [if_neg (Option.some_ne_none h)]
      have hlt := card_succ_lt_of_free hs hfree
      have hle := card_holders_le s.live (fun a => (s.object a).ph) h
      refine hs.counts.refIncr (mem_allocated hs hother hph) ?_
      exact lt_of_le_of_lt (Nat.succ_le_succ hle) hlt

theorem Balanced.moveConstruct (hs : s.Balanced) (hfree : s.Free this) {other : ℕ}
    (hother : other ∈ s.live) : (s.moveConstruct this other).Balanced where
  counts := by
    have hne : other ≠ this := fun heq => hfree.2.2 (heq ▸ hother)
    have hcount : ∀ h, ((s.moveConstruct this other).holders h).card = (s.holders h).card := by
      intro h
      have hmem : other ∈ Insert.insert this s.live := Finset.mem_insert_of_mem hother
      have hmoved := card_holders_update hmem
        (Function.update (fun a => (s.object a).ph) this (s.object other).ph) none h
      rw [Function.update_of_ne hne, card_holders_insert hfree.2.2, share_none] at hmoved
      simp only [holders, HandleState.moveConstruct, ph_update] at hmoved ⊢
      omega
    simp only [hcount]
    exact hs.counts
  address := address_insert hs hfree

/-- What the release of the handle of `this` leaves is counted as if `this` held none. -/
theorem Balanced.releaseHeld (hs : s.Balanced) (hthis : this ∈ s.live) :
    (s.heap.releaseHeld (s.object this).ph).1.Counts fun h =>
      (Ownership.holders s.live
        (Function.update (fun a => (s.object a).ph) this none) h).card := by
  have hlt := card_lt_of_address hs.address
  refine hs.counts.releaseHeld (fun h => ?_) (card_holders_lt hs)
    (lt_of_le_of_lt (card_allocated_le hs) hlt)
  exact card_holders_update hthis (fun a => (s.object a).ph) none h

theorem copyAssign_of_ne {other : ℕ} (hne : this ≠ other) :
    s.copyAssign this other =
      ⟨((s.heap.releaseHeld (s.object this).ph).1.sdskvProviderHandleRefIncr
          (s.object other).ph).1,
        s.live, Function.update s.object this (s.object other),
        checkRet ((s.heap.releaseHeld (s.object this).ph).1.sdskvProviderHandleRefIncr
          (s.object other).ph).2⟩ := by
  simp only [copyAssign, if_neg hne, HandleHeap.releaseHeld_snd]
  rfl

theorem moveAssign_of_ne {other : ℕ} (hne : this ≠ other) :
    s.moveAssign this other =
      ⟨(s.heap.releaseHeld (s.object this).ph).1, s.live,
        Function.update (Function.update s.object this (s.object other)) other ⟨none, none⟩,
        none⟩ := by
  simp only [moveAssign, if_neg hne, HandleHeap.releaseHeld_snd]
  rfl

theorem Balanced.copyAssign (hs : s.Balanced) {other : ℕ} (hthis : this ∈ s.live)
    (hother : other ∈ s.live) : (s.copyAssign this other).Balanced := by
  by_cases hne : this = other
  · rw [HandleState.copyAssign, if_pos hne]
    exact ⟨hs.counts, hs.address⟩
  rw [copyAssign_of_ne hne]
  refine ⟨?_, hs.address⟩
  have hreleased := hs.releaseHeld hthis
  -- the number of holders after the write, from the number after the release
  have hcount : ∀ v h, (Ownership.holders s.live
      (Function.update (fun a => (s.object a).ph) this v) h).card =
        (Ownership.holders s.live
          (Function.update (fun a => (s.object a).ph) this none) h).card + share v h := by
    intro v h
    have hwrite := card_holders_update hthis (fun a => (s.object a).ph) v h
    have hnull := card_holders_update hthis (fun a => (s.object a).ph) none h
    rw [share_none] at hnull
    omega
  simp only [holders, ph_update, hcount (s.object other).ph]
  cases hph : (s.object other).ph with
  | none => exact hreleased
  | some h =>
      -- the other object holds the handle still, so it was not freed
      refine hreleased.refIncr ((hreleased.mem_iff h).2 ?_) ?_
      · refine one_le_card_holders hother ?_
        rw [Function.update_of_ne (Ne.symm hne)]
        exact hph
      · have hle := card_holders_le s.live
          (Function.update (fun a => (s.object a).ph) this (some h)) h
        rw [hcount, share_self] at hle
        exact lt_of_le_of_lt hle (card_lt_of_address hs.address)

theorem Balanced.moveAssign (hs : s.Balanced) {other : ℕ} (hthis : this ∈ s.live)
    (hother : other ∈ s.live) : (s.moveAssign this other).Balanced := by
  by_cases hne : this = other
  · rw [HandleState.moveAssign, if_pos hne]
    exact ⟨hs.counts, hs.address⟩
  rw [moveAssign_of_ne hne]
  refine ⟨?_, hs.address⟩
  have hreleased := hs.releaseHeld hthis
  have hcount : ∀ h, (Ownership.holders s.live (Function.update
      (Function.update (fun a => (s.object a).ph) this (s.object other).ph) other none) h).card =
        (Ownership.holders s.live
          (Function.update (fun a => (s.object a).ph) this none) h).card := by
    intro h
    have hwrite := card_holders_update hthis (fun a => (s.object a).ph) (s.object other).ph h
    have hnull := card_holders_update hthis (fun a => (s.object a).ph) none h
    have hmoved := card_holders_update hother
      (Function.update (fun a => (s.object a).ph) this (s.object other).ph) none h
    rw [Function.update_of_ne (Ne.symm hne)] at hmoved
    simp only [share_none] at hnull hmoved
    omega
  simp only [holders, ph_update, hcount]
  exact hreleased

theorem Balanced.destruct (hs : s.Balanced) (hthis : this ∈ s.live) :
    (s.destruct this).Balanced where
  counts := by
    have hlt := card_lt_of_address hs.address
    refine hs.counts.releaseHeld (fun h => ?_) (card_holders_lt hs)
      (lt_of_le_of_lt (card_allocated_le hs) hlt)
    exact card_holders_erase hthis (fun a => (s.object a).ph) h
  address a ha := hs.address a (Finset.mem_of_mem_erase ha)

/-- Every operation keeps the counts. -/
theorem Balanced.step {clients : ℕ → Option ℕ} {s' : HandleState} {op : HandleOperation}
    (hs : s.Balanced) (hstep : s.step clients op = some s') : s'.Balanced := by
  cases op with
  | default this client =>
      obtain ⟨hfree, ⟨⟩⟩ := Option.ite_none_right_eq_some.1 hstep
      exact hs.defaultConstruct hfree client
  | create this c providerId answers =>
      obtain ⟨⟨hfree, hfresh⟩, ⟨⟩⟩ := Option.ite_none_right_eq_some.1 hstep
      exact hs.createConstruct hfree c (clients c) providerId hfresh
  | construct this other =>
      obtain ⟨⟨hfree, hother⟩, ⟨⟩⟩ := Option.ite_none_right_eq_some.1 hstep
      rw [HandleState.construct]
      split
      · exact hs.moveConstruct hfree hother
      · exact hs.copyConstruct hfree hother
  | assign this other =>
      obtain ⟨⟨hthis, hother⟩, ⟨⟩⟩ := Option.ite_none_right_eq_some.1 hstep
      rw [HandleState.assign]
      split
      · exact hs.moveAssign hthis hother
      · exact hs.copyAssign hthis hother
  | destroy this =>
      obtain ⟨hthis, ⟨⟩⟩ := Option.ite_none_right_eq_some.1 hstep
      exact hs.destruct hthis

theorem Balanced.run {clients : ℕ → Option ℕ} {ops : List HandleOperation}
    (hrun : Transition.run? (HandleState.step clients) start ops = some s) : s.Balanced :=
  Transition.invariant_of_step (fun _ _ _ hs hstep => hs.step hstep) balanced_start hrun

/-- After every sequence of operations the count of a handle is the number of live objects
that hold it, no handle is used after it was freed, and the client knows how many handles are
not freed. A further operation frees a handle exactly when it leaves none of its holders. -/
theorem refcounts_of_run (clients : ℕ → Option ℕ) (ops : List HandleOperation)
    (s : HandleState)
    (hrun : Transition.run? (HandleState.step clients) start ops = some s) :
    (∀ h ∈ s.heap.allocated, (s.heap.handle h).refcount = (s.holders h).card) ∧
      (∀ c, s.heap.numProviderHandles c =
        (s.heap.allocated.filter fun h => (s.heap.handle h).client = c).card) ∧
      (∀ h, h ∈ s.heap.allocated ↔ (s.holders h).Nonempty) ∧
      s.heap.invalidAccess = false ∧
      ∀ op s', s.step clients op = some s' →
        ∀ h, h ∈ s.heap.allocated ∧ h ∉ s'.heap.allocated ↔
          (s.holders h).Nonempty ∧ ¬ (s'.holders h).Nonempty := by
  have hs : s.Balanced := Balanced.run hrun
  have hheld : ∀ {t : HandleState}, t.Balanced →
      ∀ h, h ∈ t.heap.allocated ↔ (t.holders h).Nonempty := by
    intro t ht h
    rw [ht.counts.mem_iff, Finset.card_pos]
  refine ⟨hs.counts.refcount, hs.counts.num, hheld hs, hs.counts.valid, ?_⟩
  intro op s' hstep h
  rw [hheld hs, hheld (hs.step hstep)]

/-- The third operation makes two objects share a handle, the fourth throws after it has
released it, and the last one leaves one holder. -/
def sharingProgram : List HandleOperation :=
  [.create 1 4 0 ⟨some 100, hgSuccess, 9⟩, .default 2 none, .construct 3 ⟨1, false, false⟩,
    .assign 1 ⟨2, true, false⟩, .assign 2 ⟨3, true, false⟩, .destroy 3]

theorem refcounts_of_sharingProgram :
    ∃ s, Transition.run? (HandleState.step fun _ => some 7) start sharingProgram = some s ∧
      s.holders 100 = {2} ∧ (s.heap.handle 100).refcount = (s.holders 100).card := by
  refine ⟨_, rfl, by decide, ?_⟩
  exact (refcounts_of_run (fun _ => some 7) sharingProgram _ rfl).1 100 (by decide)

end HandleState

end Sdskv
