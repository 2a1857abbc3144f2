import Mathlib.Logic.Function.Basic
import Sdskv.Common.Types
import Sdskv.Transition.Run

/-!
# Registering and destroying providers

Registering a provider allocates its context, registers every RPC of the service under
its provider id, and attaches the context to each of them. Destroying it removes its
databases, deregisters RPCs and deletes the context. The two lists of RPCs are separate
in the source, and four RPCs are missing from the second.

A Margo instance is a table from RPC ids to the data attached to them, and the contexts
that are allocated. Addresses are not used twice, so that a context that was deleted can
be told from one that was allocated later. A request is dispatched with the data that is
attached to its id.
-/

namespace Sdskv

open Transition

/-- The RPCs of the service. -/
inductive SdskvRpc
  | «open»
  | countDatabases
  | listDatabases
  | put
  | putMulti
  | putPacked
  | bulkPut
  | get
  | getMulti
  | getPacked
  | length
  | lengthMulti
  | lengthPacked
  | «exists»
  | existsMulti
  | bulkGet
  | listKeys
  | listKeyvals
  | erase
  | eraseMulti
  | migrateKeys
  | migrateKeyRange
  | migrateKeysPrefixed
  | migrateAllKeys
  | migrateDatabase
  deriving DecidableEq, Repr

namespace SdskvRpc

/-- The RPCs that `sdskv_provider_register` registers, in order. -/
def registered : List SdskvRpc :=
  [.open, .countDatabases, .listDatabases, .put, .putMulti, .putPacked, .bulkPut, .get,
    .getMulti, .getPacked, .length, .lengthMulti, .lengthPacked, .exists, .existsMulti,
    .bulkGet, .listKeys, .listKeyvals, .erase, .eraseMulti, .migrateKeys, .migrateKeyRange,
    .migrateKeysPrefixed, .migrateAllKeys, .migrateDatabase]

/-- The RPCs that `sdskv_server_finalize_cb` deregisters, in order. -/
def deregistered : List SdskvRpc :=
  [.open, .countDatabases, .listDatabases, .put, .putMulti, .bulkPut, .get, .getMulti,
    .exists, .erase, .eraseMulti, .length, .lengthMulti, .bulkGet, .listKeys, .listKeyvals,
    .migrateKeys, .migrateKeyRange, .migrateKeysPrefixed, .migrateAllKeys, .migrateDatabase]

theorem mem_registered (rpc : SdskvRpc) : rpc ∈ registered := by
  cases rpc <;> decide

/-- The RPCs that stay registered when their provider is destroyed. -/
theorem notMem_deregistered_iff (rpc : SdskvRpc) :
    rpc ∉ deregistered ↔
      rpc = .putPacked ∨ rpc = .getPacked ∨ rpc = .lengthPacked ∨ rpc = .existsMulti := by
  cases rpc <;> decide

end SdskvRpc

/-- `hg_id_t`: Margo derives it from the name of the RPC and the provider id. -/
structure HgId where
  rpc : SdskvRpc
  providerId : UInt16
  deriving DecidableEq, Repr

/-- The fields `sdskv_open_id` to `sdskv_migrate_database_id` of
`sdskv_server_context_t`. -/
structure ServerContext where
  rpcId : SdskvRpc → HgId

/-- A Margo instance: the data attached to each registered RPC, the allocated contexts,
and the next address of the allocator. -/
structure MargoInstance where
  data : HgId → Option ℕ
  contexts : ℕ → Option ServerContext
  next : ℕ

/-- What `sdskv_provider_register` is given and what the calls that it makes answer: the
JSON parser, `validate_and_complete_config`, `ABT_rwlock_create`, the registration of the
migration class, when there is a REMI provider, and `populate_provider_from_config`. -/
structure RegisterCall where
  providerId : UInt16
  jsonParses : Bool
  validate : SdskvReturn
  rwlockCreate : ℕ
  remiRegister : Option ℕ
  populate : SdskvReturn

/-- `ABT_SUCCESS` and `REMI_SUCCESS`. -/
def libSuccess : ℕ := 0

/-- The calls after the registrations succeed. -/
def RegisterCall.Completes (call : RegisterCall) : Prop :=
  (∀ ret ∈ call.remiRegister, ret = libSuccess) ∧ call.populate = .success

/-- `SDSKV_MAKE_ABT_ERROR`. -/
def makeAbtError (err : ℕ) : Int := err * 2 ^ 16

namespace MargoInstance

/-- No RPC is registered and no context is allocated. -/
def init : MargoInstance :=
  { data := fun _ => none, contexts := fun _ => none, next := 0 }

/-- `MARGO_REGISTER_PROVIDER` followed by `margo_register_data`. -/
def register (m : MargoInstance) (id : HgId) (provider : ℕ) : MargoInstance :=
  { m with data := Function.update m.data id (some provider) }

/-- `margo_deregister`. -/
def deregister (m : MargoInstance) (id : HgId) : MargoInstance :=
  { m with data := Function.update m.data id none }

/-- `new sdskv_server_context_t`, with the ids that the registrations fill in. -/
def allocate (m : MargoInstance) (providerId : UInt16) : MargoInstance :=
  { m with
    contexts := Function.update m.contexts m.next
      (some { rpcId := fun rpc => { rpc := rpc, providerId := providerId } })
    next := m.next + 1 }

/-- `delete provider`. -/
def free (m : MargoInstance) (provider : ℕ) : MargoInstance :=
  { m with contexts := Function.update m.contexts provider none }

/-- The registrations of `sdskv_provider_register`. -/
def registerRpcs (m : MargoInstance) (provider : ℕ) (providerId : UInt16) : MargoInstance :=
  SdskvRpc.registered.foldl
    (fun m rpc => m.register { rpc := rpc, providerId := providerId } provider) m

/-- `sdskv_server_finalize_cb`. -/
def finalizeCb (m : MargoInstance) (provider : ℕ) : MargoInstance :=
  match m.contexts provider with
  | none => m
  | some context =>
      (SdskvRpc.deregistered.foldl (fun m rpc => m.deregister (context.rpcId rpc)) m).free
        provider

/-- `sdskv_provider_destroy`. -/
def providerDestroy (m : MargoInstance) (provider : ℕ) : Int × MargoInstance :=
  (SdskvReturn.success.code, m.finalizeCb provider)

/-- The part of `sdskv_provider_register` after the registrations. -/
def finishRegister (m : MargoInstance) (call : RegisterCall) (tmpProvider : ℕ) :
    Int × Option ℕ × MargoInstance :=
  if ∃ ret ∈ call.remiRegister, ret ≠ libSuccess then
    (SdskvReturn.errRemi.code, none, m.finalizeCb tmpProvider)
  else if call.populate ≠ .success then
    (call.populate.code, none, (m.providerDestroy tmpProvider).2)
  else (SdskvReturn.success.code, some tmpProvider, m)

/-- `sdskv_provider_register`; `*provider` is set on success. -/
def providerRegister (m : MargoInstance) (call : RegisterCall) :
    Int × Option ℕ × MargoInstance :=
  if ¬ call.jsonParses then (SdskvReturn.errConfig.code, none, m)
  else if m.data { rpc := .put, providerId := call.providerId } ≠ none then
    (SdskvReturn.errPrExists.code, none, m)
  else if call.validate ≠ .success then (call.validate.code, none, m)
  else
    let tmpProvider := m.next
    let m := m.allocate call.providerId
    if call.rwlockCreate ≠ libSuccess then
      (makeAbtError call.rwlockCreate, none, m.free tmpProvider)
    else (m.registerRpcs tmpProvider call.providerId).finishRegister call tmpProvider

/-- The data that the handler of an incoming request finds attached to its id. -/
def dispatch (m : MargoInstance) (id : HgId) : Option ℕ := m.data id

/-- Every registration carries a context that is allocated. -/
def Live (m : MargoInstance) : Prop :=
  ∀ id provider, m.dispatch id = some provider → (m.contexts provider).isSome

end MargoInstance

/-- A call of the API; `destroy` takes the address of the context. -/
inductive ProviderCall
  | register (call : RegisterCall)
  | destroy (provider : ℕ)

namespace MargoInstance

/-- One call. A provider can be destroyed once, so `destroy` is only called on a context
that is allocated. -/
def step (m : MargoInstance) : ProviderCall → Option MargoInstance
  | .register call => some (m.providerRegister call).2.2
  | .destroy provider =>
      if (m.contexts provider).isSome then some (m.providerDestroy provider).2 else none

/-- The call gets as far as registering RPCs. -/
def RegistersRpcs (m : MargoInstance) (call : RegisterCall) : Prop :=
  call.jsonParses ∧ m.data { rpc := .put, providerId := call.providerId } = none ∧
    call.validate = .success ∧ call.rwlockCreate = libSuccess

/-- The call destroys no provider: it is not `sdskv_provider_destroy`, and not an
`sdskv_provider_register` that fails once the RPCs are registered. -/
def KeepsProviders (m : MargoInstance) : ProviderCall → Prop
  | .register call => m.RegistersRpcs call → call.Completes
  | .destroy _ => False

section Tables

/-- A loop over RPCs that sets the data of each of them. -/
theorem foldl_data (providerId : UInt16) (value : Option ℕ)
    {f : MargoInstance → SdskvRpc → MargoInstance}
    (hf : ∀ m rpc, (f m rpc).data =
      Function.update m.data { rpc := rpc, providerId := providerId } value)
    (rpcs : List SdskvRpc) (m : MargoInstance) (id : HgId) :
    (rpcs.foldl f m).data id =
      if id.rpc ∈ rpcs ∧ id.providerId = providerId then value else m.data id := by
  induction rpcs generalizing m with
  | nil => simp
  | cons rpc rpcs ih =>
      rw [List.foldl_cons, ih, hf, Function.update_apply]
      obtain ⟨rpc', providerId'⟩ := id
      by_cases hrpc : rpc' = rpc <;> by_cases hid : providerId' = providerId <;>
        simp [hrpc, hid]

variable (m : MargoInstance)

theorem registerRpcs_data (provider : ℕ) (providerId : UInt16) (id : HgId) :
    (m.registerRpcs provider providerId).data id =
      if id.providerId = providerId then some provider else m.data id := by
  rw [registerRpcs, foldl_data providerId (some provider) fun _ _ => rfl]
  simp only [SdskvRpc.mem_registered, true_and]

theorem registerRpcs_contexts (provider : ℕ) (providerId : UInt16) :
    (m.registerRpcs provider providerId).contexts = m.contexts := rfl

variable {m} {provider : ℕ} {providerId : UInt16}
  (hcontext : m.contexts provider =
    some { rpcId := fun rpc => { rpc := rpc, providerId := providerId } })
include hcontext

/-- Destroying a provider leaves the registrations that the second list misses. -/
theorem finalizeCb_data (id : HgId) :
    (m.finalizeCb provider).data id =
      if id.rpc ∈ SdskvRpc.deregistered ∧ id.providerId = providerId then none
      else m.data id := by
  rw [finalizeCb, hcontext]
  exact foldl_data (f := fun m rpc => m.deregister { rpc := rpc, providerId := providerId })
    providerId none (fun _ _ => rfl) SdskvRpc.deregistered m id

theorem finalizeCb_contexts :
    (m.finalizeCb provider).contexts = Function.update m.contexts provider none := by
  rw [finalizeCb, hcontext]
  rfl

/-- Once destroyed, a provider is still dispatched to. -/
theorem not_live_finalizeCb
    (hdata : m.data { rpc := .putPacked, providerId := providerId } = some provider) :
    ¬ (m.finalizeCb provider).Live := by
  intro hlive
  have hkept : SdskvRpc.putPacked ∉ SdskvRpc.deregistered :=
    (SdskvRpc.notMem_deregistered_iff .putPacked).2 (Or.inl rfl)
  have hleft : (m.finalizeCb provider).dispatch
      { rpc := .putPacked, providerId := providerId } = some provider := by
    rw [dispatch, finalizeCb_data hcontext, if_neg fun h => hkept h.1, hdata]
  have hsome := hlive _ _ hleft
  rw [finalizeCb_contexts hcontext, Function.update_self] at hsome
  cases hsome

end Tables

section Calls

variable {m : MargoInstance}

/-- The RPCs of every allocated context are registered with it, and addresses from the
next one on are not allocated. -/
structure Inv (m : MargoInstance) : Prop where
  live : m.Live
  registered : ∀ provider context, m.contexts provider = some context →
    ∃ providerId, (context.rpcId = fun rpc => { rpc := rpc, providerId := providerId }) ∧
      ∀ rpc, m.data { rpc := rpc, providerId := providerId } = some provider
  fresh : ∀ provider, m.next ≤ provider → m.contexts provider = none

theorem inv_init : init.Inv where
  live := fun _ _ h => by cases h
  registered := fun _ _ h => by cases h
  fresh := fun _ _ => rfl

/-- The instance after the allocation and the registrations of a new provider. -/
def registering (m : MargoInstance) (providerId : UInt16) : MargoInstance :=
  (m.allocate providerId).registerRpcs m.next providerId

theorem registering_contexts (m : MargoInstance) (providerId : UInt16) (provider : ℕ) :
    (m.registering providerId).contexts provider =
      if provider = m.next then
        some { rpcId := fun rpc => { rpc := rpc, providerId := providerId } }
      else m.contexts provider := by
  rw [registering, registerRpcs_contexts]
  exact Function.update_apply _ _ _ _

theorem registering_data (m : MargoInstance) (providerId : UInt16) (id : HgId) :
    (m.registering providerId).data id =
      if id.providerId = providerId then some m.next else m.data id :=
  registerRpcs_data (m.allocate providerId) m.next providerId id

theorem finishRegister_of_completes (m : MargoInstance) {call : RegisterCall}
    (h : call.Completes) (provider : ℕ) : (m.finishRegister call provider).2.2 = m := by
  obtain ⟨hremi, hpopulate⟩ := h
  have hremi' : ¬ ∃ ret ∈ call.remiRegister, ret ≠ libSuccess := by
    rintro ⟨ret, hret, hne⟩
    exact hne (hremi ret hret)
  rw [finishRegister, if_neg hremi', if_neg (not_not.2 hpopulate)]

theorem finishRegister_of_not_completes (m : MargoInstance) {call : RegisterCall}
    (h : ¬ call.Completes) (provider : ℕ) :
    (m.finishRegister call provider).2.2 = m.finalizeCb provider := by
  rw [finishRegister]
  split_ifs with hremi hpopulate
  · rfl
  · rfl
  · exfalso
    apply h
    constructor
    · intro ret hret
      by_contra hne
      exact hremi ⟨ret, hret, hne⟩
    · exact not_not.1 hpopulate

/-- What a call of `sdskv_provider_register` does to the instance. -/
theorem providerRegister_cases (m : MargoInstance) (call : RegisterCall) :
    (¬ m.RegistersRpcs call ∧
      ((m.providerRegister call).2.2 = m ∨
        (m.providerRegister call).2.2 = (m.allocate call.providerId).free m.next)) ∨
    (m.RegistersRpcs call ∧ call.Completes ∧
      (m.providerRegister call).2.2 = m.registering call.providerId) ∨
    (m.RegistersRpcs call ∧ ¬ call.Completes ∧
      (m.providerRegister call).2.2 = (m.registering call.providerId).finalizeCb m.next) := by
  rw [providerRegister]
  by_cases hregisters : m.RegistersRpcs call
  · obtain ⟨hjson, hunused, hvalidate, hlock⟩ := id hregisters
    rw [if_neg (not_not.2 hjson), if_neg (not_not.2 hunused), if_neg (not_not.2 hvalidate)]
    simp only [hlock, ne_eq, not_true_eq_false, if_false]
    by_cases hcompletes : call.Completes
    · exact Or.inr (Or.inl ⟨hregisters, hcompletes,
        finishRegister_of_completes _ hcompletes m.next⟩)
    · exact Or.inr (Or.inr ⟨hregisters, hcompletes,
        finishRegister_of_not_completes _ hcompletes m.next⟩)
  · refine Or.inl ⟨hregisters, ?_⟩
    by_cases hjson : call.jsonParses
    · by_cases hunused : m.data { rpc := .put, providerId := call.providerId } = none
      · by_cases hvalidate : call.validate = .success
        · have hlock : call.rwlockCreate ≠ libSuccess := fun hlock =>
            hregisters ⟨hjson, hunused, hvalidate, hlock⟩
          right
          simp [hjson, hunused, hvalidate, hlock]
        · left
          simp [hjson, hunused, hvalidate]
      · left
        simp [hjson, hunused]
    · left
      simp [hjson]

theorem inv_of_eq {m m' : MargoInstance} (h : m.Inv) (hdata : m'.data = m.data)
    (hcontexts : m'.contexts = m.contexts) (hnext : m.next ≤ m'.next) : m'.Inv where
  live := by
    intro id provider hid
    rw [hcontexts]
    exact h.live id provider (by rwa [dispatch, hdata] at hid)
  registered := by
    rw [hdata, hcontexts]
    exact h.registered
  fresh := by
    intro provider hle
    rw [hcontexts]
    exact h.fresh provider (hnext.trans hle)

/-- An allocation that is given back leaves the tables as they were. -/
theorem inv_allocate_free (h : m.Inv) (providerId : UInt16) :
    ((m.allocate providerId).free m.next).Inv := by
  refine inv_of_eq h rfl ?_ (Nat.le_succ m.next)
  funext provider
  rw [free, allocate]
  simp only [Function.update_apply]
  split_ifs with hprovider
  · rw [hprovider, h.fresh m.next le_rfl]
  · rfl

/-- A new provider takes an id under which nothing is registered. -/
theorem inv_registering (h : m.Inv) {providerId : UInt16}
    (hunused : m.data { rpc := .put, providerId := providerId } = none) :
    (m.registering providerId).Inv where
  live := by
    intro id provider hid
    rw [dispatch, registering_data] at hid
    rw [registering_contexts]
    split_ifs with hprovider
    · rfl
    · split_ifs at hid with hnew
      · exact absurd (Option.some.inj hid).symm hprovider
      · exact h.live id provider hid
  registered := by
    intro provider context hcontext
    rw [registering_contexts] at hcontext
    split_ifs at hcontext with hprovider
    · cases hcontext
      refine ⟨providerId, rfl, fun rpc => ?_⟩
      rw [registering_data, if_pos rfl, hprovider]
    · obtain ⟨otherId, hids, hdata⟩ := h.registered provider context hcontext
      have hother : otherId ≠ providerId := by
        rintro rfl
        rw [hdata .put] at hunused
        cases hunused
      refine ⟨otherId, hids, fun rpc => ?_⟩
      rw [registering_data, if_neg hother, hdata rpc]
  fresh := by
    intro provider hle
    have hlt : m.next < provider := hle
    rw [registering_contexts, if_neg hlt.ne', h.fresh provider hlt.le]

theorem not_live_registering_finalizeCb (m : MargoInstance) (providerId : UInt16) :
    ¬ ((m.registering providerId).finalizeCb m.next).Live := by
  apply not_live_finalizeCb
  · rw [registering_contexts, if_pos rfl]
  · rw [registering_data, if_pos rfl]

theorem inv_step (m : MargoInstance) (call : ProviderCall) (m' : MargoInstance) (h : m.Inv)
    (hkeeps : m.KeepsProviders call) (hstep : m.step call = some m') : m'.Inv := by
  cases call with
  | destroy provider => cases hkeeps
  | register call =>
      obtain rfl := Option.some.inj hstep
      obtain ⟨-, hsame | hfreed⟩ | ⟨hregisters, -, hnew⟩ | ⟨hregisters, hfails, -⟩ :=
        m.providerRegister_cases call
      · rwa [hsame]
      · rw [hfreed]
        exact inv_allocate_free h call.providerId
      · rw [hnew]
        exact inv_registering h hregisters.2.1
      · exact absurd (hkeeps hregisters) hfails

theorem not_live_step (m : MargoInstance) (call : ProviderCall) (m' : MargoInstance)
    (h : m.Inv) (hdestroys : ¬ m.KeepsProviders call) (hstep : m.step call = some m') :
    ¬ m'.Live := by
  cases call with
  | destroy provider =>
      rw [step] at hstep
      split_ifs at hstep with hsome
      obtain rfl := Option.some.inj hstep
      obtain ⟨context, hcontext⟩ := Option.isSome_iff_exists.1 hsome
      obtain ⟨providerId, hids, hdata⟩ := h.registered provider context hcontext
      apply not_live_finalizeCb _ (hdata .putPacked)
      rw [hcontext, ← hids]
  | register call =>
      obtain rfl := Option.some.inj hstep
      obtain ⟨hnot, -⟩ | ⟨-, hcompletes, -⟩ | ⟨-, -, hnew⟩ := m.providerRegister_cases call
      · exact absurd (fun hregisters => absurd hregisters hnot) hdestroys
      · exact absurd (fun _ => hcompletes) hdestroys
      · rw [hnew]
        exact not_live_registering_finalizeCb m call.providerId

end Calls

/-- In every state of a run each registration carries an allocated context exactly when
no call of the run destroys a provider. -/
theorem live_iff_keepsProviders {calls : List ProviderCall} {m : MargoInstance}
    (hrun : run? step init calls = some m) :
    (∀ n m', run? step init (calls.take n) = some m' → m'.Live) ↔
      holdsAlong step KeepsProviders init calls :=
  forall_prefix_iff_holdsAlong (fun _ h => h.live) inv_step not_live_step inv_init hrun

/-- A registration in which every call succeeds. -/
def registerCall (providerId : UInt16) : RegisterCall :=
  { providerId := providerId, jsonParses := true, validate := .success, rwlockCreate := 0,
    remiRegister := none, populate := .success }

/-- Two registrations under different provider ids. -/
def twoProviders : List ProviderCall :=
  [.register (registerCall 1), .register (registerCall 2)]

theorem live_twoProviders :
    run? step init twoProviders = some ((init.registering 1).registering 2) ∧
      ((init.registering 1).registering 2).Live := by
  have hrun : run? step init twoProviders = some ((init.registering 1).registering 2) := rfl
  have hkeeps : holdsAlong step KeepsProviders init twoProviders :=
    ⟨fun _ => ⟨by decide, rfl⟩, fun _ _ => ⟨fun _ => ⟨by decide, rfl⟩, fun _ _ => trivial⟩⟩
  exact ⟨hrun, (live_iff_keepsProviders hrun).2 hkeeps 2 _ hrun⟩

/-- A provider is registered and destroyed: a packed put that arrives afterwards is
dispatched with the deleted context. -/
theorem dispatched_after_destroy :
    ∃ m, run? step init [.register (registerCall 1), .destroy 0] = some m ∧
      m.dispatch { rpc := .putPacked, providerId := 1 } = some 0 ∧ m.contexts 0 = none ∧
      ¬ m.Live := by
  have hcontext : (init.registering 1).contexts 0 =
      some { rpcId := fun rpc => { rpc := rpc, providerId := 1 } } := rfl
  refine ⟨(init.registering 1).finalizeCb 0, rfl, rfl, ?_, ?_⟩
  · rw [finalizeCb_contexts hcontext, Function.update_self]
  · exact not_live_registering_finalizeCb init 1

end MargoInstance

end Sdskv
