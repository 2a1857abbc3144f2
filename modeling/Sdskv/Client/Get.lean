import Sdskv.Rpc.Backends

/-!
# Reading a value into an object of the client

`client::get` reads the value of a key into a `std::string` or a `std::vector<char>`. It
is a protocol of up to three requests: an empty object asks for the length first, then the
value is fetched, and a buffer that turns out to be too small is enlarged for a second
try. Between any two requests other clients may put and erase keys.

`sdskv_get` with a null buffer is a request for the length. The data of a vector that was
never allocated is a null pointer, so a value that was empty when its length was asked for
is not fetched: the object then gets the current length and is filled with zeros.
-/

namespace Sdskv

open Transition

/-- A `std::string` or a `std::vector<char>`; `isNull` says that `data()` is a null
pointer, as it is for a vector that was never allocated. -/
structure ValueObject where
  content : Bulk
  isNull : Bool
  content_of_isNull : isNull = true → content = []

namespace ValueObject

/-- A string, or a vector that was allocated. -/
def allocated (content : Bulk) : ValueObject :=
  { content := content, isNull := false, content_of_isNull := by simp }

/-- A vector that was just constructed. -/
def emptyVector : ValueObject :=
  { content := [], isNull := true, content_of_isNull := fun _ => rfl }

/-- `object_resize`: new elements are zero, and a buffer is allocated when it is needed. -/
def resize (v : ValueObject) (newSize : ℕ) : ValueObject where
  content := v.content.take newSize ++ List.replicate (newSize - v.content.length) 0
  isNull := v.isNull && decide (newSize = 0)
  content_of_isNull h := by
    simp only [Bool.and_eq_true, decide_eq_true_eq] at h
    simp [v.content_of_isNull h.1, h.2]

/-- Bytes are copied to the beginning of the buffer. -/
def write (v : ValueObject) (data : Bulk) : ValueObject :=
  if v.isNull then v
  else allocated (data ++ v.content.drop data.length)

/-- Writing a value and cutting the object to its length leaves the value. -/
theorem resize_write {v : ValueObject} (hv : v.isNull = false) (data : Bulk) :
    ((v.write data).resize data.length).content = data := by
  simp [write, hv, resize, allocated]

/-- A null buffer is enlarged with zeros. -/
theorem resize_of_isNull {v : ValueObject} (hv : v.isNull = true) {w : Bulk}
    (hw : ∀ b ∈ w, b = 0) : (v.resize w.length).content = w := by
  have hzeros : w = List.replicate w.length 0 := List.eq_replicate_of_mem hw
  simpa [resize, v.content_of_isNull hv] using hzeros.symm

end ValueObject

/-- The answers of the Margo calls of a client and of the handler of its request. -/
structure Transport where
  client : List ℕ
  server : List ℕ

section Client

variable {σ : Type*} (ds : DatastoreReads σ) (net : Transport) (dbs : Databases σ)
  (dbId : UInt64) (key : KvData)

/-- `sdskv_length`; the result is the return value and `*vsize`. -/
def sdskvLength (vsize : ℕ) : Int × ℕ × Databases σ :=
  match firstFailure net.client with
  | some hret => (makeHgError hret, vsize, dbs)
  | none =>
      let (out, dbs') := sdskvLengthUlt ds dbs dbId key
      (out.ret, if out.ret = 0 then out.size.getD vsize else vsize, dbs')

/-- The branch of `sdskv_get` for a small value, which comes with the answer. -/
def getInline (value : ValueObject) (vsize : ℕ) : Int × ValueObject × ℕ × Databases σ :=
  match firstFailure net.client with
  | some hret => (makeHgError hret, value, vsize, dbs)
  | none =>
      let (out, dbs') := sdskvGetUlt ds dbs { dbId := dbId, key := key, vsize := vsize }
      if out.ret = SdskvReturn.success.code then
        (out.ret, value.write out.value, out.vsize, dbs')
      else if out.ret = SdskvReturn.errSize.code then (out.ret, value, out.vsize, dbs')
      else (out.ret, value, vsize, dbs')

/-- The branch of `sdskv_get` for a large value, which the handler pushes to the client. -/
def getBulk (value : ValueObject) (vsize : ℕ) : Int × ValueObject × ℕ × Databases σ :=
  match firstFailure net.client with
  | some hret => (makeHgError hret, value, vsize, dbs)
  | none =>
      let (out, dbs') := sdskvBulkGetUlt ds dbs net.server
        { dbId := dbId, key := key, vsize := vsize }
      (out.ret, value.write out.pushed, out.vsize, dbs')

/-- `sdskv_get`; the result is the return value, the buffer and `*vsize`. -/
def sdskvGet (value : ValueObject) (vsize : ℕ) : Int × ValueObject × ℕ × Databases σ :=
  if value.isNull then
    let (ret, vsize', dbs') := sdskvLength ds net dbs dbId key vsize
    (ret, value, vsize', dbs')
  else
    let msize := vsize + 8 + 4
    if msize ≤ maxRpcMessageSize then getInline ds net dbs dbId key value vsize
    else getBulk ds net dbs dbId key value vsize

end Client

/-- Where `client::get` stands: the request it makes next, or how it ended. -/
inductive GetPhase
  | length
  | get
  | getAgain
  | returned
  | thrown (error : Int)
  deriving DecidableEq

/-- A call of `client::get`. The bindings of the key since the call are kept in `seen`. -/
structure GetCall (σ : Type*) where
  dbs : Databases σ
  value : ValueObject
  s : ℕ
  phase : GetPhase
  seen : List (Option Bulk)

/-- The client makes its next request, or another client's request is served. -/
inductive GetAction
  | rpc (net : Transport)
  | other (request : KeyRequest)

section Call

variable {σ : Type*} (ds : DatastoreReads σ) (view : σ → Bulk → Option Bulk) (dbId : UInt64)
  (key : KvData)

/-- The value that a database binds the key to. -/
def boundTo (dbs : Databases σ) : Option Bulk := (dbs dbId).bind fun s => view s key.data

/-- The state when `client::get` is called. -/
def startGet (dbs : Databases σ) (value : ValueObject) : GetCall σ where
  dbs := dbs
  value := value
  s := value.content.length
  phase := if value.content.length = 0 then .length else .get
  seen := [boundTo view dbId key dbs]

/-- The next request of `client::get`, and what follows up to the one after it. -/
def nextRequest (net : Transport) (c : GetCall σ) : Option (GetCall σ) :=
  match c.phase with
  | .length =>
      let (ret, vsize, dbs') := sdskvLength ds net c.dbs dbId key c.s
      if ret = SdskvReturn.success.code then
        some { c with dbs := dbs', value := c.value.resize vsize, s := vsize, phase := .get }
      else some { c with dbs := dbs', phase := .thrown ret }
  | .get =>
      let (ret, value, s, dbs') := sdskvGet ds net c.dbs dbId key c.value c.s
      if ret = SdskvReturn.success.code then
        some { c with dbs := dbs', value := value.resize s, s := s, phase := .returned }
      else if ret = SdskvReturn.errSize.code then
        some { c with dbs := dbs', value := value.resize s, s := s, phase := .getAgain }
      else some { c with dbs := dbs', value := value, s := s, phase := .thrown ret }
  | .getAgain =>
      let (ret, value, s, dbs') := sdskvGet ds net c.dbs dbId key c.value c.s
      if ret = SdskvReturn.success.code then
        some { c with dbs := dbs', value := value.resize s, s := s, phase := .returned }
      else some { c with dbs := dbs', value := value, s := s, phase := .thrown ret }
  | _ => none

/-- A request of another client is served while the call is going on. -/
def otherRequest (request : KeyRequest) (c : GetCall σ) : Option (GetCall σ) :=
  match c.phase with
  | .returned => none
  | .thrown _ => none
  | _ => some { c with dbs := (serve ds c.dbs request).2 }

/-- One action; the binding of the key after it has been seen. -/
def getStep (c : GetCall σ) (a : GetAction) : Option (GetCall σ) :=
  let next := match a with
    | .rpc net => nextRequest ds dbId key net c
    | .other request => otherRequest ds request c
  next.map fun c' => { c' with seen := c.seen ++ [boundTo view dbId key c'.dbs] }

/-- The value is not fetched into a null buffer, or nothing but zeros is bound to the
key. -/
def NullGetReadsZeros (c : GetCall σ) : GetAction → Prop
  | .rpc _ => c.phase ≠ .length → c.value.isNull = true →
      ∀ w ∈ boundTo view dbId key c.dbs, ∀ b ∈ w, b = 0
  | .other _ => True

instance NullGetReadsZeros.decidable (c : GetCall σ) :
    (a : GetAction) → Decidable (NullGetReadsZeros view dbId key c a)
  | .rpc _ => inferInstanceAs (Decidable (c.phase ≠ .length → c.value.isNull = true →
      ∀ w ∈ boundTo view dbId key c.dbs, ∀ b ∈ w, b = 0))
  | .other _ => isTrue trivial

end Call

/-- `get` and `length` read the bindings `view` of a database. -/
structure ReadsBindings {σ : Type*} (ds : DatastoreReads σ) (view : σ → Bulk → Option Bulk) :
    Prop where
  get : ∀ s k, (ds.get s k).1 = view s k
  length : ∀ s k, (ds.length s k).1 = (view s k).map List.length

section Requests

variable {σ : Type*} {ds : DatastoreReads σ} {view : σ → Bulk → Option Bulk}
  (h : ReadsBindings ds view) (net : Transport) (dbs : Databases σ) (dbId : UInt64)
  (key : KvData)

include h

/-- A request for the length that succeeds gives the length of the bound value. -/
theorem sdskvLength_success {vsize : ℕ}
    (hret : (sdskvLength ds net dbs dbId key vsize).1 = SdskvReturn.success.code) :
    ∃ w, boundTo view dbId key dbs = some w ∧
      (sdskvLength ds net dbs dbId key vsize).2.1 = w.length := by
  cases hfail : firstFailure net.client with
  | some hret' =>
      simp only [sdskvLength, hfail] at hret
      exact absurd hret (makeHgError_firstFailure_ne_success hfail)
  | none =>
      simp only [sdskvLength, hfail] at hret ⊢
      obtain ⟨s, n, hdb, hn, hout⟩ := sdskvLengthUlt_success hret
      rw [h.length] at hn
      obtain ⟨w, hw, rfl⟩ := Option.map_eq_some_iff.1 hn
      refine ⟨w, by simp [boundTo, hdb, hw], ?_⟩
      simp [hout, SdskvReturn.code_success]

/-- The bound value is in the buffer, and its length in `*vsize`. -/
def Fetched (view : σ → Bulk → Option Bulk) (dbs : Databases σ) (dbId : UInt64)
    (key : KvData) (value : ValueObject) (r : Int × ValueObject × ℕ × Databases σ) : Prop :=
  ∃ w, boundTo view dbId key dbs = some w ∧ r.2.1 = value.write w ∧ r.2.2.1 = w.length

theorem getInline_success {value : ValueObject} {vsize : ℕ}
    (hret : (getInline ds net dbs dbId key value vsize).1 = SdskvReturn.success.code) :
    Fetched view dbs dbId key value (getInline ds net dbs dbId key value vsize) := by
  cases hfail : firstFailure net.client with
  | some hret' =>
      simp only [getInline, hfail] at hret
      exact absurd hret (makeHgError_firstFailure_ne_success hfail)
  | none =>
      simp only [getInline, hfail] at hret ⊢
      split_ifs at hret ⊢ with hsuccess hsize
      · obtain ⟨s, w, hdb, hw, hout⟩ := sdskvGetUlt_success hsuccess
        rw [h.get] at hw
        exact ⟨w, by simp [boundTo, hdb, hw], by simp [hout], by simp [hout]⟩
      · exact absurd hret hsuccess
      · exact absurd hret hsuccess

theorem getBulk_success {value : ValueObject} {vsize : ℕ}
    (hret : (getBulk ds net dbs dbId key value vsize).1 = SdskvReturn.success.code) :
    Fetched view dbs dbId key value (getBulk ds net dbs dbId key value vsize) := by
  cases hfail : firstFailure net.client with
  | some hret' =>
      simp only [getBulk, hfail] at hret
      exact absurd hret (makeHgError_firstFailure_ne_success hfail)
  | none =>
      simp only [getBulk, hfail] at hret ⊢
      obtain ⟨s, w, hdb, hw, hout⟩ := sdskvBulkGetUlt_success hret
      rw [h.get] at hw
      exact ⟨w, by simp [boundTo, hdb, hw], by simp [hout], by simp [hout]⟩

/-- After a get that succeeds, cutting the object to the new size leaves the bound value,
if a null buffer was not used for anything but zeros. -/
theorem sdskvGet_success {value : ValueObject} {vsize : ℕ}
    (hret : (sdskvGet ds net dbs dbId key value vsize).1 = SdskvReturn.success.code)
    (hzeros : value.isNull = true → ∀ w ∈ boundTo view dbId key dbs, ∀ b ∈ w, b = 0) :
    boundTo view dbId key dbs = some
      (((sdskvGet ds net dbs dbId key value vsize).2.1.resize
        (sdskvGet ds net dbs dbId key value vsize).2.2.1).content) := by
  cases hnull : value.isNull with
  | true =>
      simp only [sdskvGet, hnull, if_true] at hret ⊢
      obtain ⟨w, hw, hlength⟩ := sdskvLength_success h net dbs dbId key hret
      rw [hlength, ValueObject.resize_of_isNull hnull (hzeros hnull w hw)]
      exact hw
  | false =>
      have hfetched :
          Fetched view dbs dbId key value (sdskvGet ds net dbs dbId key value vsize) := by
        simp only [sdskvGet, hnull, Bool.false_eq_true, if_false] at hret ⊢
        split_ifs at hret ⊢
        · exact getInline_success h net dbs dbId key hret
        · exact getBulk_success h net dbs dbId key hret
      obtain ⟨w, hw, hvalue, hvsize⟩ := hfetched
      rw [hvalue, hvsize, ValueObject.resize_write hnull]
      exact hw

end Requests

section Runs

variable {σ : Type*} {ds : DatastoreReads σ} {view : σ → Bulk → Option Bulk}
  {dbId : UInt64} {key : KvData}

/-- The current binding of the key has been seen, and after the call has returned so has
the content of the object. -/
structure GetInvariant (view : σ → Bulk → Option Bulk) (dbId : UInt64) (key : KvData)
    (c : GetCall σ) : Prop where
  bound_seen : boundTo view dbId key c.dbs ∈ c.seen
  value_seen : c.phase = .returned → some c.value.content ∈ c.seen

theorem getInvariant_start (dbs : Databases σ) (value : ValueObject) :
    GetInvariant view dbId key (startGet view dbId key dbs value) where
  bound_seen := List.mem_singleton.2 rfl
  value_seen h := by
    simp only [startGet] at h
    split_ifs at h

/-- A request that returns leaves in the object the value that was bound when it was
served. -/
theorem nextRequest_returned (h : ReadsBindings ds view) {net : Transport} {c c' : GetCall σ}
    (hzeros : NullGetReadsZeros view dbId key c (.rpc net))
    (hstep : nextRequest ds dbId key net c = some c') (hret : c'.phase = .returned) :
    boundTo view dbId key c.dbs = some c'.value.content := by
  have hget : c.phase ≠ .length →
      (sdskvGet ds net c.dbs dbId key c.value c.s).1 = SdskvReturn.success.code →
      boundTo view dbId key c.dbs = some
        ((sdskvGet ds net c.dbs dbId key c.value c.s).2.1.resize
          (sdskvGet ds net c.dbs dbId key c.value c.s).2.2.1).content := by
    intro hphase hsuccess
    exact sdskvGet_success h net c.dbs dbId key hsuccess (hzeros hphase)
  cases hphase : c.phase with
  | length =>
      simp only [nextRequest, hphase] at hstep
      split_ifs at hstep <;> cases hstep <;> cases hret
  | get =>
      simp only [nextRequest, hphase] at hstep
      split_ifs at hstep with hsuccess hsize
      · cases hstep
        exact hget (by simp [hphase]) hsuccess
      · cases hstep
        cases hret
      · cases hstep
        cases hret
  | getAgain =>
      simp only [nextRequest, hphase] at hstep
      split_ifs at hstep with hsuccess
      · cases hstep
        exact hget (by simp [hphase]) hsuccess
      · cases hstep
        cases hret
  | returned => simp [nextRequest, hphase] at hstep
  | thrown error => simp [nextRequest, hphase] at hstep

theorem otherRequest_phase {request : KeyRequest} {c c' : GetCall σ}
    (hstep : otherRequest ds request c = some c') : c'.phase ≠ .returned := by
  cases hphase : c.phase <;> simp only [otherRequest, hphase] at hstep <;> cases hstep <;>
    simp

theorem getInvariant_step (h : ReadsBindings ds view) {c c' : GetCall σ} {a : GetAction}
    (hinv : GetInvariant view dbId key c) (hzeros : NullGetReadsZeros view dbId key c a)
    (hstep : getStep ds view dbId key c a = some c') : GetInvariant view dbId key c' := by
  obtain ⟨d, hd, rfl⟩ := Option.map_eq_some_iff.1 hstep
  refine ⟨by simp, ?_⟩
  intro hret
  cases a with
  | rpc net =>
      have hvalue := nextRequest_returned h hzeros hd hret
      exact List.mem_append_left _ (hvalue ▸ hinv.bound_seen)
  | other request =>
      have hphase : d.phase ≠ .returned := otherRequest_phase hd
      exact absurd hret hphase

/-- In every run of `client::get` in which the value is not fetched into a null buffer
while something other than zeros is bound to the key, the content of the object after a
normal return is a value that was bound to the key during the call. -/
theorem clientGet_returns_bound (h : ReadsBindings ds view) {dbs : Databases σ}
    {value : ValueObject} {as : List GetAction}
    (hzeros : holdsAlong (getStep ds view dbId key) (NullGetReadsZeros view dbId key)
      (startGet view dbId key dbs value) as) {c : GetCall σ}
    (hrun : run? (getStep ds view dbId key) (startGet view dbId key dbs value) as = some c)
    (hret : c.phase = .returned) : some c.value.content ∈ c.seen := by
  have hinv : GetInvariant view dbId key c := by
    apply invariant_of_run _ (getInvariant_start dbs value) hzeros hrun
    intro c a c' hc ha hstep
    exact getInvariant_step h hc ha hstep
  exact hinv.value_seen hret

end Runs

theorem MapDataStore.readsBindings : ReadsBindings MapDataStore.reads MapDataStore.get where
  get _ _ := rfl
  length _ _ := rfl

theorem LevelDBDataStore.readsBindings {δ : Type*} {db : LevelDB δ} (S : db.Spec stringLess)
    (hdb : db.NoErrors) :
    ReadsBindings (LevelDBDataStore.reads db) (fun s => S.view s.dbm) where
  get s k := LevelDB.get_fst S hdb s.dbm k
  length s k := congrArg (Option.map List.length) (LevelDB.get_fst S hdb s.dbm k)

theorem BerkeleyDBDataStore.readsBindings {δ : Type*} {db : BerkeleyDbReads δ}
    {S : db.Spec stringLess} (hdb : BerkeleyDbReads.NoErrors S) :
    ReadsBindings (BerkeleyDBDataStore.reads db) (fun s => S.view s.dbm) where
  get s k := BerkeleyDBDataStore.get_fst hdb s k
  length s k := congrArg (Option.map List.length) (BerkeleyDBDataStore.get_fst hdb s k)

/-- No Margo call fails. -/
def reliable : Transport := { client := [], server := [] }

/-- A map database that binds the key `1` to a value. -/
def bindsOne (value : Bulk) : Databases MapDataStore :=
  oneDatabase { MapDataStore.new with map := [([1], value)] }

/-- The value grows to two bytes after its length was asked for. -/
def grownAfterLength : List GetAction :=
  [.rpc reliable,
    .other (.bulkPut [] { dbId := 5, key := KvData.single 1, vsize := 2, handle := [[8, 9]] }),
    .rpc reliable, .rpc reliable]

theorem clientGet_returns_bound_grown :
    ∃ c, run? (getStep MapDataStore.reads MapDataStore.get 5 (KvData.single 1))
        (startGet MapDataStore.get 5 (KvData.single 1) (bindsOne [7])
          ValueObject.emptyVector) grownAfterLength = some c ∧
      c.phase = .returned ∧ c.value.content = [8, 9] ∧ some c.value.content ∈ c.seen := by
  have hzeros : holdsAlong (getStep MapDataStore.reads MapDataStore.get 5 (KvData.single 1))
      (NullGetReadsZeros MapDataStore.get 5 (KvData.single 1))
      (startGet MapDataStore.get 5 (KvData.single 1) (bindsOne [7]) ValueObject.emptyVector)
      grownAfterLength := by decide
  exact ⟨_, rfl, rfl, rfl, clientGet_returns_bound MapDataStore.readsBindings hzeros rfl rfl⟩

/-- The empty value is replaced by one byte after its length was asked for. -/
def replacedAfterLength : List GetAction :=
  [.rpc reliable,
    .other (.put (.ok { dbId := 5, key := KvData.single 1, value := KvData.single 7 })),
    .rpc reliable]

/-- A client with a fresh vector reads a zero byte that nobody has put. -/
theorem clientGet_returns_zero :
    ∃ c, run? (getStep MapDataStore.reads MapDataStore.get 5 (KvData.single 1))
        (startGet MapDataStore.get 5 (KvData.single 1) (bindsOne []) ValueObject.emptyVector)
        replacedAfterLength = some c ∧
      c.phase = .returned ∧ c.value.content = [0] ∧
      c.seen = [some [], some [], some [7], some [7]] ∧ some c.value.content ∉ c.seen :=
  ⟨_, rfl, rfl, rfl, rfl, by decide⟩

end Sdskv
