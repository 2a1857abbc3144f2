import Sdskv.Common.Types
import Sdskv.Loop.Checked

/-!
# The exits of the batched calls of the client

`sdskv_put_multi`, `sdskv_get_multi`, `sdskv_exists_multi`, `sdskv_length_multi` and
`sdskv_erase_multi` make a sequence of transport calls and jump to a common exit when one of
them fails. The code of the failure is stored in `out.ret`, but the exit returns `ret`, which
is assigned after the last call only. In `sdskv_exists_multi` the exit also frees `exist`,
which is declared after the first jump.

The functions are written here with the variables that their exits read, where a variable
that was never assigned is `none` or `unassigned`; `none` is a function whose `int` counter
overflows. The data that the calls carry is in the modules of the requests.

`sdskv_put_packed` frees the bulk handle that it has created, and so does
`sdskv_proxy_put_packed` on its failure exits.
-/

namespace Sdskv

/-- The answers of the transport calls of a batched function, in the order of the calls;
`resultBulk` is the second `margo_bulk_create`. -/
structure MultiCalls where
  keysBulk : ℕ
  resultBulk : ℕ
  create : ℕ
  forward : ℕ
  getOutput : ℕ

/-- The variables that an exit frees, destroys or releases. -/
inductive FreedVar
  | keysBulkHandle
  | resultBulkHandle
  | handle
  | keySegSizes
  | keySegPtrs
  | valSegSizes
  | valSegPtrs
  | valsBuffer
  | exist
  deriving DecidableEq

/-- What a pointer variable holds. -/
inductive PointerValue
  | unassigned
  | null
  | allocated
  deriving DecidableEq

/-- The local variables that matter at the exit. -/
structure MultiLocals where
  hret : Option ℕ
  ret : Option Int
  outRet : Option Int
  pointers : FreedVar → PointerValue

namespace MultiLocals

/-- The variables at the start: `nulls` are declared with a null pointer. -/
def start (nulls : List FreedVar) : MultiLocals where
  hret := none
  ret := none
  outRet := none
  pointers p := if p ∈ nulls then .null else .unassigned

/-- A pointer is assigned. -/
def assign (l : MultiLocals) (p : FreedVar) : MultiLocals :=
  { l with pointers := Function.update l.pointers p .allocated }

/-- A transport call and the test of its answer; `error` is `goto finish`. -/
def transport (l : MultiLocals) (code : ℕ) : Except MultiLocals MultiLocals :=
  if code ≠ hgSuccess then
    .error { l with hret := some code, outRet := some (makeHgError code) }
  else .ok { l with hret := some code }

/-- A transport call that creates a handle. -/
def creates (l : MultiLocals) (code : ℕ) (p : FreedVar) : Except MultiLocals MultiLocals :=
  (l.transport code).map fun l => l.assign p

/-- Pointers are assigned one after the other. -/
def assignAll (l : MultiLocals) (ps : List FreedVar) : MultiLocals := ps.foldl assign l

/-- The second `margo_bulk_create`, if there is one. -/
def createsSecond (l : MultiLocals) (calls : MultiCalls) (second : Bool) :
    Except MultiLocals MultiLocals :=
  if second then l.creates calls.resultBulk .resultBulkHandle else .ok l

/-- The transport calls after the first one; `second` says whether there is a second bulk
handle. -/
def laterCalls (l : MultiLocals) (calls : MultiCalls) (second : Bool) :
    Except MultiLocals MultiLocals := do
  let l ← l.createsSecond calls second
  let l ← l.creates calls.create .handle
  let l ← l.transport calls.forward
  l.transport calls.getOutput

/-- The statements up to the exit. The pointers `late` are assigned behind the first transport
call. The last one stores the answer of the handler in `out`, and then `ret` is assigned. -/
def multiBody (l : MultiLocals) (calls : MultiCalls) (answer : Int) (late : List FreedVar)
    (second : Bool) : Except MultiLocals MultiLocals := do
  let l ← l.creates calls.keysBulk .keysBulkHandle
  let l ← (l.assignAll late).laterCalls calls second
  .ok { l with outRet := some answer, ret := some answer }

end MultiLocals

/-- What an exit does: it frees the values of some variables and returns `ret`. The last
`hret` is kept. -/
structure MultiExit where
  hret : Option ℕ
  ret : Option Int
  freed : List PointerValue

/-- The label `finish`. -/
def finish (freed : List FreedVar) : Except MultiLocals MultiLocals → MultiExit
  | .ok l => { hret := l.hret, ret := l.ret, freed := freed.map l.pointers }
  | .error l => { hret := l.hret, ret := l.ret, freed := freed.map l.pointers }

section Functions

variable (calls : MultiCalls) (answer : Int)

/-- The batched functions: `nulls` are declared with null pointers, `early` are assigned before
the first transport call and `late` behind it, and `freed` are freed at the exit. -/
def multiExit (num : ℕ) (nulls early late freed : List FreedVar) (second : Bool) :
    Option MultiExit := do
  let l := (MultiLocals.start nulls).assignAll early
  let _ ← Loop.signedIndices 32 (num + 1)
  return finish freed (l.multiBody calls answer late second)

/-- The loop that refuses keys of size zero; `none` when its counter overflows before it finds
one. -/
def hasEmptyKey (ksizes : List ℕ) : Option Bool :=
  if 0 ∈ ksizes.take (2 ^ 31) then some true
  else (Loop.signedIndices 32 ksizes.length).map fun _ => false

/-- `sdskv_put_multi`. -/
def putMultiExit (ksizes : List ℕ) : Option MultiExit :=
  match hasEmptyKey ksizes with
  | none => none
  | some true => some { hret := none, ret := some SdskvReturn.errInvalidArg.code, freed := [] }
  | some false =>
      multiExit calls answer ksizes.length
        [.handle, .keysBulkHandle, .resultBulkHandle, .keySegPtrs, .keySegSizes, .valSegPtrs,
          .valSegSizes]
        [.keySegSizes, .keySegPtrs, .valSegSizes, .valSegPtrs] []
        [.keysBulkHandle, .resultBulkHandle, .keySegSizes, .keySegPtrs, .valSegSizes,
          .valSegPtrs, .handle] true

/-- `sdskv_length_multi`. -/
def lengthMultiExit (num : ℕ) : Option MultiExit :=
  multiExit calls answer num
    [.handle, .keysBulkHandle, .resultBulkHandle, .keySegPtrs, .keySegSizes]
    [.keySegSizes, .keySegPtrs] []
    [.keysBulkHandle, .resultBulkHandle, .keySegSizes, .keySegPtrs, .handle] true

/-- `sdskv_get_multi`; without an array of values it is `sdskv_length_multi`. -/
def getMultiExit (num : ℕ) (valuesNull : Bool) : Option MultiExit :=
  if valuesNull then lengthMultiExit calls answer num
  else
    multiExit calls answer num
      [.handle, .keysBulkHandle, .resultBulkHandle, .keySegPtrs, .keySegSizes, .valsBuffer]
      [.keySegSizes, .keySegPtrs] [.valsBuffer]
      [.keysBulkHandle, .resultBulkHandle, .keySegSizes, .keySegPtrs, .valsBuffer, .handle] true

/-- `sdskv_exists_multi`: `exist` is declared behind the first jump. -/
def existsMultiExit (num : ℕ) : Option MultiExit :=
  multiExit calls answer num
    [.handle, .keysBulkHandle, .resultBulkHandle, .keySegPtrs, .keySegSizes]
    [.keySegSizes, .keySegPtrs] [.exist]
    [.keysBulkHandle, .resultBulkHandle, .keySegSizes, .keySegPtrs, .exist, .handle] true

/-- `sdskv_erase_multi`. -/
def eraseMultiExit (num : ℕ) : Option MultiExit :=
  multiExit calls answer num [.handle, .keysBulkHandle, .keySegPtrs, .keySegSizes]
    [.keySegSizes, .keySegPtrs] []
    [.keysBulkHandle, .keySegSizes, .keySegPtrs, .handle] false

end Functions

/-- A call of a batched function. -/
inductive MultiFunction
  | putMulti (ksizes : List ℕ)
  | getMulti (num : ℕ) (valuesNull : Bool)
  | existsMulti (num : ℕ)
  | lengthMulti (num : ℕ)
  | eraseMulti (num : ℕ)

namespace MultiFunction

/-- How the call returns. -/
def exit (calls : MultiCalls) (answer : Int) : MultiFunction → Option MultiExit
  | putMulti ksizes => putMultiExit calls answer ksizes
  | getMulti num valuesNull => getMultiExit calls answer num valuesNull
  | existsMulti num => existsMultiExit calls answer num
  | lengthMulti num => lengthMultiExit calls answer num
  | eraseMulti num => eraseMultiExit calls answer num

/-- The number of keys. -/
def num : MultiFunction → ℕ
  | putMulti ksizes => ksizes.length
  | getMulti num _ => num
  | existsMulti num => num
  | lengthMulti num => num
  | eraseMulti num => num

/-- The call is refused because of a key of size zero that the counter reaches. -/
def Refused : MultiFunction → Prop
  | putMulti ksizes => 0 ∈ ksizes.take (2 ^ 31)
  | _ => False

/-- All functions but `sdskv_erase_multi` expose memory for values, sizes or flags. -/
def exposesResults : MultiFunction → Bool
  | eraseMulti _ => false
  | _ => true

end MultiFunction

/-- What a caller sees: whether the request was forwarded, and the returned value; `none` when
the behaviour is undefined or the value was never assigned. -/
def MultiExit.seen (e : MultiExit) : Option (Bool × Int) :=
  e.ret.map fun ret => (e.hret.isSome, ret)

/-- What the caller of a batched function sees. -/
def MultiFunction.returned (calls : MultiCalls) (answer : Int) (f : MultiFunction) :
    Option (Bool × Int) :=
  (f.exit calls answer).bind MultiExit.seen

/-- No transport call fails. -/
def MultiCalls.Succeed (calls : MultiCalls) (second : Bool) : Prop :=
  calls.keysBulk = hgSuccess ∧ (second = true → calls.resultBulk = hgSuccess) ∧
    calls.create = hgSuccess ∧ calls.forward = hgSuccess ∧ calls.getOutput = hgSuccess

/-- The exit reports the transport call that failed, and neither the returned value nor a freed
pointer is a variable that was never assigned. -/
structure MultiExit.Reports (e : MultiExit) : Prop where
  failure : ∀ hret, e.hret = some hret → hret ≠ hgSuccess → e.ret = some (makeHgError hret)
  ret : e.ret ≠ none
  freed : PointerValue.unassigned ∉ e.freed

namespace MultiLocals

variable {l l' : MultiLocals}

/-- The variables after transport calls that have succeeded: `ret` is as before, and what was
assigned is still assigned. -/
structure Extends (l l' : MultiLocals) : Prop where
  ret : l'.ret = l.ret
  hret : l'.hret = some hgSuccess
  pointers : ∀ p, l.pointers p ≠ .unassigned → l'.pointers p ≠ .unassigned

/-- Calls that succeed exactly when `ok` holds; when one fails they jump to the exit with `ret`
as before. -/
structure Leads (l : MultiLocals) (ok : Prop) (b : Except MultiLocals MultiLocals) : Prop where
  success : ok → ∃ l', b = .ok l' ∧ Extends l l'
  failure : ¬ ok → ∃ l', b = .error l' ∧ l'.ret = l.ret

theorem Extends.trans {l'' : MultiLocals} (h : Extends l l') (h' : Extends l' l'') :
    Extends l l'' where
  ret := h'.ret.trans h.ret
  hret := h'.hret
  pointers p hp := h'.pointers p (h.pointers p hp)

/-- Calls one after the other. -/
theorem Leads.bind {ok ok' : Prop} {b : Except MultiLocals MultiLocals}
    {f : MultiLocals → Except MultiLocals MultiLocals} (hb : Leads l ok b)
    (hf : ∀ l', Extends l l' → Leads l' ok' (f l')) : Leads l (ok ∧ ok') (b >>= f) where
  success h := by
    obtain ⟨l', rfl, hl'⟩ := hb.success h.1
    obtain ⟨l'', heq, hl''⟩ := (hf l' hl').success h.2
    exact ⟨l'', heq, hl'.trans hl''⟩
  failure h := by
    by_cases hok : ok
    · obtain ⟨l', rfl, hl'⟩ := hb.success hok
      obtain ⟨l'', heq, hret⟩ := (hf l' hl').failure fun hok' => h ⟨hok, hok'⟩
      exact ⟨l'', heq, hret.trans hl'.ret⟩
    · obtain ⟨l', rfl, hret⟩ := hb.failure hok
      exact ⟨l', rfl, hret⟩

theorem leads_transport (l : MultiLocals) (code : ℕ) :
    Leads l (code = hgSuccess) (l.transport code) where
  success h := ⟨_, if_neg (not_not.2 h), rfl, congrArg some h, fun _ hp => hp⟩
  failure h := ⟨_, if_pos h, rfl⟩

theorem assign_pointers_ne {p q : FreedVar} (h : q = p ∨ l.pointers q ≠ .unassigned) :
    (l.assign p).pointers q ≠ .unassigned := by
  simp only [assign]
  by_cases hq : q = p
  · subst hq
    simp
  · rw [Function.update_of_ne hq]
    exact h.resolve_left hq

theorem leads_creates (l : MultiLocals) (code : ℕ) (p : FreedVar) :
    Leads l (code = hgSuccess) (l.creates code p) where
  success h := by
    obtain ⟨l', heq, hl'⟩ := (leads_transport l code).success h
    refine ⟨l'.assign p, by rw [creates, heq]; rfl, hl'.ret, hl'.hret, ?_⟩
    exact fun q hq => assign_pointers_ne (Or.inr (hl'.pointers q hq))
  failure h := by
    obtain ⟨l', heq, hret⟩ := (leads_transport l code).failure h
    exact ⟨l', by rw [creates, heq]; rfl, hret⟩

theorem assignAll_pointers_ne {ps : List FreedVar} {q : FreedVar}
    (h : q ∈ ps ∨ l.pointers q ≠ .unassigned) :
    (l.assignAll ps).pointers q ≠ .unassigned := by
  induction ps generalizing l with
  | nil => exact h.resolve_left List.not_mem_nil
  | cons p ps ih =>
      apply ih
      rcases h with hmem | hne
      · rcases List.mem_cons.1 hmem with rfl | hmem
        · exact Or.inr (assign_pointers_ne (Or.inl rfl))
        · exact Or.inl hmem
      · exact Or.inr (assign_pointers_ne (Or.inr hne))

theorem assignAll_ret (l : MultiLocals) (ps : List FreedVar) : (l.assignAll ps).ret = l.ret := by
  induction ps generalizing l with
  | nil => rfl
  | cons p ps ih => exact ih (l.assign p)

theorem assignAll_hret (l : MultiLocals) (ps : List FreedVar) :
    (l.assignAll ps).hret = l.hret := by
  induction ps generalizing l with
  | nil => rfl
  | cons p ps ih => exact ih (l.assign p)

theorem leads_laterCalls (calls : MultiCalls) (second : Bool) (hl : l.hret = some hgSuccess) :
    Leads l ((second = true → calls.resultBulk = hgSuccess) ∧ calls.create = hgSuccess ∧
      calls.forward = hgSuccess ∧ calls.getOutput = hgSuccess) (l.laterCalls calls second) := by
  unfold laterCalls
  apply Leads.bind
  · cases second with
    | true => simpa [createsSecond] using leads_creates l calls.resultBulk .resultBulkHandle
    | false => exact ⟨fun _ => ⟨l, rfl, rfl, hl, fun _ hp => hp⟩, fun h => absurd (by simp) h⟩
  · intro l₁ _
    apply (leads_creates l₁ calls.create .handle).bind
    intro l₂ _
    apply (leads_transport l₂ calls.forward).bind
    intro l₃ _
    exact leads_transport l₃ calls.getOutput

section Body

variable {calls : MultiCalls} {second : Bool} (answer : Int) (late : List FreedVar)

theorem multiBody_of_first {l₁ : MultiLocals}
    (h : l.creates calls.keysBulk .keysBulkHandle = .ok l₁) :
    l.multiBody calls answer late second =
      ((l₁.assignAll late).laterCalls calls second).map fun l =>
        { l with outRet := some answer, ret := some answer } := by
  rw [multiBody, h]
  rfl

/-- When no call fails, `ret` is the answer and the late pointers are assigned as well. -/
theorem multiBody_of_succeed (h : calls.Succeed second) :
    ∃ l', l.multiBody calls answer late second = .ok l' ∧ l'.ret = some answer ∧
      l'.hret = some hgSuccess ∧
      ∀ p, p ∈ late ∨ l.pointers p ≠ .unassigned → l'.pointers p ≠ .unassigned := by
  obtain ⟨l₁, hfirst, hl₁⟩ := (leads_creates l calls.keysBulk .keysBulkHandle).success h.1
  obtain ⟨l₂, hlater, hl₂⟩ := (leads_laterCalls calls second
    ((assignAll_hret l₁ late).trans hl₁.hret)).success h.2
  refine ⟨{ l₂ with outRet := some answer, ret := some answer },
    by rw [multiBody_of_first answer late hfirst, hlater]; rfl, rfl, hl₂.hret, ?_⟩
  intro p hp
  exact hl₂.pointers p (assignAll_pointers_ne (hp.imp_right (hl₁.pointers p)))

/-- When a call fails, `ret` is left as it was. -/
theorem multiBody_of_failure (h : ¬ calls.Succeed second) :
    ∃ l', l.multiBody calls answer late second = .error l' ∧ l'.ret = l.ret := by
  by_cases hkeys : calls.keysBulk = hgSuccess
  · obtain ⟨l₁, hfirst, hl₁⟩ := (leads_creates l calls.keysBulk .keysBulkHandle).success hkeys
    obtain ⟨l₂, hlater, hret⟩ := (leads_laterCalls calls second
      ((assignAll_hret l₁ late).trans hl₁.hret)).failure fun hrest => h ⟨hkeys, hrest⟩
    refine ⟨l₂, by rw [multiBody_of_first answer late hfirst, hlater]; rfl, ?_⟩
    rw [hret, assignAll_ret, hl₁.ret]
  · obtain ⟨l₁, hfirst, hret⟩ := (leads_creates l calls.keysBulk .keysBulkHandle).failure hkeys
    exact ⟨l₁, by rw [multiBody, hfirst]; rfl, hret⟩

end Body

end MultiLocals

section Reports

variable {calls : MultiCalls} {answer : Int} {num : ℕ} {nulls early late freed : List FreedVar}
  {second : Bool}

theorem start_pointers_ne {p : FreedVar} (h : p ∈ nulls) :
    (MultiLocals.start nulls).pointers p ≠ .unassigned := by
  simp [MultiLocals.start, h]

/-- A batched function with an exit that frees what has been assigned reports as it should
exactly when its counter can hold the number of segments and no transport call fails. -/
theorem multiExit_reports_iff (hfreed : ∀ p ∈ freed, p ∈ nulls ∨ p ∈ early ∨ p ∈ late) :
    (∃ e, multiExit calls answer num nulls early late freed second = some e ∧ e.Reports) ↔
      num + 1 < 2 ^ 31 ∧ calls.Succeed second := by
  constructor
  · rintro ⟨e, hexit, hreports⟩
    obtain ⟨is, his, hfinish⟩ := Option.bind_eq_some_iff.1 hexit
    refine ⟨(Loop.signedIndices_eq_some_iff.1 his).1, ?_⟩
    by_contra hfail
    obtain ⟨l', hbody, hret⟩ := MultiLocals.multiBody_of_failure answer late hfail
    rw [hbody] at hfinish
    cases hfinish
    apply hreports.ret
    simp only [finish, hret, MultiLocals.assignAll_ret]
    rfl
  · rintro ⟨hlt, hsucceed⟩
    have hindices : Loop.signedIndices 32 (num + 1) = some (List.range (num + 1)) :=
      Loop.signedIndices_eq_some_iff.2 ⟨hlt, rfl⟩
    obtain ⟨l', hbody, hret, hhret, hpointers⟩ :=
      MultiLocals.multiBody_of_succeed answer late hsucceed
    refine ⟨_, by rw [multiExit, hindices, Option.bind_eq_bind, Option.bind_some, hbody]; rfl, ?_⟩
    constructor
    · intro code hcode hne
      exact absurd (Option.some.inj (hcode.symm.trans hhret)) hne
    · simp [finish, hret]
    · intro hmem
      obtain ⟨p, hp, hnone⟩ := List.mem_map.1 hmem
      refine hpointers p ?_ hnone
      rcases hfreed p hp with hnull | hearly | hlate
      · exact Or.inr (MultiLocals.assignAll_pointers_ne (Or.inr (start_pointers_ne hnull)))
      · exact Or.inr (MultiLocals.assignAll_pointers_ne (Or.inl hearly))
      · exact Or.inl hlate

theorem putMultiExit_reports_iff {ksizes : List ℕ} :
    (∃ e, putMultiExit calls answer ksizes = some e ∧ e.Reports) ↔
      0 ∈ ksizes.take (2 ^ 31) ∨ ksizes.length + 1 < 2 ^ 31 ∧ calls.Succeed true := by
  unfold putMultiExit
  by_cases hzero : 0 ∈ ksizes.take (2 ^ 31)
  · have hrefused : hasEmptyKey ksizes = some true := if_pos hzero
    rw [hrefused]
    refine ⟨fun _ => Or.inl hzero, fun _ => ⟨_, rfl, ?_, ?_, ?_⟩⟩
    · simp
    · simp
    · simp
  · have hcheck : hasEmptyKey ksizes =
        (Loop.signedIndices 32 ksizes.length).map fun _ => false := if_neg hzero
    rw [hcheck, or_iff_right hzero]
    cases hindices : Loop.signedIndices 32 ksizes.length with
    | none =>
        have hlarge : ¬ ksizes.length < 2 ^ 31 := Loop.signedIndices_eq_none_iff.1 hindices
        constructor
        · rintro ⟨e, he, -⟩
          cases he
        · rintro ⟨hlt, -⟩
          omega
    | some is => exact multiExit_reports_iff (by decide)

end Reports

/-- The batched functions of the client report a failed transport call, and neither return nor
free a variable that was never assigned, exactly when the call is refused before a transport
call is made, or the counter can hold the number of segments and no transport call fails. -/
theorem multiFunction_reports_iff (f : MultiFunction) (calls : MultiCalls) (answer : Int) :
    (∃ e, f.exit calls answer = some e ∧ e.Reports) ↔
      f.Refused ∨ f.num + 1 < 2 ^ 31 ∧ calls.Succeed f.exposesResults := by
  cases f with
  | putMulti ksizes => exact putMultiExit_reports_iff
  | getMulti num valuesNull =>
      rw [MultiFunction.exit, getMultiExit]
      cases valuesNull with
      | true =>
          simp only [if_true, MultiFunction.Refused, false_or]
          exact multiExit_reports_iff (by decide)
      | false =>
          simp only [Bool.false_eq_true, if_false, MultiFunction.Refused, false_or]
          exact multiExit_reports_iff (by decide)
  | existsMulti num =>
      simp only [MultiFunction.Refused, false_or]
      exact multiExit_reports_iff (by decide)
  | lengthMulti num =>
      simp only [MultiFunction.Refused, false_or]
      exact multiExit_reports_iff (by decide)
  | eraseMulti num =>
      simp only [MultiFunction.Refused, false_or]
      exact multiExit_reports_iff (by decide)

section Returned

variable {calls : MultiCalls} {answer : Int} {num : ℕ} {nulls early late freed : List FreedVar}
  {second : Bool} {x : Bool × Int}

/-- `ret` is assigned behind the last transport call only. -/
theorem multiExit_seen_iff :
    (multiExit calls answer num nulls early late freed second).bind MultiExit.seen = some x ↔
      num + 1 < 2 ^ 31 ∧ calls.Succeed second ∧ x = (true, answer) := by
  rw [multiExit]
  cases hindices : Loop.signedIndices 32 (num + 1) with
  | none =>
      have hlarge : ¬ num + 1 < 2 ^ 31 := Loop.signedIndices_eq_none_iff.1 hindices
      exact iff_of_false (by simp) fun h => hlarge h.1
  | some is =>
      have hlt := (Loop.signedIndices_eq_some_iff.1 hindices).1
      rw [and_iff_right hlt, Option.bind_eq_bind, Option.bind_some, Option.pure_def,
        Option.bind_some, MultiExit.seen]
      by_cases hsucceed : calls.Succeed second
      · obtain ⟨l', hbody, hret, hhret, -⟩ := MultiLocals.multiBody_of_succeed
          (l := (MultiLocals.start nulls).assignAll early) answer late hsucceed
        rw [hbody, finish, hret, hhret, and_iff_right hsucceed, Option.map_some,
          Option.some.injEq, eq_comm]
        rfl
      · obtain ⟨l', hbody, hret⟩ := MultiLocals.multiBody_of_failure
          (l := (MultiLocals.start nulls).assignAll early) answer late hsucceed
        have hnone : (MultiLocals.start nulls).ret = none := rfl
        rw [hbody, finish, hret, MultiLocals.assignAll_ret, hnone]
        exact iff_of_false (by simp) fun h => hsucceed h.1

theorem putMultiExit_seen_iff {ksizes : List ℕ} :
    (putMultiExit calls answer ksizes).bind MultiExit.seen = some x ↔
      0 ∈ ksizes.take (2 ^ 31) ∧ x = (false, SdskvReturn.errInvalidArg.code) ∨
        0 ∉ ksizes.take (2 ^ 31) ∧ ksizes.length + 1 < 2 ^ 31 ∧ calls.Succeed true ∧
          x = (true, answer) := by
  unfold putMultiExit
  by_cases hzero : 0 ∈ ksizes.take (2 ^ 31)
  · have hrefused : hasEmptyKey ksizes = some true := if_pos hzero
    rw [hrefused, and_iff_right hzero, or_iff_left fun h => h.1 hzero]
    exact Option.some_inj.trans eq_comm
  · have hcheck : hasEmptyKey ksizes =
        (Loop.signedIndices 32 ksizes.length).map fun _ => false := if_neg hzero
    simp only [hcheck, hzero, false_and, not_false_eq_true, true_and, false_or]
    cases hindices : Loop.signedIndices 32 ksizes.length with
    | none =>
        have hlarge : ¬ ksizes.length < 2 ^ 31 := Loop.signedIndices_eq_none_iff.1 hindices
        exact iff_of_false (by simp) fun h => hlarge (by omega)
    | some is => exact multiExit_seen_iff

/-- A batched function either refuses a key of size zero before it makes a call, or returns the
answer of the handler when its counter can hold the number of segments and no transport call
fails. -/
theorem returned_eq_some_iff (f : MultiFunction) :
    f.returned calls answer = some x ↔
      f.Refused ∧ x = (false, SdskvReturn.errInvalidArg.code) ∨
        ¬ f.Refused ∧ f.num + 1 < 2 ^ 31 ∧ calls.Succeed f.exposesResults ∧ x = (true, answer) := by
  cases f with
  | putMulti ksizes => exact putMultiExit_seen_iff
  | getMulti num valuesNull =>
      rw [MultiFunction.returned, MultiFunction.exit, getMultiExit]
      cases valuesNull with
      | true =>
          simp only [if_true, MultiFunction.Refused, false_and, not_false_eq_true, true_and,
            false_or]
          exact multiExit_seen_iff
      | false =>
          simp only [Bool.false_eq_true, if_false, MultiFunction.Refused, false_and,
            not_false_eq_true, true_and, false_or]
          exact multiExit_seen_iff
  | existsMulti num =>
      simp only [MultiFunction.Refused, false_and, not_false_eq_true, true_and, false_or]
      exact multiExit_seen_iff
  | lengthMulti num =>
      simp only [MultiFunction.Refused, false_and, not_false_eq_true, true_and, false_or]
      exact multiExit_seen_iff
  | eraseMulti num =>
      simp only [MultiFunction.Refused, false_and, not_false_eq_true, true_and, false_or]
      exact multiExit_seen_iff

end Returned

/-- Only the first transport call fails, because there is no memory. -/
def noMemoryForKeys : MultiCalls :=
  { keysBulk := 5, resultBulk := 0, create := 0, forward := 0, getOutput := 0 }

/-- The value that is returned was never assigned, and `sdskv_exists_multi` frees a pointer that
was never assigned. -/
theorem not_reports_noMemoryForKeys :
    (MultiFunction.eraseMulti 1).exit noMemoryForKeys 0 =
        some { hret := some 5, ret := none, freed := [.null, .allocated, .allocated, .null] } ∧
      (MultiFunction.existsMulti 1).exit noMemoryForKeys 0 =
        some { hret := some 5, ret := none,
               freed := [.null, .null, .allocated, .allocated, .unassigned, .null] } ∧
      ¬ ∃ e, (MultiFunction.eraseMulti 1).exit noMemoryForKeys 0 = some e ∧ e.Reports := by
  have herase : (MultiFunction.eraseMulti 1).exit noMemoryForKeys 0 =
      some { hret := some 5, ret := none, freed := [.null, .allocated, .allocated, .null] } :=
    rfl
  refine ⟨herase, rfl, ?_⟩
  rintro ⟨e, hexit, hreports⟩
  cases herase.symm.trans hexit
  exact hreports.ret rfl

section PutPacked

/-- The answers of the transport calls of `sdskv_put_packed` and of
`sdskv_proxy_put_packed`. -/
structure PackedCalls where
  bulkCreate : ℕ
  create : ℕ
  forward : ℕ
  getOutput : ℕ

/-- What happens to the bulk handle of a packed put. -/
inductive BulkEvent
  | created
  | freed
  deriving DecidableEq

/-- How a packed put returns, and what it has done with the bulk handle. -/
structure PackedExit where
  ret : Int
  log : List BulkEvent
  deriving DecidableEq

variable (calls : PackedCalls) (answer : Int)

/-- `sdskv_proxy_put_packed`; its failure exits free the handle of the caller. -/
def proxyPutPackedExit : PackedExit :=
  if calls.create ≠ hgSuccess then { ret := makeHgError calls.create, log := [.freed] }
  else if calls.forward ≠ hgSuccess then { ret := makeHgError calls.forward, log := [.freed] }
  else if calls.getOutput ≠ hgSuccess then
    { ret := makeHgError calls.getOutput, log := [.freed] }
  else { ret := answer, log := [] }

/-- `sdskv_put_packed`; `none` when its loop does not end. -/
def putPackedExit (num : ℕ) : Option PackedExit :=
  (Loop.indices 32 num).map fun _ =>
    if calls.bulkCreate ≠ hgSuccess then { ret := makeHgError calls.bulkCreate, log := [] }
    else
      let e := proxyPutPackedExit calls answer
      { ret := e.ret, log := .created :: e.log ++ [.freed] }

/-- `sdskv_put_packed` returns, and the handle that it has created was released once, and
`sdskv_proxy_put_packed` does not release the handle of its caller. -/
def ReleasedOnce (num : ℕ) : Prop :=
  (∃ e, putPackedExit calls answer num = some e ∧
    e.log.count .freed = e.log.count .created) ∧
  BulkEvent.freed ∉ (proxyPutPackedExit calls answer).log

/-- The proxy frees the handle once when one of its calls fails. -/
theorem proxyPutPackedExit_log :
    (proxyPutPackedExit calls answer).log =
      if calls.create = hgSuccess ∧ calls.forward = hgSuccess ∧ calls.getOutput = hgSuccess
      then [] else [.freed] := by
  unfold proxyPutPackedExit
  by_cases hcreate : calls.create = hgSuccess
  · by_cases hforward : calls.forward = hgSuccess
    · by_cases houtput : calls.getOutput = hgSuccess
      · simp [hcreate, hforward, houtput]
      · simp [hcreate, hforward, houtput]
    · simp [hcreate, hforward]
  · simp [hcreate]

/-- The handle of a packed put is released exactly once, by `sdskv_put_packed`, exactly when the
counter of its loop can hold the number of pairs and no transport call of the proxy fails. -/
theorem putPacked_releasedOnce_iff (num : ℕ) :
    ReleasedOnce calls answer num ↔
      num < 2 ^ 32 ∧
        calls.create = hgSuccess ∧ calls.forward = hgSuccess ∧ calls.getOutput = hgSuccess := by
  have hlog := proxyPutPackedExit_log calls answer
  constructor
  · rintro ⟨⟨e, hput, -⟩, hproxy⟩
    obtain ⟨is, his, -⟩ := Option.map_eq_some_iff.1 hput
    have hnum : num < 2 ^ 32 := by
      by_contra hlarge
      rw [Loop.indices, if_neg hlarge] at his
      cases his
    refine ⟨hnum, ?_⟩
    by_contra hfail
    rw [hlog, if_neg hfail] at hproxy
    exact hproxy (List.mem_singleton.2 rfl)
  · rintro ⟨hnum, hok⟩
    rw [if_pos hok] at hlog
    have hindices : Loop.indices 32 num = some (List.range num) := if_pos hnum
    refine ⟨⟨_, by rw [putPackedExit, hindices]; rfl, ?_⟩, by rw [hlog]; exact List.not_mem_nil⟩
    split_ifs with hbulk
    · rfl
    · simp only [hlog]
      rfl

/-- `margo_create` fails in the proxy, and the handle is released twice. -/
theorem not_releasedOnce_noMemory :
    putPackedExit { bulkCreate := 0, create := 5, forward := 0, getOutput := 0 } 0 1 =
        some { ret := makeHgError 5, log := [.created, .freed, .freed] } ∧
      ¬ ReleasedOnce { bulkCreate := 0, create := 5, forward := 0, getOutput := 0 } 0 1 := by
  have hput : putPackedExit { bulkCreate := 0, create := 5, forward := 0, getOutput := 0 } 0 1 =
      some { ret := makeHgError 5, log := [.created, .freed, .freed] } := rfl
  refine ⟨hput, fun h => ?_⟩
  obtain ⟨e, he, hcount⟩ := h.1
  cases hput.symm.trans he
  revert hcount
  decide

end PutPacked

end Sdskv
