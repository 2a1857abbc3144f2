import Sdskv.Ownership.Scope

/-!
# What the client functions create and free

A function of the client creates the handle of its RPC, bulk handles and arrays, and obtains the
output of the RPC. When a call fails it frees what it has created and returns. Most functions
repeat the calls that free at every return; those of the batches, of the listings and of the
migrations jump to a label `finish`, where everything is freed. To free a `HG_BULK_NULL`, a
`HG_HANDLE_NULL` or a `NULL` does nothing; but `margo_free_output` is called there whether or not
there is an output, and a variable without a value is freed too.

Every call may fail and every test may go either way. `sdskv_list_keys` and `sdskv_list_keyvals`
only call the functions with a prefix.
-/

namespace Sdskv

open Scope

/-- The bulk handles, by the field or variable that holds them. -/
inductive ClientBulk
  | handle
  | bulkHandle
  | keysBulkHandle
  | valsBulkHandle
  | flagsBulkHandle
  | valsSizeBulkHandle
  | inBulkHandle
  | outBulkHandle
  | ksizesBulkHandle
  | vsizesBulkHandle
  | keysBulk
  deriving DecidableEq

/-- The arrays that a function allocates. -/
inductive ClientArray
  | keySegSizes
  | keySegPtrs
  | valSegSizes
  | valSegPtrs
  | valsBuffer
  | exist
  | segSizes
  | segs
  deriving DecidableEq

inductive ClientResource
  | handle
  | output
  | bulk (b : ClientBulk)
  | array (a : ClientArray)
  deriving DecidableEq

/-- What the provider reads and writes while the RPC is forwarded. -/
def ClientResource.isForwarded : ClientResource → Bool
  | .handle | .bulk _ | .array .valsBuffer | .array .exist => true
  | .output | .array _ => false

/-- A client function, or a part of one. -/
abbrev ClientCode := Stmt (Event ClientResource)

/-- What a function does before it frees everything. -/
inductive ClientStep
  | alloc (a : ClientArray)
  | call (uses gains : List ClientResource)
  | callIf (gains : List ClientResource)
  | forward
  | access (uses : List ClientResource)
  | loop (uses : List ClientResource)

namespace ClientCode

/-- What is freed when `held` was created, in this order; `unassigned` is freed in any case. -/
def finish (frees unassigned held : List ClientResource) : List (Event ClientResource) :=
  (frees.filter fun r => r ∈ held ∨ r ∈ unassigned).map .release

/-- The steps of a function. When a call fails, what was created so far is freed. -/
def body (frees unassigned : List ClientResource) :
    List ClientResource → List ClientStep → ClientCode
  | held, [] => .act (finish frees unassigned held)
  | held, .alloc a :: steps =>
      .seq (.act [.acquire (.array a)]) (body frees unassigned (.array a :: held) steps)
  | held, .call uses gains :: steps =>
      .seq (.call uses gains (finish frees unassigned held))
        (body frees unassigned (gains ++ held) steps)
  | held, .callIf gains :: steps =>
      .choice (body frees unassigned held steps)
        (.seq (.call [] gains (finish frees unassigned held))
          (body frees unassigned (gains ++ held) steps))
  | held, .forward :: steps =>
      .seq (.call (held.filter ClientResource.isForwarded) [] (finish frees unassigned held))
        (body frees unassigned held steps)
  | held, .access uses :: steps =>
      .seq (.act (uses.map .use)) (body frees unassigned held steps)
  | held, .loop uses :: steps =>
      .seq (.loop (.act (uses.map .use))) (body frees unassigned held steps)

/-- `margo_create`, `margo_provider_forward` and `margo_get_output`. -/
def rpc : List ClientStep :=
  [.call [] [.handle], .forward, .call [.handle] [.output], .access [.output]]

/-- An RPC without bulk handles. -/
def plain : ClientCode := body [.output, .handle] [] [] rpc

/-- An RPC with one bulk handle. -/
def withBulk : ClientCode :=
  body [.output, .bulk .handle, .handle] [] [] (.call [] [.bulk .handle] :: rpc)

/-- An RPC with two bulk handles, each freed at every return. -/
def withBulks (b b' : ClientBulk) : ClientCode :=
  body [.bulk b, .bulk b', .output, .handle] [] []
    (.call [] [.bulk b] :: .call [] [.bulk b'] :: rpc)

/-- A function that calls another one and returns what it answers. -/
def orElse (callee code : ClientCode) : ClientCode :=
  .choice (.seq (.invoke callee) .ret) code

/-- An early return. -/
def earlyReturn (code : ClientCode) : ClientCode := .choice .ret code

/-- `margo_bulk_create` for the segments of the keys. -/
def keySegments : List ClientStep :=
  [.call [.array .keySegSizes, .array .keySegPtrs] [.bulk .keysBulkHandle]]

end ClientCode

open ClientCode

inductive ClientFunction
  | open
  | countDatabases
  | listDatabases
  | put
  | putMulti
  | putPacked
  | proxyPutPacked
  | get
  | getMulti
  | exists
  | existsMulti
  | length
  | lengthMulti
  | lengthPacked
  | getPacked
  | erase
  | eraseMulti
  | listKeysWithPrefix
  | listKeyvalsWithPrefix
  | migrateKeys
  | migrateKeyRange
  | migrateKeysPrefixed
  | migrateAllKeys
  | migrateDatabase

namespace ClientFunction

/-- `sdskv_length_multi`. -/
def lengthMultiCode : ClientCode :=
  body [.output, .bulk .keysBulkHandle, .bulk .valsSizeBulkHandle, .array .keySegSizes,
    .array .keySegPtrs, .handle] [.output] []
    (.alloc .keySegSizes :: .alloc .keySegPtrs :: keySegments ++
      .call [] [.bulk .valsSizeBulkHandle] :: rpc)

/-- `sdskv_proxy_put_packed` frees the bulk handle of its caller when a call fails. -/
def proxyPutPackedCode : ClientCode :=
  .block [.call [] [.handle] [.release (.bulk .bulkHandle)],
    .call [.handle, .bulk .bulkHandle] [] [.release (.bulk .bulkHandle), .release .handle],
    .call [.handle] [.output] [.release (.bulk .bulkHandle), .release .handle],
    .act [.use .output, .release .output, .release .handle]]

def code : ClientFunction → ClientCode
  | .open => plain
  | .countDatabases => plain
  | .listDatabases => body [.output, .handle] [] [] (rpc ++ [.loop [.output]])
  | .put => .choice plain withBulk
  | .putMulti =>
      earlyReturn (body [.output, .bulk .keysBulkHandle, .bulk .valsBulkHandle, .array .keySegSizes,
        .array .keySegPtrs, .array .valSegSizes, .array .valSegPtrs, .handle] [.output] []
        (.alloc .keySegSizes :: .alloc .keySegPtrs :: .alloc .valSegSizes :: .alloc .valSegPtrs ::
          keySegments ++
          .call [.array .valSegSizes, .array .valSegPtrs] [.bulk .valsBulkHandle] :: rpc))
  | .putPacked =>
      .block [.call [] [.bulk .bulkHandle] [], .invoke proxyPutPackedCode,
        .act [.release (.bulk .bulkHandle)]]
  | .proxyPutPacked => proxyPutPackedCode
  | .get =>
      orElse plain (.choice (body [.output, .handle] [] [] (rpc ++ [.loop [.output]])) withBulk)
  | .getMulti =>
      orElse lengthMultiCode (body [.output, .bulk .keysBulkHandle, .bulk .valsBulkHandle,
        .array .keySegSizes, .array .keySegPtrs, .array .valsBuffer, .handle] [.output] []
        (.alloc .keySegSizes :: .alloc .keySegPtrs :: keySegments ++
          .alloc .valsBuffer :: .call [.array .valsBuffer] [.bulk .valsBulkHandle] :: rpc ++
          [.loop [.array .valsBuffer]]))
  | .exists => plain
  | .existsMulti =>
      body [.output, .bulk .keysBulkHandle, .bulk .flagsBulkHandle, .array .keySegSizes,
        .array .keySegPtrs, .array .exist, .handle] [.output, .array .exist] []
        (.alloc .keySegSizes :: .alloc .keySegPtrs :: keySegments ++
          .alloc .exist :: .call [.array .exist] [.bulk .flagsBulkHandle] :: rpc ++
          [.loop [.array .exist]])
  | .length => plain
  | .lengthMulti => lengthMultiCode
  | .lengthPacked => withBulks .inBulkHandle .outBulkHandle
  | .getPacked => withBulks .keysBulkHandle .valsBulkHandle
  | .erase => plain
  | .eraseMulti =>
      body [.output, .bulk .keysBulkHandle, .array .keySegSizes, .array .keySegPtrs, .handle]
        [.output] [] (.alloc .keySegSizes :: .alloc .keySegPtrs :: keySegments ++ rpc)
  | .listKeysWithPrefix =>
      earlyReturn (body [.bulk .ksizesBulkHandle, .bulk .keysBulkHandle, .output, .handle]
        [.output] [] (.call [] [.bulk .ksizesBulkHandle] :: .callIf [.bulk .keysBulkHandle] ::
          rpc))
  | .listKeyvalsWithPrefix =>
      body [.bulk .ksizesBulkHandle, .bulk .keysBulkHandle, .bulk .vsizesBulkHandle,
        .bulk .valsBulkHandle, .output, .handle] [.output] []
        (.call [] [.bulk .ksizesBulkHandle] :: .call [] [.bulk .vsizesBulkHandle] ::
          .callIf [.bulk .keysBulkHandle] :: .callIf [.bulk .valsBulkHandle] :: rpc)
  | .migrateKeys =>
      body [.array .segSizes, .array .segs, .bulk .keysBulk, .output, .handle] [.output] []
        (.alloc .segSizes :: .alloc .segs ::
          .call [.array .segSizes, .array .segs] [.bulk .keysBulk] :: rpc)
  | .migrateKeyRange => body [.output, .handle] [.output] [] rpc
  | .migrateKeysPrefixed => body [.output, .handle] [.output] [] rpc
  | .migrateAllKeys => body [.output, .handle] [.output] [] rpc
  | .migrateDatabase => plain

/-- What the caller holds and the function is given. -/
def start : ClientFunction → List ClientResource
  | .proxyPutPacked => [.bulk .bulkHandle]
  | _ => []

/-- What a function frees without having it, or before its owner does. -/
def misused : ClientFunction → List ClientResource
  | .putPacked | .proxyPutPacked => [.bulk .bulkHandle]
  | .existsMulti => [.output, .array .exist]
  | .putMulti | .getMulti | .lengthMulti | .eraseMulti | .listKeysWithPrefix
  | .listKeyvalsWithPrefix | .migrateKeys | .migrateKeyRange | .migrateKeysPrefixed
  | .migrateAllKeys => [.output]
  | .open | .countDatabases | .listDatabases | .put | .get | .exists | .length | .lengthPacked
  | .getPacked | .erase | .migrateDatabase => []

/-- The events about other resources. -/
def isProper (f : ClientFunction) (e : Event ClientResource) : Bool := e.resource ∉ f.misused

/-- What an observer sees of a run: what is held when the misused resources are left out, what is
held, whether the output was obtained and whether anything happened. -/
structure View where
  proper : Option (List ClientResource)
  held : Option (List ClientResource)
  answered : Bool
  begun : Bool
  deriving DecidableEq

def view (f : ClientFunction) (v : View) (e : Event ClientResource) : View :=
  { proper := if f.isProper e then hold v.proper e else v.proper
    held := hold v.held e
    answered := v.answered || e == .acquire .output
    begun := true }

/-- The resources of the caller that are not misused. -/
def properStart (f : ClientFunction) : List ClientResource := f.start.filter (· ∉ f.misused)

def startView (f : ClientFunction) : View :=
  { proper := some f.properStart, held := some f.start, answered := false, begun := false }

theorem foldl_view (f : ClientFunction) (v : View) (tr : List (Event ClientResource)) :
    tr.foldl f.view v =
      { proper := (tr.filter f.isProper).foldl hold v.proper
        held := tr.foldl hold v.held
        answered := v.answered || decide (.acquire .output ∈ tr)
        begun := v.begun || !tr.isEmpty } := by
  induction tr generalizing v with
  | nil => simp
  | cons e tr ih =>
      rw [List.foldl_cons, ih]
      cases hproper : f.isProper e <;>
        simp [view, hproper, Bool.or_assoc, eq_comm, beq_eq_decide]

/-- What a run should end with: the resources that are not misused are those of the caller, and
all of them are exactly if nothing is misused, the output was obtained or nothing happened. -/
def EndsWell (f : ClientFunction) (v : View) : Prop :=
  v.proper = some f.properStart ∧
    (v.held = some f.start ↔ f.misused = [] ∨ v.answered = true ∨ v.begun = false)

instance (f : ClientFunction) (v : View) : Decidable (f.EndsWell v) :=
  inferInstanceAs (Decidable (_ ∧ _))

theorem ends_code (f : ClientFunction) :
    ∃ xs, ends f.view f.code f.startView = some xs ∧ (∀ v ∈ xs, f.EndsWell v) ∧
      ((∃ v ∈ xs, v.held ≠ some f.start) ↔ f.misused ≠ []) := by
  cases f <;> exact ⟨_, rfl, by decide, by decide⟩

theorem count_handle_of_proper {f : ClientFunction} {tr : List (Event ClientResource)}
    (h : final f.properStart (tr.filter f.isProper) = some f.properStart) :
    tr.count (.release .handle) = tr.count (.acquire .handle) := by
  have hcount := count_of_final h .handle
  rw [List.count_filter (by cases f <;> rfl), List.count_filter (by cases f <;> rfl)] at hcount
  exact Nat.add_right_cancel hcount

end ClientFunction

/-- In every run of a client function what it creates is freed exactly once and not used
afterwards, and the handle is destroyed as often as it was created. What the function misuses is
an exception: with it the same holds exactly if the output of the RPC was obtained, or nothing
was done at all. Each function that misuses something has a run where it does not hold. -/
theorem client_frees_what_it_creates (f : ClientFunction) :
    (∀ tr, Traces f.code tr →
      final f.properStart (tr.filter f.isProper) = some f.properStart ∧
      (final f.start tr = some f.start ↔
        f.misused = [] ∨ .acquire .output ∈ tr ∨ tr = []) ∧
      tr.count (.release .handle) = tr.count (.acquire .handle)) ∧
    ((∃ tr, Traces f.code tr ∧ final f.start tr ≠ some f.start) ↔ f.misused ≠ []) := by
  obtain ⟨xs, hxs, hends, hwrong⟩ := f.ends_code
  have hview := fun tr => f.foldl_view f.startView tr
  refine ⟨fun tr htr => ?_, ?_⟩
  · obtain ⟨hproper, hheld⟩ := hends _ ((mem_ends_iff hxs _).2 ⟨tr, htr, rfl⟩)
    rw [hview] at hproper hheld
    refine ⟨hproper, ?_, ClientFunction.count_handle_of_proper hproper⟩
    simpa [ClientFunction.startView, final] using hheld
  · rw [← hwrong]
    constructor
    · rintro ⟨tr, htr, hfinal⟩
      refine ⟨_, (mem_ends_iff hxs _).2 ⟨tr, htr, rfl⟩, ?_⟩
      rw [hview]
      exact hfinal
    · rintro ⟨v, hv, hne⟩
      obtain ⟨tr, htr, rfl⟩ := (mem_ends_iff hxs _).1 hv
      rw [hview] at hne
      exact ⟨tr, htr, hne⟩

end Sdskv
