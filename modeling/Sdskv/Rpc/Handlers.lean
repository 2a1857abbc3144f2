import Sdskv.Ownership.Scope
import Sdskv.Provider.Registration

/-!
# What the handlers acquire and release

Every handler is a ULT that owns the handle of its request and owes an answer. `DEFER` registers
what is done when the enclosing block is left: the macros `ENSURE_MARGO_DESTROY`,
`ENSURE_MARGO_RESPOND` and `ENSURE_MARGO_FREE_INPUT`, and one guard for each bulk handle and
address. A vector that a bulk handle exposes or the answer points to is alive from its
declaration to the end of its block; its destructor is a guard too.

A handler is written here with its calls, its returns and the order of its declarations. Every
call may fail and every test on the data may go either way, so the runs are those of all
requests, all databases and all answers of Margo and REMI. Vectors that nothing points to, and
`exit(-1)` without a Margo instance, are left out.
-/

namespace Sdskv

open Scope

/-- The vectors, and the buffer of `sdskv_migrate_keys_ult`, that something points to. -/
inductive HandlerVector
  | vdata
  | dbNames
  | dbNamesCStr
  | dbIds
  | localKeysBuffer
  | localValsBuffer
  | localBuffer
  | localValsSizeBuffer
  | localFlagsBuffer
  | ksizes
  | vsizes
  | keys
  | keyvals
  | buffer
  deriving DecidableEq

/-- The bulk handles that a handler creates. -/
inductive HandlerBulk
  | localKeys
  | localVals
  | «local»
  | localValsSize
  | localFlags
  | ksizesLocal
  | keysLocal
  | vsizesLocal
  | valsLocal
  | bulkHandle
  deriving DecidableEq

/-- What a handler holds; `answer` is the answer that it owes, and `lock` the lock of the
provider. -/
inductive HandlerResource
  | handle
  | answer
  | input
  | lock
  | address
  | vector (v : HandlerVector)
  | bulk (b : HandlerBulk)
  | putHandle
  | putOutput
  | remiHandle
  | fileset
  deriving DecidableEq

/-- A handler, or a part of one. -/
abbrev HandlerCode := Stmt (Event HandlerResource)

namespace HandlerCode

/-- `ENSURE_MARGO_DESTROY`. -/
def ensureMargoDestroy : HandlerCode := .guard [.release .handle]

/-- `ENSURE_MARGO_RESPOND`; `out` points to some vectors. -/
def ensureMargoRespond (pointsTo : List HandlerVector) : HandlerCode :=
  .guard (pointsTo.map (fun v => .use (.vector v)) ++ [.use .handle, .release .answer])

/-- `FIND_MID_AND_PROVIDER`. -/
def findMidAndProvider : HandlerCode := .call [.handle] [] []

/-- `GET_INPUT`. -/
def getInput : HandlerCode := .call [.handle] [.input] []

/-- `ENSURE_MARGO_FREE_INPUT`. -/
def ensureMargoFreeInput : HandlerCode := .guard [.use .handle, .release .input]

/-- The macros at the beginning of a handler. -/
def prologue (pointsTo : List HandlerVector) : HandlerCode :=
  .block [ensureMargoDestroy, ensureMargoRespond pointsTo, findMidAndProvider, getInput,
    ensureMargoFreeInput]

/-- `FIND_DATABASE`, and the lookups of `in.name` and of `in.source_db_id`. -/
def findDatabase : HandlerCode :=
  .block [.act [.acquire .lock, .use .input],
    .choice (.block [.act [.release .lock, .use .input], .ret]) (.act [.release .lock])]

/-- The input is read. -/
def readInput : HandlerCode := .act [.use .input]

/-- A vector is declared. -/
def declare (v : HandlerVector) : HandlerCode :=
  .block [.act [.acquire (.vector v)], .guard [.release (.vector v)]]

/-- Vectors are read or written. -/
def visit (vs : List HandlerVector) : HandlerCode :=
  .act (vs.map fun v => .use (.vector v))

/-- `margo_bulk_create` and the `DEFER` of `margo_bulk_free`. -/
def bulkCreate (b : HandlerBulk) (exposes : HandlerVector) : HandlerCode :=
  .block [.call [.vector exposes] [.bulk b] [],
    .guard [.use (.vector exposes), .release (.bulk b)]]

/-- `margo_bulk_transfer` with the address of the client. -/
def bulkTransfer (b : HandlerBulk) (exposes : HandlerVector) : HandlerCode :=
  .call [.handle, .input, .bulk b, .vector exposes] [] []

/-- `margo_addr_lookup` of an address in the input. -/
def addrLookup : HandlerCode :=
  .block [.call [.input] [.address] [], .guard [.release .address]]

/-- The handle of the forwarded puts. -/
def createPutHandle : HandlerCode :=
  .block [.call [.address] [.putHandle] [], .guard [.release .putHandle]]

/-- A put is forwarded. When it is answered with an error, its output is not freed. -/
def forwardOnePut : HandlerCode :=
  .block [.call [.input, .putHandle] [] [], .call [.putHandle] [.putOutput] [],
    .choice .ret (.act [.use .putHandle, .release .putOutput]), readInput]

/-- The pages of 64 pairs; `list_keyvals` may throw. -/
def migratePages : HandlerCode :=
  .loop (.block [.choice .ret (.act []), .loop forwardOnePut, readInput])

/-- A test after which the handler returns. -/
def returnIf : HandlerCode := .choice .ret (.act [])

/-- A statement under a test. -/
def onlyIf (s : HandlerCode) : HandlerCode := .choice (.act []) s

/-- `sdskv_length_multi_ult` and `sdskv_length_packed_ult`, and `sdskv_exists_multi_ult` with the
flags: the keys are pulled and the results are pushed. -/
def keysToResults (b : HandlerBulk) (results : HandlerVector) : HandlerCode :=
  .block [declare .localKeysBuffer, declare results, prologue [], findDatabase,
    readInput, visit [.localKeysBuffer], bulkCreate .localKeys .localKeysBuffer,
    readInput, visit [results], bulkCreate b results,
    bulkTransfer .localKeys .localKeysBuffer,
    .loop (.block [readInput, visit [.localKeysBuffer, results]]),
    bulkTransfer b results]

end HandlerCode

open HandlerCode

/-- The handlers. -/
def SdskvRpc.handler : SdskvRpc → HandlerCode
  | .open => .block [prologue [], findDatabase]
  | .countDatabases =>
      .block [ensureMargoDestroy, ensureMargoRespond [], findMidAndProvider,
        .act [.acquire .lock, .release .lock]]
  | .listDatabases =>
      .block [declare .dbNames, declare .dbNamesCStr, declare .dbIds,
        prologue [.dbNamesCStr, .dbNames, .dbIds], .act [.acquire .lock],
        .loop (.block [readInput, visit [.dbNames, .dbIds]]), .act [.release .lock],
        .loop (visit [.dbNamesCStr, .dbNames])]
  | .put => .block [prologue [], findDatabase, readInput]
  | .putMulti =>
      .block [declare .localKeysBuffer, declare .localValsBuffer, prologue [], findDatabase,
        readInput, visit [.localKeysBuffer, .localValsBuffer],
        bulkCreate .localKeys .localKeysBuffer, bulkCreate .localVals .localValsBuffer,
        bulkTransfer .localKeys .localKeysBuffer, bulkTransfer .localVals .localValsBuffer,
        .loop (.block [readInput, visit [.localKeysBuffer, .localValsBuffer]]),
        readInput, visit [.localKeysBuffer, .localValsBuffer]]
  | .putPacked =>
      .block [declare .localBuffer, prologue [], findDatabase,
        .choice (.call [.input] [.address] []) (.call [.handle] [.address] []),
        .guard [.release .address], readInput, visit [.localBuffer],
        bulkCreate .local .localBuffer,
        .call [.address, .input, .bulk .local, .vector .localBuffer] [] [],
        .loop (.block [readInput, visit [.localBuffer]]), readInput, visit [.localBuffer]]
  | .bulkPut =>
      .block [prologue [], findDatabase, readInput, declare .vdata,
        onlyIf (.scope (.block [bulkCreate .bulkHandle .vdata, bulkTransfer .bulkHandle .vdata])),
        readInput, visit [.vdata]]
  | .get => .block [declare .vdata, prologue [.vdata], findDatabase, readInput, visit [.vdata]]
  | .getMulti =>
      .block [declare .localKeysBuffer, declare .localValsBuffer, prologue [], findDatabase,
        readInput, visit [.localKeysBuffer], bulkCreate .localKeys .localKeysBuffer,
        readInput, visit [.localValsBuffer], bulkCreate .localVals .localValsBuffer,
        bulkTransfer .localKeys .localKeysBuffer, bulkTransfer .localVals .localValsBuffer,
        .loop (.block [readInput, visit [.localKeysBuffer, .localValsBuffer]]),
        bulkTransfer .localVals .localValsBuffer]
  | .getPacked => keysToResults .localVals .localValsBuffer
  | .length => .block [prologue [], findDatabase, readInput]
  | .lengthMulti => keysToResults .localValsSize .localValsSizeBuffer
  | .lengthPacked => keysToResults .localValsSize .localValsSizeBuffer
  | .exists => .block [prologue [], findDatabase, readInput]
  | .existsMulti => keysToResults .localFlags .localFlagsBuffer
  | .bulkGet =>
      .block [prologue [], findDatabase, readInput, declare .vdata, visit [.vdata], returnIf,
        readInput, returnIf,
        onlyIf (.scope (.block [bulkCreate .bulkHandle .vdata, bulkTransfer .bulkHandle .vdata]))]
  | .listKeys =>
      .block [prologue [], findDatabase, readInput, declare .ksizes,
        bulkCreate .ksizesLocal .ksizes, bulkTransfer .ksizesLocal .ksizes, visit [.ksizes],
        readInput, declare .keys, returnIf, .loop (visit [.keys, .ksizes]),
        .loop (.block [readInput, visit [.ksizes]]), bulkTransfer .ksizesLocal .ksizes,
        returnIf, .loop (visit [.keys]), bulkCreate .keysLocal .keys,
        .loop (onlyIf (bulkTransfer .keysLocal .keys))]
  | .listKeyvals =>
      .block [prologue [], findDatabase, readInput, declare .ksizes,
        bulkCreate .ksizesLocal .ksizes, readInput, declare .vsizes,
        bulkCreate .vsizesLocal .vsizes, bulkTransfer .ksizesLocal .ksizes,
        bulkTransfer .vsizesLocal .vsizes, visit [.ksizes, .vsizes], readInput,
        declare .keyvals, returnIf, .loop (visit [.keyvals, .ksizes]), .loop (visit [.ksizes]),
        .loop (visit [.keyvals, .vsizes]), .loop (visit [.vsizes]),
        onlyIf (bulkTransfer .ksizesLocal .ksizes), onlyIf (bulkTransfer .vsizesLocal .vsizes),
        .loop (visit [.keyvals]), .loop (visit [.keyvals]),
        bulkCreate .keysLocal .keyvals, bulkCreate .valsLocal .keyvals,
        .loop (onlyIf (bulkTransfer .keysLocal .keyvals)),
        .loop (onlyIf (bulkTransfer .valsLocal .keyvals))]
  | .erase => .block [prologue [], findDatabase, readInput]
  | .eraseMulti =>
      .block [declare .localKeysBuffer, prologue [], findDatabase, readInput,
        visit [.localKeysBuffer], bulkCreate .localKeys .localKeysBuffer,
        bulkTransfer .localKeys .localKeysBuffer,
        .loop (.block [readInput, visit [.localKeysBuffer]])]
  | .migrateKeys =>
      .block [prologue [], findDatabase, addrLookup, readInput, declare .buffer,
        bulkCreate .bulkHandle .buffer, bulkTransfer .bulkHandle .buffer, createPutHandle,
        .loop (.block [readInput, visit [.buffer], onlyIf forwardOnePut])]
  | .migrateKeyRange =>
      .block [prologue [], findDatabase, .act [.acquire .lock], .guard [.release .lock]]
  | .migrateKeysPrefixed =>
      .block [prologue [], findDatabase, addrLookup, createPutHandle, readInput, migratePages]
  | .migrateAllKeys =>
      .block [prologue [], findDatabase, addrLookup, createPutHandle, migratePages]
  | .migrateDatabase =>
      .block [prologue [], findDatabase, returnIf, addrLookup,
        .call [.address, .input] [.remiHandle] [], .guard [.release .remiHandle],
        .call [] [.fileset] [], .guard [.release .fileset],
        .call [.remiHandle, .fileset, .input] [] [], readInput,
        onlyIf (.act [.use .input, .acquire .lock, .release .lock])]

/-- The handlers that forward puts to another provider. -/
def SdskvRpc.forwardsPuts : SdskvRpc → Bool
  | .migrateKeys | .migrateKeysPrefixed | .migrateAllKeys => true
  | _ => false

/-- What Margo hands to a handler. -/
def handlerStart : List HandlerResource := [.handle, .answer]

/-- What a handler can be left with. -/
def SdskvRpc.leaves (rpc : SdskvRpc) : List (List HandlerResource) :=
  [] :: if rpc.forwardsPuts then [[.putOutput]] else []

/-- The runs of a handler are followed to their ends. -/
theorem ends_handler (rpc : SdskvRpc) :
    ∃ xs, ends hold rpc.handler (some handlerStart) = some xs ∧
      (∀ x ∈ xs, x ∈ rpc.leaves.map some) ∧ ∀ x ∈ rpc.leaves.map some, x ∈ xs := by
  cases rpc <;> exact ⟨_, rfl, by decide, by decide⟩

theorem acquire_notMem_handler (rpc : SdskvRpc) :
    .acquire .answer ∉ rpc.handler.events ∧ .acquire .handle ∉ rpc.handler.events := by
  cases rpc <;> decide

theorem notMem_of_mem_leaves {rpc : SdskvRpc} {left : List HandlerResource}
    (h : left ∈ rpc.leaves) {r : HandlerResource} (hr : r ≠ .putOutput) : r ∉ left := by
  rw [SdskvRpc.leaves, List.mem_cons] at h
  rcases h with rfl | h
  · exact List.not_mem_nil
  · split_ifs at h with hforwards
    · rw [List.mem_singleton.1 h, List.mem_singleton]
      exact hr
    · cases h

end Sdskv
