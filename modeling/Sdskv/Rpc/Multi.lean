import Sdskv.Loop.Checked
import Sdskv.Rpc.Read
import Sdskv.Wire.Buffer

/-!
# The requests on many keys

A batched request exposes one region with an array of key sizes in front of the packed
keys. The handler pulls it into a local buffer and walks over it: iteration `i` takes the
size from word `i` of the array and the key from the current position in the packed keys.
What it does with the key is the only difference between the handlers; a get packs values
into a second buffer behind an array of their sizes, which is pushed back to the client.

Every access of a handler to its local buffers is checked, so a request that leads it out
of them is a fault. The counter of the loops has 32 bits.
-/

namespace Sdskv

open Wire

/-- The output of a batched request: the return value, and the bytes that are pushed to the
memory of the client. -/
structure MultiOut where
  ret : Int
  push : Bulk
  deriving DecidableEq

/-- How the Margo calls of a handler fare: the answers of those in front of its loop, of a
transfer that exceeds one of its two handles, and of the push after the loop. -/
structure BulkCalls where
  before : List ℕ
  refused : ℕ
  push : ℕ

namespace BulkCalls

variable (calls : BulkCalls)

/-- `margo_bulk_transfer` with `HG_BULK_PULL` of `size` bytes to the start of a local
buffer. -/
def pull (handle : HgBulk) (size : ℕ) (localBuffer : Bulk) : Except ℕ Bulk :=
  if size ≤ handle.flatten.length ∧ size ≤ localBuffer.length then
    .ok (bulkPull handle size ++ localBuffer.drop size)
  else .error calls.refused

/-- The transfers of a handler, when none of its calls fails. -/
def receive {α : Type*} (transfers : Except ℕ α) : Except ℕ α :=
  match firstFailure calls.before with
  | some hret => .error hret
  | none => transfers

/-- The answer of a handler after its push of some bytes. -/
def pushed (ret : Int) (bytes : Bulk) : MultiOut :=
  if calls.push ≠ hgSuccess then { ret := makeHgError calls.push, push := [] }
  else { ret := ret, push := bytes }

/-- No call fails, except for a transfer that exceeds a handle. -/
def Succeed : Prop := firstFailure calls.before = none ∧ calls.push = hgSuccess

/-- Calls that all succeed, and a transfer that is too large is an invalid argument. -/
def succeeding : BulkCalls := { before := [], refused := 18, push := hgSuccess }

theorem succeed_succeeding : succeeding.Succeed := ⟨rfl, rfl⟩

end BulkCalls

/-- The fields that the inputs of the batched requests on keys begin with. -/
structure KeysIn where
  dbId : UInt64
  numKeys : ℕ
  keysBulkHandle : HgBulk
  keysBulkSize : ℕ

/-- `get_multi_in_t` and `get_packed_in_t`. -/
structure GetMultiIn extends KeysIn where
  valsBulkHandle : HgBulk
  valsBulkSize : ℕ

/-- `get_packed_out_t`, with the bytes that are pushed. -/
structure GetPackedOut extends MultiOut where
  numKeys : ℕ
  deriving DecidableEq

/-- `in.num_keys * sizeof(hg_size_t)`. -/
def sizesBytes (numKeys : ℕ) : ℕ := 8 * numKeys % 2 ^ 64

/-- The size of the array of sizes, when it has not wrapped around. -/
theorem sizesBytes_of_lt {numKeys : ℕ} (h : numKeys < 2 ^ 61) :
    sizesBytes numKeys = 8 * numKeys := by
  rw [sizesBytes]
  omega

/-- The local buffer with the key sizes and the packed keys. -/
def KeysIn.receive (calls : BulkCalls) (input : KeysIn) : Except ℕ Bulk :=
  calls.receive
    (calls.pull input.keysBulkHandle input.keysBulkSize
      (List.replicate input.keysBulkSize 0))

/-- The two local buffers of a get, the second with the sizes that the client has
allocated. -/
def GetMultiIn.receive (calls : BulkCalls) (input : GetMultiIn) : Except ℕ (Bulk × Bulk) :=
  calls.receive do
    let keys ← calls.pull input.keysBulkHandle input.keysBulkSize
      (List.replicate input.keysBulkSize 0)
    let vals ← calls.pull input.valsBulkHandle (sizesBytes input.numKeys)
      (List.replicate input.valsBulkSize 0)
    .ok (keys, vals)

section Receive

/-- What is received does not depend on the calls that succeed. -/
theorem BulkCalls.receive_eq_ok {α : Type} {calls : BulkCalls} {transfers : Except ℕ α} {a : α}
    (h : calls.receive transfers = .ok a) : transfers = .ok a := by
  rw [BulkCalls.receive] at h
  split at h
  · cases h
  · exact h

theorem BulkCalls.pull_eq_ok {calls : BulkCalls} {handle : HgBulk} {size : ℕ}
    {localBuffer buffer : Bulk} (h : calls.pull handle size localBuffer = .ok buffer) :
    (size ≤ handle.flatten.length ∧ size ≤ localBuffer.length) ∧
      buffer = bulkPull handle size ++ localBuffer.drop size := by
  rw [BulkCalls.pull] at h
  split_ifs at h with hfits
  cases h
  exact ⟨hfits, rfl⟩

theorem BulkCalls.pull_succeeding {calls : BulkCalls} {handle : HgBulk} {size : ℕ}
    {localBuffer buffer : Bulk} (h : calls.pull handle size localBuffer = .ok buffer) :
    BulkCalls.succeeding.pull handle size localBuffer = .ok buffer := by
  obtain ⟨hfits, rfl⟩ := BulkCalls.pull_eq_ok h
  exact if_pos hfits

theorem BulkCalls.length_pull {calls : BulkCalls} {handle : HgBulk} {size : ℕ}
    {localBuffer buffer : Bulk} (h : calls.pull handle size localBuffer = .ok buffer) :
    buffer.length = localBuffer.length := by
  obtain ⟨⟨hhandle, hlocal⟩, rfl⟩ := BulkCalls.pull_eq_ok h
  rw [bulkPull, List.length_append, List.length_take, List.length_drop]
  omega

/-- Both transfers of a handler with two buffers. -/
theorem BulkCalls.both_eq_ok {calls : BulkCalls} {keys vals : Except ℕ Bulk}
    {buffers : Bulk × Bulk}
    (h : (calls.receive do
      let k ← keys
      let v ← vals
      .ok (k, v)) = .ok buffers) : keys = .ok buffers.1 ∧ vals = .ok buffers.2 := by
  have hboth := BulkCalls.receive_eq_ok h
  cases keys with
  | error hret => cases hboth
  | ok k =>
      cases vals with
      | error hret => cases hboth
      | ok v =>
          cases hboth
          exact ⟨rfl, rfl⟩

theorem BulkCalls.both_succeeding {keys vals : Except ℕ Bulk} {buffers : Bulk × Bulk}
    (hkeys : keys = .ok buffers.1) (hvals : vals = .ok buffers.2) :
    (BulkCalls.succeeding.receive do
      let k ← keys
      let v ← vals
      .ok (k, v)) = .ok buffers := by
  rw [hkeys, hvals]
  rfl

/-- A transfer that fills a local buffer of its size. -/
theorem BulkCalls.pull_whole {calls : BulkCalls} {handle : HgBulk} {size : ℕ} {buffer : Bulk}
    (h : calls.pull handle size (List.replicate size 0) = .ok buffer) :
    buffer = bulkPull handle size ∧ buffer.length = size := by
  have hlength := BulkCalls.length_pull h
  rw [List.length_replicate] at hlength
  obtain ⟨-, rfl⟩ := BulkCalls.pull_eq_ok h
  refine ⟨?_, hlength⟩
  rw [List.drop_replicate, Nat.sub_self, List.replicate_zero, List.append_nil]

theorem KeysIn.receive_succeeding {input : KeysIn} (calls : BulkCalls) (buffer : Bulk)
    (h : input.receive calls = .ok buffer) : input.receive .succeeding = .ok buffer :=
  BulkCalls.pull_succeeding (BulkCalls.receive_eq_ok h)

theorem GetMultiIn.receive_succeeding {input : GetMultiIn} (calls : BulkCalls)
    (buffers : Bulk × Bulk) (h : input.receive calls = .ok buffers) :
    input.receive .succeeding = .ok buffers := by
  obtain ⟨hkeys, hvals⟩ := BulkCalls.both_eq_ok h
  exact BulkCalls.both_succeeding (BulkCalls.pull_succeeding hkeys)
    (BulkCalls.pull_succeeding hvals)

end Receive

/-- One iteration of the walk over the keys: the state is the offset in the packed keys,
which begin at `packedKeys`, and the state that `act` changes. -/
def walkPacked {υ : Type} (keysBuffer : Bulk) (packedKeys : ℕ)
    (act : ℕ → Bulk → υ → Option υ) (i : ℕ) (t : ℕ × υ) : Option (ℕ × υ) := do
  let size ← readWord keysBuffer (8 * i)
  let key ← readBytes keysBuffer (packedKeys + t.1) size
  let u ← act i key t.2
  some (t.1 + size, u)

/-- `FIND_DATABASE`, the transfers and the loop of a batched handler. -/
def serveMulti {σ α β : Type} (dbs : Databases σ) (dbId : UInt64) (failed : Int → α)
    (received : Except ℕ β) (loop : β → σ → Loop.Run (α × σ)) :
    Loop.Run (α × Databases σ) :=
  match dbs dbId with
  | none => .done (failed SdskvReturn.errUnknownDb.code, dbs)
  | some s =>
      match received with
      | .error hret => .done (failed (makeHgError hret), dbs)
      | .ok buffers =>
          (loop buffers s).map fun r => (r.1, Function.update dbs dbId (some r.2))

theorem serveMulti_of_ok {σ α β : Type} {dbs : Databases σ} {dbId : UInt64}
    {failed : Int → α} {received : Except ℕ β} {loop : β → σ → Loop.Run (α × σ)} {s : σ}
    {buffers : β} (hdb : dbs dbId = some s) (hreceived : received = .ok buffers) :
    serveMulti dbs dbId failed received loop =
      (loop buffers s).map fun r => (r.1, Function.update dbs dbId (some r.2)) := by
  rw [serveMulti, hdb, hreceived]

theorem serveMulti_of_error {σ α β : Type} {dbs : Databases σ} {dbId : UInt64}
    {failed : Int → α} {received : Except ℕ β} {loop : β → σ → Loop.Run (α × σ)} {s : σ}
    {hret : ℕ} (hdb : dbs dbId = some s) (hreceived : received = .error hret) :
    serveMulti dbs dbId failed received loop = .done (failed (makeHgError hret), dbs) := by
  rw [serveMulti, hdb, hreceived]

/-- A handler leaves its buffers in its loop only. -/
theorem serveMulti_eq_fault_iff {σ α β : Type} {dbs : Databases σ} {dbId : UInt64}
    {failed : Int → α} {received : Except ℕ β} {loop : β → σ → Loop.Run (α × σ)} :
    serveMulti dbs dbId failed received loop = .fault ↔
      ∃ s buffers, dbs dbId = some s ∧ received = .ok buffers ∧ loop buffers s = .fault := by
  rw [serveMulti]
  cases hdb : dbs dbId with
  | none => simp
  | some s =>
      cases received with
      | error hret => simp
      | ok buffers => simp [Loop.Run.map_eq_fault_iff]

section Handlers

variable {σ : Type} (ds : DatastoreReads σ)

/-- The iteration of `sdskv_length_multi_ult` and `sdskv_length_packed_ult`. -/
def lengthAct (i : ℕ) (key : Bulk) (t : σ × List ℕ) : Option (σ × List ℕ) :=
  let (vsize, s) := ds.length t.1 key
  if i < t.2.length then some (s, t.2.set i (vsize.getD 0)) else none

/-- The iteration of `sdskv_exists_multi_ult`; the bits of the flags are set under a mask of
8 bits that is shifted and starts over. -/
def existsAct (i : ℕ) (key : Bulk) (t : σ × Bulk × UInt8) : Option (σ × Bulk × UInt8) := do
  let (found, s) := ds.exists t.1 key key.length
  let flags ←
    if found then
      if i / 8 < t.2.1.length then
        some (t.2.1.set (i / 8) (t.2.1.getD (i / 8) 0 ||| t.2.2))
      else none
    else some t.2.1
  let mask := t.2.2 <<< 1
  some (s, flags, if i % 8 = 7 then 1 else mask)

/-- The iteration of `sdskv_erase_multi_ult`. -/
def eraseAct (_ : ℕ) (key : Bulk) (s : σ) : Option σ := some (ds.erase s key).2

/-- The iteration of `sdskv_get_multi_ult`; the state has the local buffer of the values and
the offset in its packed values, which begin at `packedValues`. -/
def getMultiAct (packedValues i : ℕ) (key : Bulk) (t : σ × Bulk × ℕ) :
    Option (σ × Bulk × ℕ) := do
  let allocated ← readWord t.2.1 (8 * i)
  match ds.get t.1 key with
  | (some vdata, s) =>
      if vdata.length > allocated then
        let vals ← writeWord t.2.1 (8 * i) 0
        some (s, vals, t.2.2)
      else
        let vals ← writeWord t.2.1 (8 * i) vdata.length
        let vals ← writeBytes vals (packedValues + t.2.2) vdata
        -- the size is read again from the buffer that the value was copied to
        let advance ← readWord vals (8 * i)
        some (s, vals, t.2.2 + advance)
  | (none, s) =>
      let vals ← writeWord t.2.1 (8 * i) 0
      some (s, vals, t.2.2)

/-- The local variables of `sdskv_get_packed_ult`. -/
structure GetPackedState (σ : Type) where
  db : σ
  keysOffset : ℕ
  vals : Bulk
  valsOffset : ℕ
  availableClientMemory : ℕ
  numKeys : ℕ
  ret : SdskvReturn

/-- The iteration of `sdskv_get_packed_ult`. Once the memory of the client is used up the
position in the packed keys is not advanced. -/
def getPackedBody (keysBuffer : Bulk) (packed i : ℕ) (t : GetPackedState σ) :
    Option (GetPackedState σ) := do
  let size ← readWord keysBuffer (8 * i)
  let key ← readBytes keysBuffer (packed + t.keysOffset) size
  if t.availableClientMemory = 0 then
    let vals ← writeWord t.vals (8 * i) 0
    some { t with vals := vals, ret := .errSize }
  else
    match ds.get t.db key with
    | (some vdata, s) =>
        if vdata.length > t.availableClientMemory then
          let vals ← writeWord t.vals (8 * i) 0
          some { t with db := s, keysOffset := t.keysOffset + size, vals := vals,
                        availableClientMemory := 0, ret := .errSize }
        else
          let vals ← writeWord t.vals (8 * i) vdata.length
          let vals ← writeBytes vals (packed + t.valsOffset) vdata
          let advance ← readWord vals (8 * i)
          some { t with db := s, keysOffset := t.keysOffset + size, vals := vals,
                        valsOffset := t.valsOffset + advance, numKeys := t.numKeys + 1 }
    | (none, s) =>
        let vals ← writeWord t.vals (8 * i) (2 ^ 64 - 1)
        some { t with db := s, keysOffset := t.keysOffset + size, vals := vals }

variable (calls : BulkCalls) (fuel : ℕ) (dbs : Databases σ)

/-- The struct of a handler that has not come to its push. -/
def MultiOut.failed (ret : Int) : MultiOut := { ret := ret, push := [] }

/-- `sdskv_length_multi_ult`; `sdskv_length_packed_ult` has the same body. -/
def sdskvLengthMultiUlt (input : KeysIn) : Loop.Run (MultiOut × Databases σ) :=
  serveMulti dbs input.dbId MultiOut.failed (input.receive calls) fun keysBuffer s =>
    (Loop.counted 32 input.numKeys
      (walkPacked keysBuffer (sizesBytes input.numKeys) (lengthAct ds)) fuel 0
      (0, s, List.replicate input.numKeys 0)).map fun t =>
        (calls.pushed SdskvReturn.success.code (arrayBytes 8 t.2.2), t.2.1)

/-- `sdskv_length_packed_ult`. -/
def sdskvLengthPackedUlt (input : KeysIn) : Loop.Run (MultiOut × Databases σ) :=
  sdskvLengthMultiUlt ds calls fuel dbs input

/-- The number of bytes that hold a flag for each key. -/
def flagsBytes (numKeys : ℕ) : ℕ := numKeys / 8 + if numKeys % 8 = 0 then 0 else 1

/-- `sdskv_exists_multi_ult`. -/
def sdskvExistsMultiUlt (input : KeysIn) : Loop.Run (MultiOut × Databases σ) :=
  serveMulti dbs input.dbId MultiOut.failed (input.receive calls) fun keysBuffer s =>
    (Loop.counted 32 input.numKeys
      (walkPacked keysBuffer (sizesBytes input.numKeys) (existsAct ds)) fuel 0
      (0, s, List.replicate (flagsBytes input.numKeys) 0, 1)).map fun t =>
        (calls.pushed SdskvReturn.success.code t.2.2.1, t.2.1)

/-- `sdskv_erase_multi_ult`. -/
def sdskvEraseMultiUlt (input : KeysIn) : Loop.Run (MultiOut × Databases σ) :=
  serveMulti dbs input.dbId MultiOut.failed (input.receive calls) fun keysBuffer s =>
    (Loop.counted 32 input.numKeys
      (walkPacked keysBuffer (sizesBytes input.numKeys) (eraseAct ds)) fuel 0 (0, s)).map fun t =>
        ({ ret := SdskvReturn.success.code, push := [] }, t.2)

/-- `sdskv_get_multi_ult`. -/
def sdskvGetMultiUlt (input : GetMultiIn) : Loop.Run (MultiOut × Databases σ) :=
  serveMulti dbs input.dbId MultiOut.failed (input.receive calls) fun (keysBuffer, valsBuffer) s =>
    (Loop.counted 32 input.numKeys
      (walkPacked keysBuffer (sizesBytes input.numKeys)
        (getMultiAct ds (sizesBytes input.numKeys))) fuel 0 (0, s, valsBuffer, 0)).map fun t =>
        (calls.pushed SdskvReturn.success.code t.2.2.1, t.2.1)

/-- The loop of `sdskv_get_packed_ult`. -/
def getPackedLoop (input : GetMultiIn) (keysBuffer : Bulk) (s : σ) :
    Loop.Run (GetPackedState σ) :=
  let packed := sizesBytes input.numKeys
  Loop.counted 32 input.numKeys (getPackedBody ds keysBuffer packed) fuel 0
    { db := s, keysOffset := 0, vals := List.replicate input.valsBulkSize 0, valsOffset := 0,
      availableClientMemory := (input.valsBulkSize + (2 ^ 64 - packed)) % 2 ^ 64,
      numKeys := 0, ret := .success }

/-- `sdskv_get_packed_ult`. -/
def sdskvGetPackedUlt (input : GetMultiIn) : Loop.Run (GetPackedOut × Databases σ) :=
  serveMulti dbs input.dbId (fun ret => { MultiOut.failed ret with numKeys := 0 })
    (input.toKeysIn.receive calls) fun keysBuffer s =>
      (getPackedLoop ds fuel input keysBuffer s).map fun t =>
        ({ calls.pushed t.ret.code t.vals with numKeys := t.numKeys }, t.db)

end Handlers

section Client

/-- `for (i = 0; i < n; i++) size += sizes[i]`, where `i` is an `int`. -/
def signedSum (sizes : List ℕ) : Option ℕ :=
  (Loop.signedIndices 32 sizes.length).map fun is =>
    is.foldl (fun size i => (size + sizes.getD i 0) % 2 ^ 64) 0

/-- `for (i = 0; i < n; i++) size += sizes[i]`, where `i` is an `unsigned`; `none` when the
loop does not end. -/
def unsignedSum (sizes : List ℕ) : Option ℕ :=
  (Loop.indices 32 sizes.length).map fun is =>
    is.foldl (fun size i => (size + sizes.getD i 0) % 2 ^ 64) 0

/-- The input of a batched request with a segment for the sizes and one for each key; `none`
when the counter of the client overflows. -/
def multiKeysIn (dbId : UInt64) (keys : List KvData) : Option KeysIn :=
  (signedSum (sizesBytes keys.length :: keys.map fun k => k.data.length)).map fun size =>
    { dbId := dbId
      numKeys := keys.length
      keysBulkHandle :=
        arrayBytes 8 (keys.map fun k => k.data.length) :: keys.map KvData.data
      keysBulkSize := size }

/-- The bytes that a batched request exposes. -/
def keysBytes (keys : List KvData) : ℕ :=
  8 * keys.length + (keys.map fun k => k.data.length).sum

theorem signedSum_eq_some_iff {sizes : List ℕ} {size : ℕ} :
    signedSum sizes = some size ↔ sizes.length < 2 ^ 31 ∧ size = sizes.sum % 2 ^ 64 := by
  rw [signedSum, Option.map_eq_some_iff]
  constructor
  · rintro ⟨is, his, rfl⟩
    obtain ⟨hlt, rfl⟩ := Loop.signedIndices_eq_some_iff.1 his
    exact ⟨hlt, Loop.foldl_getD_add_mod (2 ^ 64) sizes⟩
  · rintro ⟨hlt, rfl⟩
    exact ⟨_, Loop.signedIndices_eq_some_iff.2 ⟨hlt, rfl⟩,
      Loop.foldl_getD_add_mod (2 ^ 64) sizes⟩

theorem unsignedSum_eq_some_iff {sizes : List ℕ} {size : ℕ} :
    unsignedSum sizes = some size ↔ sizes.length < 2 ^ 32 ∧ size = sizes.sum % 2 ^ 64 := by
  rw [unsignedSum, Loop.indices]
  split_ifs with hlt
  · rw [Option.map_some, Loop.foldl_getD_add_mod]
    simp only [Option.some.injEq, hlt, true_and, eq_comm]
  · simp only [Option.map_none, hlt, false_and, reduceCtorEq]

theorem multiKeysIn_eq_some_iff {dbId : UInt64} {keys : List KvData} {input : KeysIn} :
    multiKeysIn dbId keys = some input ↔ keys.length + 1 < 2 ^ 31 ∧
      input =
        { dbId := dbId
          numKeys := keys.length
          keysBulkHandle :=
            arrayBytes 8 (keys.map fun k => k.data.length) :: keys.map KvData.data
          keysBulkSize := keysBytes keys % 2 ^ 64 } := by
  simp only [multiKeysIn, Option.map_eq_some_iff, signedSum_eq_some_iff, List.length_cons,
    List.length_map, List.sum_cons, sizesBytes, Nat.mod_add_mod]
  constructor
  · rintro ⟨size, ⟨hlt, rfl⟩, rfl⟩
    exact ⟨hlt, rfl⟩
  · rintro ⟨hlt, rfl⟩
    exact ⟨_, ⟨hlt, rfl⟩, rfl⟩

/-- A request of a client whose behaviour is defined has a number of segments that its counter
can hold. -/
theorem length_lt_of_request {α : Type} {dbId : UInt64} {keys : List KvData}
    {serve : KeysIn → Loop.Run α} {result : α}
    (hdone : (match multiKeysIn dbId keys with
      | none => Loop.Run.fault
      | some input => serve input) = .done result) :
    ∃ input, multiKeysIn dbId keys = some input ∧ keys.length + 1 < 2 ^ 31 := by
  cases hinput : multiKeysIn dbId keys with
  | none =>
      rw [hinput] at hdone
      cases hdone
  | some input => exact ⟨input, rfl, (multiKeysIn_eq_some_iff.1 hinput).1⟩

/-- The local buffer of a handler for the request of a client: the size of the region is
reduced modulo `2 ^ 64`. -/
def keysBuffer (keys : List KvData) : Bulk :=
  (packItems (keys.map KvData.data)).take (keysBytes keys % 2 ^ 64)

theorem length_packItems_data (keys : List KvData) :
    (packItems (keys.map KvData.data)).length = keysBytes keys := by
  simp [packItems, keysBytes, List.length_flatten, Function.comp_def]

theorem receive_multiKeysIn {calls : BulkCalls} (hcalls : calls.Succeed) {dbId : UInt64}
    {keys : List KvData} {input : KeysIn} (h : multiKeysIn dbId keys = some input) :
    input.receive calls = .ok (keysBuffer keys) := by
  obtain ⟨-, rfl⟩ := multiKeysIn_eq_some_iff.1 h
  have hregion : (arrayBytes 8 (keys.map fun k => k.data.length) ::
      keys.map KvData.data).flatten = packItems (keys.map KvData.data) := by
    rw [List.flatten_cons, packItems, List.map_map, Function.comp_def]
  have hfits : keysBytes keys % 2 ^ 64 ≤ (packItems (keys.map KvData.data)).length := by
    rw [length_packItems_data]
    exact Nat.mod_le _ _
  simp only [KeysIn.receive, BulkCalls.receive, hcalls.1, BulkCalls.pull, bulkPull, hregion]
  rw [if_pos ⟨hfits, by simp⟩]
  simp [keysBuffer]

/-- The handler finds the keys of the client when the size of the region has not wrapped, and
else leaves its buffer. -/
theorem readPacked_keysBuffer (keys : List KvData) (hlt : keys.length < 2 ^ 61) :
    readPacked (keysBuffer keys) (sizesBytes keys.length) keys.length 0 0 =
      if keysBytes keys < 2 ^ 64 then some (keys.map KvData.data) else none := by
  have hsizes : sizesBytes keys.length = 8 * (keys.map KvData.data).length := by
    rw [List.length_map, sizesBytes_of_lt hlt]
  have hitems : ∀ item ∈ keys.map KvData.data, item.length < 2 ^ 64 := by
    intro item hitem
    obtain ⟨k, -, rfl⟩ := List.mem_map.1 hitem
    exact k.size_lt
  have hread := readPacked_take hitems (keysBytes keys % 2 ^ 64)
  have hwrap : keysBytes keys ≤ keysBytes keys % 2 ^ 64 ↔ keysBytes keys < 2 ^ 64 := by
    omega
  rw [length_packItems_data, ← hsizes, List.length_map, if_congr hwrap rfl rfl] at hread
  exact hread

end Client

section Walk

variable {υ : Type}

/-- `act` on each of the keys in order, from the counter `i` on. -/
def forItems (act : ℕ → Bulk → υ → Option υ) : ℕ → List Bulk → υ → Option υ
  | _, [], u => some u
  | i, key :: keys, u => (act i key u).bind (forItems act (i + 1) keys)

/-- The keys that a walk meets do not depend on what is done with them. -/
theorem through_walkPacked (keysBuffer : Bulk) (packed : ℕ) (act : ℕ → Bulk → υ → Option υ)
    (n i offset : ℕ) (u : υ) :
    Loop.through (walkPacked keysBuffer packed act) (List.range' i n) (offset, u) =
      (readPacked keysBuffer packed n i offset).bind fun keys =>
        (forItems act i keys u).map fun u' => (offset + keys.flatten.length, u') := by
  induction n generalizing i offset u with
  | zero => rfl
  | succ n ih =>
      rw [List.range'_succ, Loop.through, walkPacked, readPacked]
      cases hsize : readWord keysBuffer (8 * i) with
      | none => rfl
      | some size =>
          cases hkey : readBytes keysBuffer (packed + offset) size with
          | none => simp [hkey]
          | some key =>
              have hlen : key.length = size := length_readBytes hkey
              simp only [hkey, Option.bind_eq_bind, Option.bind_some]
              cases hact : act i key u with
              | none =>
                  cases readPacked keysBuffer packed n (i + 1) (offset + size) with
                  | none => rfl
                  | some keys => simp [forItems, hact]
              | some u' =>
                  simp only [Option.bind_some, ih]
                  cases readPacked keysBuffer packed n (i + 1) (offset + size) with
                  | none => rfl
                  | some keys => simp [forItems, hact, hlen, Nat.add_assoc]

/-- A property of the state that every key keeps holds in the end. -/
theorem forItems_invariant (act : ℕ → Bulk → υ → Option υ) (I : ℕ → υ → Prop)
    {keys : List Bulk}
    (hstep : ∀ i key u, keys[i]? = some key → I i u →
      ∃ u', act i key u = some u' ∧ I (i + 1) u') {u : υ} (hu : I 0 u) :
    ∃ u', forItems act 0 keys u = some u' ∧ I keys.length u' := by
  have hfrom : ∀ (rest before : List Bulk), before ++ rest = keys → ∀ u, I before.length u →
      ∃ u', forItems act before.length rest u = some u' ∧ I keys.length u' := by
    intro rest
    induction rest with
    | nil =>
        intro before hkeys u hu
        rw [List.append_nil] at hkeys
        subst hkeys
        exact ⟨u, rfl, hu⟩
    | cons key rest ih =>
        intro before hkeys u hu
        have hkey : keys[before.length]? = some key := by simp [← hkeys]
        obtain ⟨u₁, hact, hu₁⟩ := hstep before.length key u hkey hu
        have hrest := ih (before ++ [key]) (by simpa using hkeys) u₁ (by simpa using hu₁)
        rw [List.length_append, List.length_singleton] at hrest
        rw [forItems, hact, Option.bind_some]
        exact hrest
  exact hfrom keys [] rfl u hu

/-- A walk ends when its counter can hold the number of keys, all of them are inside of the
buffer, and what is done with them does not fault. -/
theorem walkPacked_ends_iff {keysBuffer : Bulk} {packed n : ℕ} {act : ℕ → Bulk → υ → Option υ}
    {u : υ} {t : ℕ × υ} :
    (∃ fuel, Loop.counted 32 n (walkPacked keysBuffer packed act) fuel 0 (0, u) = .done t) ↔
      n < 2 ^ 32 ∧ ∃ keys, readPacked keysBuffer packed n 0 0 = some keys ∧
        ∃ u', forItems act 0 keys u = some u' ∧ t = (keys.flatten.length, u') := by
  rw [Loop.ends_iff, List.range_eq_range', through_walkPacked]
  simp only [Option.bind_eq_some_iff, Option.map_eq_some_iff, Nat.zero_add]
  constructor
  · rintro ⟨hn, keys, hkeys, u', hact, rfl⟩
    exact ⟨hn, keys, hkeys, u', hact, rfl⟩
  · rintro ⟨hn, keys, hkeys, u', hact, rfl⟩
    exact ⟨hn, keys, hkeys, u', hact, rfl⟩

end Walk

end Sdskv
