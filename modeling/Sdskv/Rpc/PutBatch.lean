import Sdskv.Rpc.Multi

/-!
# The batched puts

`sdskv_put_multi` exposes two regions, each an array of sizes followed by the data; empty
values have no segment of their own. `sdskv_put_packed` exposes one region with both arrays in
front of packed keys and packed values. The counters of the client are an `int` in the first
function and an `unsigned` in the second, and those of the handlers are `unsigned`.

The handlers hand regions of their local buffers to the datastore, a pointer with a size each.
A pointer is what lies behind it in the buffer, so a region that leaves the buffer is one that
is longer than what its pointer has. Which of the regions the datastore reads is up to the
backend: a LevelDB put that is refused does not read its value, and neither does a BerkeleyDB
buffer that is full.
-/

namespace Sdskv

open Wire

/-- `put_multi_in_t`. -/
structure PutMultiIn where
  dbId : UInt64
  numKeys : ℕ
  keysBulkHandle : HgBulk
  keysBulkSize : ℕ
  valsBulkHandle : HgBulk
  valsBulkSize : ℕ

/-- `put_packed_in_t`. -/
structure PutPackedIn where
  dbId : UInt64
  originAddr : Option HgString
  numKeys : ℕ
  bulkSize : ℕ
  bulkHandle : HgBulk

/-- The bytes that the datastore reads of a region that it is given. -/
def readRegion (region : Pointer × ℕ) : Option Bulk := readBytes region.1 0 region.2

/-- The regions that a datastore reads of those that a batched put hands to it. -/
abbrev RegionReads (σ : Type) := σ → List (Pointer × ℕ) → List (Pointer × ℕ)

/-- The datastore reads all regions that it is handed, and no others. -/
def ReadsAll {σ : Type} (reads : RegionReads σ) : Prop := ∀ s regions, reads s regions = regions

/-- The datastore reads no regions but those that it is handed. -/
def ReadsWithin {σ : Type} (reads : RegionReads σ) : Prop := ∀ s regions, reads s regions ⊆ regions

theorem ReadsAll.within {σ : Type} {reads : RegionReads σ} (h : ReadsAll reads) :
    ReadsWithin reads := by
  intro s regions
  rw [h s regions]
  exact List.Subset.refl regions

/-- The local variables of the loop in `sdskv_put_multi_ult`; the sizes stand next to their
pointers. -/
structure PutPointers where
  kptrs : List (Pointer × ℕ)
  vptrs : List (Pointer × ℕ)
  keysOffset : ℕ
  valsOffset : ℕ

/-- The local variables in front of the loop. -/
def PutPointers.start (numKeys : ℕ) : PutPointers :=
  { kptrs := [], vptrs := [], keysOffset := sizesBytes numKeys,
    valsOffset := sizesBytes numKeys }

/-- The iteration of `sdskv_put_multi_ult`; an empty value gets a null pointer. -/
def putPointersBody (keysBuffer valsBuffer : Bulk) (i : ℕ) (t : PutPointers) :
    Option PutPointers := do
  let vsize ← readWord valsBuffer (8 * i)
  let ksize ← readWord keysBuffer (8 * i)
  some
    { kptrs := t.kptrs ++ [(keysBuffer.drop t.keysOffset, ksize)]
      vptrs := t.vptrs ++ [(if vsize = 0 then [] else valsBuffer.drop t.valsOffset, vsize)]
      keysOffset := (t.keysOffset + ksize) % 2 ^ 64
      valsOffset := (t.valsOffset + vsize) % 2 ^ 64 }

/-- The loop of `sdskv_put_multi_ult` over its two local buffers. -/
def putPointers (fuel numKeys : ℕ) (buffers : Bulk × Bulk) : Loop.Run PutPointers :=
  Loop.counted 32 numKeys (putPointersBody buffers.1 buffers.2) fuel 0 (PutPointers.start numKeys)

/-- The regions of the given sizes that `put_packed` walks over from a pointer on. -/
def packedRegions (pointer : Pointer) : ℕ → List ℕ → List (Pointer × ℕ)
  | _, [] => []
  | offset, size :: sizes =>
      (pointer.drop offset, size) :: packedRegions pointer ((offset + size) % 2 ^ 64) sizes

section Handlers

variable {σ : Type} (ds : DatastoreWrites σ) (reads : RegionReads σ) (calls : BulkCalls)
  (fuel : ℕ) (dbs : Databases σ)

/-- The two local buffers of `sdskv_put_multi_ult`. -/
def PutMultiIn.receive (input : PutMultiIn) : Except ℕ (Bulk × Bulk) :=
  calls.receive do
    let keys ← calls.pull input.keysBulkHandle input.keysBulkSize
      (List.replicate input.keysBulkSize 0)
    let vals ← calls.pull input.valsBulkHandle input.valsBulkSize
      (List.replicate input.valsBulkSize 0)
    .ok (keys, vals)

/-- The call of `put_multi`, with the bytes that the datastore reads. -/
def callPutMulti (s : σ) (t : PutPointers) : Option (Int × σ) := do
  let _ ← (reads s (t.kptrs ++ t.vptrs)).mapM readRegion
  let (ret, s') := ds.putMulti s t.kptrs t.vptrs
  some (ret.code, s')

/-- `sdskv_put_multi_ult`. -/
def sdskvPutMultiUlt (input : PutMultiIn) : Loop.Run (Int × Databases σ) :=
  serveMulti dbs input.dbId id (input.receive calls) fun buffers s =>
    (putPointers fuel input.numKeys buffers).bind fun t => .ofOption (callPutMulti ds reads s t)

/-- The local buffer of `sdskv_put_packed_ult`. -/
def PutPackedIn.receive (input : PutPackedIn) : Except ℕ Bulk :=
  calls.receive
    (calls.pull input.bulkHandle input.bulkSize (List.replicate input.bulkSize 0))

/-- `for (i = 0; i < num_keys; i++) k += key_sizes[i]`. -/
def keySizesBody (localBuffer : Bulk) (i k : ℕ) : Option ℕ :=
  (readWord localBuffer (8 * i)).map fun size => (k + size) % 2 ^ 64

/-- The arguments of `put_packed`. -/
structure PackedArgs where
  keys : Pointer
  ksizes : List ℕ
  values : Pointer
  vsizes : List ℕ

/-- The regions that `put_packed` is handed. -/
def PackedArgs.regions (args : PackedArgs) : List (Pointer × ℕ) :=
  packedRegions args.keys 0 args.ksizes ++ packedRegions args.values 0 args.vsizes

/-- What `sdskv_put_packed_ult` hands to `put_packed`: the pointers into its buffer, where `k` is
the sum of the key sizes, and both arrays of sizes, which the datastore reads. -/
def packedArgs (localBuffer : Bulk) (numKeys k : ℕ) : Option PackedArgs := do
  let keySizes ← readWords localBuffer 0 numKeys
  let valSizes ← readWords localBuffer numKeys numKeys
  let packedKeys := localBuffer.drop (8 * numKeys + 8 * numKeys)
  some { keys := packedKeys, ksizes := keySizes, values := packedKeys.drop k, vsizes := valSizes }

/-- The loop of `sdskv_put_packed_ult` over its local buffer, up to the call of `put_packed`. -/
def putPackedArgs (fuel numKeys : ℕ) (localBuffer : Bulk) : Loop.Run PackedArgs :=
  (Loop.counted 32 numKeys (keySizesBody localBuffer) fuel 0 0).bind fun k =>
    .ofOption (packedArgs localBuffer numKeys k)

/-- The call of `put_packed`, with the bytes that the datastore reads. -/
def callPutPacked (s : σ) (args : PackedArgs) : Option (Int × σ) := do
  let _ ← (reads s args.regions).mapM readRegion
  let (ret, s') := ds.putPacked s args.keys args.ksizes args.values args.vsizes
  some (ret.code, s')

/-- `sdskv_put_packed_ult`. -/
def sdskvPutPackedUlt (input : PutPackedIn) : Loop.Run (Int × Databases σ) :=
  serveMulti dbs input.dbId id (input.receive calls) fun localBuffer s =>
    (putPackedArgs fuel input.numKeys localBuffer).bind fun args =>
      .ofOption (callPutPacked ds reads s args)

end Handlers

section Client

/-- The message of `sdskv_put_multi`; `none` when the counter of a loop over the segments
overflows. -/
def putMultiIn (dbId : UInt64) (keys values : List KvData) : Option PutMultiIn := do
  let nonEmptyValues := values.filter fun v => v.data.length ≠ 0
  let keysBulkSize ← signedSum (sizesBytes keys.length :: keys.map fun k => k.data.length)
  let _ ← Loop.signedIndices 32 values.length
  let valsBulkSize ← signedSum
    (sizesBytes keys.length :: nonEmptyValues.map fun v => v.data.length)
  some
    { dbId := dbId
      numKeys := keys.length
      keysBulkHandle :=
        arrayBytes 8 (keys.map fun k => k.data.length) :: keys.map KvData.data
      keysBulkSize := keysBulkSize
      valsBulkHandle :=
        arrayBytes 8 (values.map fun v => v.data.length) :: nonEmptyValues.map KvData.data
      valsBulkSize := valsBulkSize }

/-- The message of `sdskv_put_packed`; the region of the values is left out when it is empty.
`none` when the loop that adds up both arrays does not end. -/
def putPackedIn (dbId : UInt64) (packedKeys : Pointer) (ksizes : List ℕ)
    (packedValues : Pointer) (vsizes : List ℕ) : Option PutPackedIn := do
  let keysBufferSize ← unsignedSum ksizes
  let valsBufferSize ← unsignedSum vsizes
  let segs := [arrayBytes 8 ksizes, arrayBytes 8 vsizes,
    bulkOfPointer packedKeys keysBufferSize, bulkOfPointer packedValues valsBufferSize]
  some
    { dbId := dbId
      originAddr := none
      numKeys := ksizes.length
      bulkSize := (keysBufferSize + valsBufferSize + 2 * ksizes.length * 8) % 2 ^ 64
      bulkHandle := segs.take (if valsBufferSize = 0 then 3 else 4) }

variable {σ : Type} (ds : DatastoreWrites σ) (reads : RegionReads σ) (calls : BulkCalls)
  (fuel : ℕ) (dbs : Databases σ) (dbId : UInt64)

/-- `sdskv_put_multi`, when the calls of the client succeed: a key of size zero is refused
before anything is sent. A counter that overflows leaves the behaviour undefined. -/
def sdskvPutMulti (keys values : List KvData) : Loop.Run (Int × Databases σ) :=
  if (keys.take (2 ^ 31)).any fun k => k.data.length = 0 then
    .done (SdskvReturn.errInvalidArg.code, dbs)
  else
    match putMultiIn dbId keys values with
    | none => .fault
    | some input => sdskvPutMultiUlt ds reads calls fuel dbs input

/-- `sdskv_put_packed`, when the calls of the client succeed. -/
def sdskvPutPacked (packedKeys : Pointer) (ksizes : List ℕ) (packedValues : Pointer)
    (vsizes : List ℕ) : Loop.Run (Int × Databases σ) :=
  match putPackedIn dbId packedKeys ksizes packedValues vsizes with
  | none => .running
  | some input => sdskvPutPackedUlt ds reads calls fuel dbs input

end Client

section Receive

variable {calls : BulkCalls}

theorem PutMultiIn.receive_succeeding {input : PutMultiIn} (calls : BulkCalls)
    (buffers : Bulk × Bulk) (h : input.receive calls = .ok buffers) :
    input.receive .succeeding = .ok buffers := by
  obtain ⟨hkeys, hvals⟩ := BulkCalls.both_eq_ok h
  exact BulkCalls.both_succeeding (BulkCalls.pull_succeeding hkeys)
    (BulkCalls.pull_succeeding hvals)

theorem PutPackedIn.receive_succeeding {input : PutPackedIn} (calls : BulkCalls)
    (buffer : Bulk) (h : input.receive calls = .ok buffer) :
    input.receive .succeeding = .ok buffer :=
  BulkCalls.pull_succeeding (BulkCalls.receive_eq_ok h)

end Receive

end Sdskv
