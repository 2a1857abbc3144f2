import Sdskv.Loop.Visits
import Sdskv.Rpc.Bounds.Requests

/-!
# The counters of the loops over the keys

The nine handlers go through the keys of a request with an `unsigned int`, while the number of
keys is an `hg_size_t`. The loops of the datastore behind the batched puts have a counter of
type `hg_size_t`, so they reach every number of keys.
-/

namespace Sdskv

open Loop (VisitsOnce VisitsOnceUntil)
open Wire

section Datastore

variable {σ : Type} (put : σ → Pointer → ℕ → Pointer → ℕ → SdskvReturn × σ)

/-- The iteration of `AbstractDataStore::put_multi`. -/
def putMultiBody (keys values : List (Pointer × ℕ)) (i : ℕ) (t : SdskvReturn × σ) :
    Option (SdskvReturn × σ) := do
  let key ← keys[i]?
  let value ← values[i]?
  let (r, s) := put t.2 key.1 key.2 value.1 value.2
  some (if t.1 = .success then r else .success, s)

/-- The local variables of `AbstractDataStore::put_packed`. -/
structure PutPackedState (σ : Type) where
  ret : SdskvReturn
  db : σ
  keysOffset : ℕ
  valsOffset : ℕ

/-- The iteration of `AbstractDataStore::put_packed`. -/
def putPackedBody (keys : Pointer) (ksizes : List ℕ) (values : Pointer) (vsizes : List ℕ) (i : ℕ)
    (t : PutPackedState σ) : Option (PutPackedState σ) := do
  let ksize ← ksizes[i]?
  let vsize ← vsizes[i]?
  let (r, s) := put t.db (keys.drop t.keysOffset) ksize (values.drop t.valsOffset) vsize
  some
    { ret := if t.ret = .success then r else .success
      db := s
      keysOffset := t.keysOffset + ksize
      valsOffset := t.valsOffset + vsize }

/-- The iterations from an index on are the loop on the rest of the arrays. -/
theorem through_putMultiBody {keys values : List (Pointer × ℕ)} {m i : ℕ}
    (hkeys : keys.length = i + m) (hvalues : values.length = i + m) (t : SdskvReturn × σ) :
    Loop.through (putMultiBody put keys values) (List.range' i m) t =
      some (putMultiLoop put t.1 t.2 (keys.drop i) (values.drop i)) := by
  induction m generalizing i t with
  | zero =>
      rw [List.drop_eq_nil_of_le (by omega), List.drop_eq_nil_of_le (by omega)]
      rfl
  | succ m ih =>
      have hk : i < keys.length := by omega
      have hv : i < values.length := by omega
      rw [List.range'_succ, Loop.through, putMultiBody, List.getElem?_eq_getElem hk,
        List.getElem?_eq_getElem hv, Option.bind_eq_bind, Option.bind_some, Option.bind_some,
        Option.bind_some, ih (by omega) (by omega), List.drop_eq_getElem_cons hk,
        List.drop_eq_getElem_cons hv, putMultiLoop]

theorem through_putPackedBody (keys values : Pointer) {ksizes vsizes : List ℕ} {m i : ℕ}
    (hksizes : ksizes.length = i + m) (hvsizes : vsizes.length = i + m) (t : PutPackedState σ) :
    ∃ t', Loop.through (putPackedBody put keys ksizes values vsizes) (List.range' i m) t =
        some t' ∧
      (t'.ret, t'.db) = putPackedLoop put keys values t.ret t.db t.keysOffset t.valsOffset
        (ksizes.drop i) (vsizes.drop i) := by
  induction m generalizing i t with
  | zero =>
      rw [List.drop_eq_nil_of_le (by omega), List.drop_eq_nil_of_le (by omega)]
      exact ⟨t, rfl, rfl⟩
  | succ m ih =>
      have hk : i < ksizes.length := by omega
      have hv : i < vsizes.length := by omega
      rw [List.range'_succ, Loop.through, putPackedBody, List.getElem?_eq_getElem hk,
        List.getElem?_eq_getElem hv, Option.bind_eq_bind, Option.bind_some, Option.bind_some,
        Option.bind_some, List.drop_eq_getElem_cons hk, List.drop_eq_getElem_cons hv,
        putPackedLoop]
      exact ih (by omega) (by omega) _

/-- The loop of `put_multi` with its counter: it visits every index of every batch. -/
theorem visitsOnce_putMultiBody_iff {keys values : List (Pointer × ℕ)}
    (hvalues : values.length = keys.length) (s : σ) (r : SdskvReturn × σ) :
    VisitsOnce 64 keys.length (putMultiBody put keys values) (.success, s) r ↔
      keys.length < 2 ^ 64 ∧ putMulti put s keys values = r := by
  rw [Loop.visitsOnce_iff, List.range_eq_range', through_putMultiBody put (Nat.zero_add _).symm
    (by omega), Option.some.injEq, List.drop_zero, List.drop_zero]
  rfl

end Datastore

section Handlers

variable {σ : Type} (ds : DatastoreReads σ)
  (put : σ → Pointer → ℕ → Pointer → ℕ → SdskvReturn × σ) (dbs : Databases σ)

/-- The local variables in front of the loop of `sdskv_get_packed_ult`. -/
def getPackedStart (input : GetMultiIn) (s : σ) : GetPackedState σ :=
  { db := s
    keysOffset := 0
    vals := List.replicate input.valsBulkSize 0
    valsOffset := 0
    availableClientMemory :=
      (input.valsBulkSize + (2 ^ 64 - sizesBytes input.numKeys)) % 2 ^ 64
    numKeys := 0
    ret := .success }

namespace BatchedRequest

/-- `in.num_keys`. -/
def numKeys : BatchedRequest → ℕ
  | .putMulti input => input.numKeys
  | .putPacked input => input.numKeys
  | .getMulti input | .getPacked input => input.numKeys
  | .lengthMulti input | .lengthPacked input | .existsMulti input | .eraseMulti input =>
      input.numKeys
  | .migrateKeys input => input.numKeys

/-- The database is known and the transfers succeed, so that the handler comes to its loop. -/
def ComesToLoop : BatchedRequest → Prop
  | .putMulti input => ∃ s buffers, dbs input.dbId = some s ∧
      input.receive .succeeding = .ok buffers
  | .putPacked input => ∃ s buffer, dbs input.dbId = some s ∧
      input.receive .succeeding = .ok buffer
  | .getMulti input => ∃ s buffers, dbs input.dbId = some s ∧
      input.receive .succeeding = .ok buffers
  | .getPacked input => ∃ s buffer, dbs input.dbId = some s ∧
      input.toKeysIn.receive .succeeding = .ok buffer
  | .lengthMulti input | .lengthPacked input | .existsMulti input | .eraseMulti input =>
      ∃ s buffer, dbs input.dbId = some s ∧ input.receive .succeeding = .ok buffer
  | .migrateKeys input => ∃ s buffer, dbs input.sourceDbId = some s ∧
      input.receive .succeeding = .ok buffer

/-- A walk over the keys visits every index once. -/
def WalkVisits {υ : Type} (input : KeysIn) (act : ℕ → Bulk → υ → Option υ) (start : σ → υ) :
    Prop :=
  OnReceived dbs input.dbId (input.receive .succeeding) fun keysBuffer s =>
    ∃ t, VisitsOnce 32 input.numKeys (walkPacked keysBuffer (sizesBytes input.numKeys) act)
      (0, start s) t

/-- The loop over the keys in the handler of the request ends and visits every index once, and
so does that of the datastore behind it; a migration is one whose puts succeed. -/
def VisitsEachKey : BatchedRequest → Prop
  | .putMulti input => OnReceived dbs input.dbId (input.receive .succeeding) fun buffers s =>
      ∃ t r, VisitsOnce 32 input.numKeys (putPointersBody buffers.1 buffers.2)
          (PutPointers.start input.numKeys) t ∧
        VisitsOnce 64 input.numKeys (putMultiBody put t.kptrs t.vptrs) (.success, s) r
  | .putPacked input => OnReceived dbs input.dbId (input.receive .succeeding)
      fun localBuffer s => ∃ k keySizes valSizes r,
        VisitsOnce 32 input.numKeys (keySizesBody localBuffer) 0 k ∧
        readWords localBuffer 0 input.numKeys = some keySizes ∧
        readWords localBuffer input.numKeys input.numKeys = some valSizes ∧
        VisitsOnce 64 input.numKeys
          (putPackedBody put (localBuffer.drop (8 * input.numKeys + 8 * input.numKeys)) keySizes
            ((localBuffer.drop (8 * input.numKeys + 8 * input.numKeys)).drop k) valSizes)
          { ret := .success, db := s, keysOffset := 0, valsOffset := 0 } r
  | .getMulti input => OnReceived dbs input.dbId (input.receive .succeeding) fun buffers s =>
      ∃ t, VisitsOnce 32 input.numKeys
        (walkPacked buffers.1 (sizesBytes input.numKeys)
          (getMultiAct ds (sizesBytes input.numKeys))) (0, s, buffers.2, 0) t
  | .getPacked input => OnReceived dbs input.dbId (input.toKeysIn.receive .succeeding)
      fun keysBuffer s => ∃ t, VisitsOnce 32 input.numKeys
        (getPackedBody ds keysBuffer (sizesBytes input.numKeys)) (getPackedStart input s) t
  | .lengthMulti input | .lengthPacked input =>
      WalkVisits dbs input (lengthAct ds) fun s => (s, List.replicate input.numKeys 0)
  | .existsMulti input => WalkVisits dbs input (existsAct ds) fun s =>
      (s, List.replicate (flagsBytes input.numKeys) 0, 1)
  | .eraseMulti input => WalkVisits dbs input (eraseAct ds) fun s => s
  | .migrateKeys input => OnReceived dbs input.sourceDbId (input.receive .succeeding)
      fun buffer s => ∃ t, VisitsOnceUntil 32 input.numKeys
        (migrateKeysBody ds input.flag (fun _ => true) buffer (sizesBytes input.numKeys))
        (0, s) t

end BatchedRequest

variable {ds put dbs}

/-- A loop that is bounded by its counter and safe on what is received. -/
theorem onReceived_iff_of_lt {β : Type} {dbId : UInt64} {received : Except ℕ β}
    {V P : β → σ → Prop} {n : ℕ} (hbound : ∀ buffers s, V buffers s → n < 2 ^ 32)
    (hfits : n < 2 ^ 32 → OnReceived dbs dbId received P)
    (hvisits : n < 2 ^ 32 → ∀ buffers s, received = .ok buffers → P buffers s → V buffers s) :
    OnReceived dbs dbId received V ↔
      ((∃ s buffers, dbs dbId = some s ∧ received = .ok buffers) → n < 2 ^ 32) := by
  constructor
  · rintro hV ⟨s, buffers, hdb, hbuffers⟩
    exact hbound buffers s (hV s buffers hdb hbuffers)
  · intro hlt s buffers hdb hbuffers
    have hn := hlt ⟨s, buffers, hdb, hbuffers⟩
    exact hvisits hn buffers s hbuffers (hfits hn s buffers hdb hbuffers)

theorem walkVisits_iff {υ : Type} {input : KeysIn} {act : ℕ → Bulk → υ → Option υ}
    {start : σ → υ} (I : υ → Prop) (hstart : ∀ s, I (start s))
    (hact : ∀ i key u, i < input.numKeys → I u → ∃ u', act i key u = some u' ∧ I u')
    (hfits : input.numKeys < 2 ^ 32 → OnReceived dbs input.dbId (input.receive .succeeding)
      fun keysBuffer _ => KeysFit keysBuffer input.numKeys) :
    BatchedRequest.WalkVisits dbs input act start ↔
      ((∃ s buffer, dbs input.dbId = some s ∧ input.receive .succeeding = .ok buffer) →
        input.numKeys < 2 ^ 32) := by
  refine onReceived_iff_of_lt ?_ hfits ?_
  · rintro keysBuffer s ⟨t, ht⟩
    exact ht.lt
  · intro hn keysBuffer s _ hkeys
    exact Loop.exists_visitsOnce hn (walkPacked_safe hkeys (hstart s) hact)

theorem length_packedRegions (pointer : Pointer) (offset : ℕ) (sizes : List ℕ) :
    (packedRegions pointer offset sizes).length = sizes.length := by
  induction sizes generalizing offset with
  | nil => rfl
  | cons size sizes ih => rw [packedRegions, List.length_cons, ih, List.length_cons]

theorem length_wordsFrom (buffer : Bulk) (i n : ℕ) : (wordsFrom buffer i n).length = n := by
  rw [wordsFrom, List.length_map, List.length_range']

/-- Both loops of a put, over buffers that hold the sizes. -/
theorem exists_visitsOnce_putMulti {keysBuffer valsBuffer : Bulk} {n : ℕ} (hn : n < 2 ^ 32)
    (hkeys : 8 * n ≤ keysBuffer.length) (hvals : 8 * n ≤ valsBuffer.length) (s : σ) :
    ∃ t r, VisitsOnce 32 n (putPointersBody keysBuffer valsBuffer) (PutPointers.start n) t ∧
      VisitsOnce 64 n (putMultiBody put t.kptrs t.vptrs) (.success, s) r := by
  rw [← Nat.zero_add n] at hkeys hvals
  obtain ⟨t, hthrough, hkptrs, hvptrs⟩ :=
    through_putPointersBody hkeys hvals (PutPointers.start n)
  have hkptrsLength : t.kptrs.length = n := by
    rw [hkptrs, PutPointers.start, List.nil_append, length_packedRegions, length_wordsFrom]
  have hvptrsLength : t.vptrs.length = n := by
    rw [hvptrs, PutPointers.start, List.nil_append, List.length_map, length_packedRegions,
      length_wordsFrom]
  refine ⟨t, putMulti put s t.kptrs t.vptrs, ?_, ?_⟩
  · rw [Loop.visitsOnce_iff, List.range_eq_range']
    exact ⟨hn, hthrough⟩
  · have hdatastore := visitsOnce_putMultiBody_iff put
      (hvptrsLength.trans hkptrsLength.symm) s (putMulti put s t.kptrs t.vptrs)
    rw [hkptrsLength] at hdatastore
    exact hdatastore.2 ⟨by omega, rfl⟩

/-- Both loops of a packed put, over a buffer that holds the two arrays of sizes. -/
theorem exists_visitsOnce_putPacked {localBuffer : Bulk} {n : ℕ} (hn : n < 2 ^ 32)
    (hlength : 16 * n ≤ localBuffer.length) (s : σ) :
    ∃ k keySizes valSizes r, VisitsOnce 32 n (keySizesBody localBuffer) 0 k ∧
      readWords localBuffer 0 n = some keySizes ∧ readWords localBuffer n n = some valSizes ∧
      VisitsOnce 64 n
        (putPackedBody put (localBuffer.drop (8 * n + 8 * n)) keySizes
          ((localBuffer.drop (8 * n + 8 * n)).drop k) valSizes)
        { ret := .success, db := s, keysOffset := 0, valsOffset := 0 } r := by
  obtain ⟨k, hk⟩ : ∃ k, Loop.through (keySizesBody localBuffer) (List.range' 0 n) 0 = some k :=
    ⟨_, by rw [through_keySizesBody, if_pos (by omega)]⟩
  obtain ⟨r, hr, -⟩ := through_putPackedBody put (localBuffer.drop (8 * n + 8 * n))
    ((localBuffer.drop (8 * n + 8 * n)).drop k)
    (show (wordsFrom localBuffer 0 n).length = 0 + n by rw [length_wordsFrom, Nat.zero_add])
    (show (wordsFrom localBuffer n n).length = 0 + n by rw [length_wordsFrom, Nat.zero_add])
    { ret := .success, db := s, keysOffset := 0, valsOffset := 0 }
  refine ⟨k, wordsFrom localBuffer 0 n, wordsFrom localBuffer n n, r, ?_, ?_, ?_, ?_⟩
  · rw [Loop.visitsOnce_iff, List.range_eq_range']
    exact ⟨hn, hk⟩
  · rw [readWords_eq, if_pos (by omega)]
  · rw [readWords_eq, if_pos (by omega)]
  · rw [Loop.visitsOnce_iff, List.range_eq_range']
    exact ⟨by omega, hr⟩

/-- The loops over the keys visit every index once and end exactly when their counter can hold
the number of keys. The buffers are those of a request whose sizes are right; with more keys
nothing is asked of them. -/
theorem BatchedRequest.visitsEachKey_iff {view : σ → Bulk → Option Bulk}
    (h : ServesReads ds view) (put : σ → Pointer → ℕ → Pointer → ℕ → SdskvReturn × σ)
    (dbs : Databases σ) (request : BatchedRequest) (hsizes : request.HgSizes)
    (hfits : request.numKeys < 2 ^ 32 → WellSized view dbs request) :
    request.VisitsEachKey ds put dbs ↔
      (request.ComesToLoop dbs → request.numKeys < 2 ^ 32) := by
  cases request with
  | putMulti input =>
      refine onReceived_iff_of_lt ?_ hfits ?_
      · rintro buffers s ⟨t, r, ht, -⟩
        exact ht.lt
      · intro (hn : input.numKeys < 2 ^ 32) buffers s _ hsized
        rw [PutMultiFits, if_pos hn] at hsized
        exact exists_visitsOnce_putMulti hn (by omega) (by omega) s
  | putPacked input =>
      refine onReceived_iff_of_lt ?_ hfits ?_
      · rintro localBuffer s ⟨k, keySizes, valSizes, r, ht, -⟩
        exact ht.lt
      · intro (hn : input.numKeys < 2 ^ 32) localBuffer s _ hsized
        rw [PutPackedFits, if_pos hn] at hsized
        exact exists_visitsOnce_putPacked hn (by omega) s
  | getMulti input =>
      refine onReceived_iff_of_lt ?_ hfits ?_
      · rintro buffers s ⟨t, ht⟩
        exact ht.lt
      · intro hn buffers s _ hsized
        exact Loop.exists_visitsOnce hn ((getMultiLoop_safe_iff_of_lt h s hn).2 hsized)
  | getPacked input =>
      refine onReceived_iff_of_lt ?_ hfits ?_
      · rintro keysBuffer s ⟨t, ht⟩
        exact ht.lt
      · intro hn keysBuffer s _ hsized
        exact Loop.exists_visitsOnce hn
          ((getPackedLoop_safe_iff hn hsizes.2.2 h keysBuffer s).2 hsized.2)
  | lengthMulti input =>
      exact walkVisits_iff (fun t => t.2.length = input.numKeys)
        (fun s => List.length_replicate) (fun i key t => exists_lengthAct) hfits
  | lengthPacked input =>
      exact walkVisits_iff (fun t => t.2.length = input.numKeys)
        (fun s => List.length_replicate) (fun i key t => exists_lengthAct) hfits
  | existsMulti input =>
      exact walkVisits_iff (fun t => t.2.1.length = flagsBytes input.numKeys)
        (fun s => List.length_replicate) (fun i key t => exists_existsAct) hfits
  | eraseMulti input =>
      exact walkVisits_iff (fun _ => True) (fun s => trivial)
        (fun i key s _ _ => ⟨_, rfl, trivial⟩) hfits
  | migrateKeys input =>
      refine onReceived_iff_of_lt ?_ hfits ?_
      · rintro buffer s ⟨t, ht⟩
        rw [Loop.visitsOnceUntil_iff (migrateKeysBody_of_forwarded input.flag buffer _)] at ht
        exact ht.lt
      · intro hn buffer s _ hkeys
        simp only [Loop.visitsOnceUntil_iff (migrateKeysBody_of_forwarded input.flag buffer _)]
        exact Loop.exists_visitsOnce hn (walkPacked_safe hkeys (I := fun _ => True) trivial
          fun i key s _ _ => exists_migrateAct input.flag i key s)

end Handlers

theorem visitsEachKey_byteGet :
    (BatchedRequest.getMulti byteGet).VisitsEachKey MapDataStore.reads MapDataStore.putRaw
      (oneDatabase bindsByteKey) :=
  (BatchedRequest.visitsEachKey_iff MapDataStore.servesReads MapDataStore.putRaw
    (oneDatabase bindsByteKey) (.getMulti byteGet) ⟨by decide, by decide, by decide⟩
    fun _ => wellSized_byteGet).2 fun _ => by decide

/-- A request for `n` empty keys: only their sizes are exposed. -/
def emptyKeys (n : ℕ) : KeysIn where
  dbId := 5
  numKeys := n
  keysBulkHandle := [List.replicate (8 * n) 0]
  keysBulkSize := 8 * n

theorem receive_emptyKeys (n : ℕ) :
    (emptyKeys n).receive .succeeding = .ok (List.replicate (8 * n) 0) := by
  have hpull : BulkCalls.succeeding.pull [List.replicate (8 * n) 0] (8 * n)
      (List.replicate (8 * n) 0) = .ok (List.replicate (8 * n) 0) := by
    simp [BulkCalls.pull, bulkPull]
  exact hpull

theorem keysFit_emptyKeys (n : ℕ) : KeysFit (List.replicate (8 * n) 0) n := by
  have hzero : ∀ m, (readArray 8 (List.replicate (8 * n) (0 : UInt8)) m).sum = 0 := by
    intro m
    rw [← wordsFrom_zero, wordsFrom]
    apply List.sum_eq_zero
    intro x hx
    obtain ⟨j, -, rfl⟩ := List.mem_map.1 hx
    rw [wordAt, List.drop_replicate, List.take_replicate, leValue_replicate_zero]
  rw [KeysFit, hzero, hzero, List.length_replicate]
  split_ifs with hn
  · exact Nat.le_refl _
  · exact ⟨by omega, rfl⟩

/-- The counter never reaches the number of keys, although the buffer holds all of them. -/
theorem not_visitsEachKey_emptyKeys :
    (BatchedRequest.eraseMulti (emptyKeys (2 ^ 32))).HgSizes ∧
      WellSized MapDataStore.get (oneDatabase bindsByteKey)
        (.eraseMulti (emptyKeys (2 ^ 32))) ∧
      ¬ (BatchedRequest.eraseMulti (emptyKeys (2 ^ 32))).VisitsEachKey MapDataStore.reads
        MapDataStore.putRaw (oneDatabase bindsByteKey) := by
  refine ⟨⟨by norm_num [emptyKeys], by norm_num [emptyKeys]⟩, ?_, ?_⟩
  · intro s buffer _ hreceived
    rw [receive_emptyKeys] at hreceived
    rw [← Except.ok.inj hreceived]
    exact keysFit_emptyKeys (2 ^ 32)
  · intro hvisits
    obtain ⟨t, ht⟩ := hvisits bindsByteKey _ rfl (receive_emptyKeys (2 ^ 32))
    exact absurd ht.lt (lt_irrefl _)

end Sdskv
