import Sdskv.Rpc.Backends
import Sdskv.Rpc.Batched
import Sdskv.Rpc.Bounds.GetMulti
import Sdskv.Rpc.ExistsMulti
import Sdskv.Rpc.GetPacked
import Sdskv.Rpc.PutEquivalence

/-!
# When a batched request stays inside of the local buffers

`WellSized` collects the conditions of the nine requests on what their handlers receive. A
request whose database is unknown or whose transfer is refused is well sized, since its
handler returns before its loop.
-/

namespace Sdskv

open Wire

/-- A property of what a handler finds in front of its loop, if it comes to it. -/
def OnReceived {σ β : Type} (dbs : Databases σ) (dbId : UInt64) (received : Except ℕ β)
    (P : β → σ → Prop) : Prop :=
  ∀ s buffers, dbs dbId = some s → received = .ok buffers → P buffers s

/-- The sizes of a request keep its handler inside of the local buffers. -/
def WellSized {σ : Type} (view : σ → Bulk → Option Bulk) (dbs : Databases σ) :
    BatchedRequest → Prop
  | .putMulti input => OnReceived dbs input.dbId (input.receive .succeeding)
      fun buffers _ => PutMultiFits buffers.1 buffers.2 input.numKeys
  | .putPacked input => OnReceived dbs input.dbId (input.receive .succeeding)
      fun localBuffer _ => PutPackedFits localBuffer input.numKeys
  | .getMulti input => OnReceived dbs input.dbId (input.receive .succeeding)
      fun buffers s => KeysFit buffers.1 input.numKeys ∧
        ValuesFit (view s) buffers.1 buffers.2 input.numKeys
  | .getPacked input => OnReceived dbs input.dbId (input.toKeysIn.receive .succeeding)
      fun keysBuffer s => input.numKeys < 2 ^ 32 ∧
        GetPackedFits (view s) keysBuffer input.numKeys input.valsBulkSize
  | .lengthMulti input | .lengthPacked input | .existsMulti input | .eraseMulti input =>
      OnReceived dbs input.dbId (input.receive .succeeding)
        fun keysBuffer _ => KeysFit keysBuffer input.numKeys
  | .migrateKeys input => OnReceived dbs input.sourceDbId (input.receive .succeeding)
      fun buffer _ => KeysFit buffer input.numKeys

section Handlers

variable {σ : Type} {ds : DatastoreReads σ} {reads : RegionReads σ} {dbs : Databases σ}

/-- A handler stays in its buffers exactly when its loop does on what it receives. The calls
that it makes decide whether it comes to the loop, and not what the loop accesses. -/
theorem onReceived_iff {α β : Type} {dbId : UInt64} {failed : Int → α}
    {received : BulkCalls → Except ℕ β}
    (hreceived : ∀ calls buffers, received calls = .ok buffers →
      received .succeeding = .ok buffers)
    {loop : BulkCalls → (ℕ → Bool) → ℕ → β → σ → Loop.Run (α × σ)}
    (Faults : (ℕ → Bool) → ℕ → β → σ → Prop)
    (hloop : ∀ calls forwarded fuel buffers s,
      loop calls forwarded fuel buffers s = .fault ↔ Faults forwarded fuel buffers s)
    {P : β → σ → Prop}
    (hP : ∀ buffers s, received .succeeding = .ok buffers →
      ((∀ forwarded fuel, ¬ Faults forwarded fuel buffers s) ↔ P buffers s)) :
    (∀ calls forwarded fuel,
      (serveMulti dbs dbId failed (received calls) (loop calls forwarded fuel)).map Prod.snd ≠
        .fault) ↔ OnReceived dbs dbId (received .succeeding) P := by
  simp only [ne_eq, Loop.Run.map_eq_fault_iff, serveMulti_eq_fault_iff, hloop]
  constructor
  · intro hsafe s buffers hdb hbuffers
    rw [← hP buffers s hbuffers]
    intro forwarded fuel hfault
    exact hsafe .succeeding forwarded fuel ⟨s, buffers, hdb, hbuffers, hfault⟩
  · rintro hfits calls forwarded fuel ⟨s, buffers, hdb, hbuffers, hfault⟩
    have hbuffers' := hreceived calls buffers hbuffers
    exact (hP buffers s hbuffers').2 (hfits s buffers hdb hbuffers') forwarded fuel hfault

section Puts

theorem inBounds_putMulti_iff (hreads : ReadsAll reads) (view : σ → Bulk → Option Bulk)
    {input : PutMultiIn} (hkeys : input.keysBulkSize < 2 ^ 64)
    (hvals : input.valsBulkSize < 2 ^ 64) :
    InBounds ds reads dbs (.putMulti input) ↔ WellSized view dbs (.putMulti input) := by
  apply onReceived_iff PutMultiIn.receive_succeeding
    (fun _ fuel buffers s => (putPointers fuel input.numKeys buffers).bind
      (fun t => .ofOption (callPutMulti ds.toDatastoreWrites reads s t)) = .fault)
  · intro calls forwarded fuel buffers s
    rfl
  · intro buffers s hreceived
    obtain ⟨hpullKeys, hpullVals⟩ := BulkCalls.both_eq_ok hreceived
    rw [forall_const]
    apply putMulti_safe_iff hreads
    · rw [BulkCalls.length_pull hpullKeys, List.length_replicate]
      exact hkeys
    · rw [BulkCalls.length_pull hpullVals, List.length_replicate]
      exact hvals

theorem inBounds_putPacked_iff (hreads : ReadsAll reads) (view : σ → Bulk → Option Bulk)
    {input : PutPackedIn} (hsize : input.bulkSize < 2 ^ 64) :
    InBounds ds reads dbs (.putPacked input) ↔ WellSized view dbs (.putPacked input) := by
  apply onReceived_iff PutPackedIn.receive_succeeding
    (fun _ fuel localBuffer s => (putPackedArgs fuel input.numKeys localBuffer).bind
      (fun args => .ofOption (callPutPacked ds.toDatastoreWrites reads s args)) = .fault)
  · intro calls forwarded fuel localBuffer s
    rfl
  · intro localBuffer s hreceived
    rw [forall_const]
    apply putPacked_safe_iff hreads
    rw [BulkCalls.length_pull (BulkCalls.receive_eq_ok hreceived), List.length_replicate]
    exact hsize

/-- A request that is in bounds when the datastore reads all regions that it is handed is so
when it reads fewer. -/
theorem inBounds_of_within {all : RegionReads σ} (hreads : ReadsWithin reads) (hall : ReadsAll all)
    {request : BatchedRequest} (h : InBounds ds all dbs request) :
    InBounds ds reads dbs request := by
  cases request with
  | putMulti input =>
      intro calls forwarded fuel hfault
      apply h calls forwarded fuel
      simp only [serveBatched, sdskvPutMultiUlt, Loop.Run.map_eq_fault_iff, serveMulti_eq_fault_iff,
        Loop.Run.bind_eq_fault_iff, Loop.Run.ofOption_eq_fault_iff] at hfault ⊢
      obtain ⟨s, buffers, hdb, hbuffers, hfault⟩ := hfault
      refine ⟨s, buffers, hdb, hbuffers, hfault.imp_right ?_⟩
      rintro ⟨t, hdone, hnone⟩
      refine ⟨t, hdone, ?_⟩
      by_contra hsafe
      exact callPutMulti_ne_none_of_within hreads hall hsafe hnone
  | putPacked input =>
      intro calls forwarded fuel hfault
      apply h calls forwarded fuel
      simp only [serveBatched, sdskvPutPackedUlt, Loop.Run.map_eq_fault_iff,
        serveMulti_eq_fault_iff, Loop.Run.bind_eq_fault_iff,
        Loop.Run.ofOption_eq_fault_iff] at hfault ⊢
      obtain ⟨s, buffer, hdb, hbuffer, hfault⟩ := hfault
      refine ⟨s, buffer, hdb, hbuffer, hfault.imp_right ?_⟩
      rintro ⟨args, hdone, hnone⟩
      refine ⟨args, hdone, ?_⟩
      by_contra hsafe
      exact callPutPacked_ne_none_of_within hreads hall hsafe hnone
  | _ => exact h

end Puts

section Keys

variable {input : KeysIn}

/-- The handlers that only walk over the keys. -/
theorem walk_inBounds_iff {α υ : Type} {failed : Int → α} (act : ℕ → Bulk → υ → Option υ)
    (start : σ → υ) (I : υ → Prop) (hstart : ∀ s, I (start s))
    (hact : ∀ i key u, i < input.numKeys → I u → ∃ u', act i key u = some u' ∧ I u')
    (finish : BulkCalls → ℕ × υ → α × σ) :
    (∀ calls (_ : ℕ → Bool) fuel,
      (serveMulti dbs input.dbId failed (input.receive calls) fun keysBuffer s =>
        (Loop.counted 32 input.numKeys (walkPacked keysBuffer (sizesBytes input.numKeys) act)
          fuel 0 (0, start s)).map (finish calls)).map Prod.snd ≠ .fault) ↔
      OnReceived dbs input.dbId (input.receive .succeeding) fun keysBuffer _ =>
        KeysFit keysBuffer input.numKeys := by
  apply onReceived_iff KeysIn.receive_succeeding
    (fun _ fuel keysBuffer s => Loop.counted 32 input.numKeys
      (walkPacked keysBuffer (sizesBytes input.numKeys) act) fuel 0 (0, start s) = .fault)
  · intro calls forwarded fuel keysBuffer s
    exact Loop.Run.map_eq_fault_iff
  · intro keysBuffer s _
    constructor
    · intro hsafe
      exact keysFit_of_safe (hsafe fun _ => true)
    · intro hfits _
      exact walkPacked_safe hfits (hstart s) hact

theorem exists_lengthAct {n i : ℕ} {key : Bulk} {t : σ × List ℕ} (hi : i < n)
    (ht : t.2.length = n) : ∃ t', lengthAct ds i key t = some t' ∧ t'.2.length = n := by
  rw [← ht] at hi
  refine ⟨_, if_pos hi, ?_⟩
  rw [List.length_set, ht]

theorem exists_existsAct {n i : ℕ} {key : Bulk} {t : σ × Bulk × UInt8} (hi : i < n)
    (ht : t.2.1.length = flagsBytes n) :
    ∃ t', existsAct ds i key t = some t' ∧ t'.2.1.length = flagsBytes n := by
  have hbyte : i / 8 < t.2.1.length := by
    rw [ht, flagsBytes_eq]
    omega
  by_cases hfound : (ds.exists t.1 key key.length).1 = true
  · refine ⟨((ds.exists t.1 key key.length).2,
      t.2.1.set (i / 8) (t.2.1.getD (i / 8) 0 ||| t.2.2),
      if i % 8 = 7 then 1 else t.2.2 <<< 1), ?_, ?_⟩
    · simp [existsAct, hfound, hbyte]
    · rw [List.length_set, ht]
  · refine ⟨((ds.exists t.1 key key.length).2, t.2.1,
      if i % 8 = 7 then 1 else t.2.2 <<< 1), ?_, ht⟩
    simp [existsAct, hfound]

variable (view : σ → Bulk → Option Bulk)

theorem inBounds_lengthMulti_iff :
    InBounds ds reads dbs (.lengthMulti input) ↔ WellSized view dbs (.lengthMulti input) := by
  apply walk_inBounds_iff (lengthAct ds) _ (fun t => t.2.length = input.numKeys)
  · intro s
    exact List.length_replicate
  · exact fun i key t => exists_lengthAct

theorem inBounds_existsMulti_iff :
    InBounds ds reads dbs (.existsMulti input) ↔ WellSized view dbs (.existsMulti input) := by
  apply walk_inBounds_iff (existsAct ds) _ (fun t => t.2.1.length = flagsBytes input.numKeys)
  · intro s
    exact List.length_replicate
  · exact fun i key t => exists_existsAct

theorem inBounds_eraseMulti_iff :
    InBounds ds reads dbs (.eraseMulti input) ↔ WellSized view dbs (.eraseMulti input) := by
  apply walk_inBounds_iff (eraseAct ds) _ (fun _ => True)
  · intro s
    trivial
  · intro i key s _ _
    exact ⟨_, rfl, trivial⟩

end Keys

section Migrate

variable {input : MigrateKeysIn}

/-- An iteration whose put succeeds. -/
def migrateAct (ds : DatastoreReads σ) (flag : Int) (_ : ℕ) (key : Bulk) (s : σ) : Option σ :=
  match ds.get s key with
  | (none, s') => some s'
  | (some _, s') => some (eraseMigrated ds flag s' key)

theorem exists_migrateAct (flag : Int) (i : ℕ) (key : Bulk) (s : σ) :
    ∃ s', migrateAct ds flag i key s = some s' ∧ True := by
  rw [migrateAct]
  split
  · exact ⟨_, rfl, trivial⟩
  · exact ⟨_, rfl, trivial⟩

theorem migrateKeysBody_of_forwarded (flag : Int) (buffer : Bulk) (packedKeys i : ℕ)
    (t : ℕ × σ) :
    migrateKeysBody ds flag (fun _ => true) buffer packedKeys i t =
      (walkPacked buffer packedKeys (migrateAct ds flag) i t).map .inl := by
  rw [migrateKeysBody, walkPacked]
  cases readWord buffer (8 * i) with
  | none => rfl
  | some size =>
      simp only [Option.bind_eq_bind, Option.bind_some]
      cases readBytes buffer (packedKeys + t.1) size with
      | none => rfl
      | some key =>
          simp only [Option.bind_some, migrateAct]
          cases hget : ds.get t.2 key with
          | mk value s => cases value <;> rfl

/-- An iteration faults or goes on as if its put had succeeded. -/
theorem migrateKeysBody_cases {flag : Int} {forwarded : ℕ → Bool} {buffer : Bulk}
    {packedKeys i : ℕ} {t : ℕ × σ} :
    (migrateKeysBody ds flag forwarded buffer packedKeys i t = none →
        walkPacked buffer packedKeys (migrateAct ds flag) i t = none) ∧
      ∀ t', migrateKeysBody ds flag forwarded buffer packedKeys i t = some (.inl t') →
        walkPacked buffer packedKeys (migrateAct ds flag) i t = some t' := by
  rw [migrateKeysBody, walkPacked]
  cases readWord buffer (8 * i) with
  | none => simp
  | some size =>
      simp only [Option.bind_eq_bind, Option.bind_some]
      cases readBytes buffer (packedKeys + t.1) size with
      | none => simp
      | some key =>
          simp only [Option.bind_some, migrateAct]
          cases hget : ds.get t.2 key with
          | mk value s =>
              cases value with
              | none => simp
              | some value =>
                  cases forwarded i with
                  | false => simp
                  | true => simp

theorem inBounds_migrateKeys_iff (view : σ → Bulk → Option Bulk) :
    InBounds ds reads dbs (.migrateKeys input) ↔ WellSized view dbs (.migrateKeys input) := by
  apply onReceived_iff MigrateKeysIn.receive_succeeding
    (fun forwarded fuel buffer s => Loop.countedUntil 32 input.numKeys
      (migrateKeysBody ds input.flag forwarded buffer (sizesBytes input.numKeys)) fuel 0
      (0, s) = .fault)
  · intro calls forwarded fuel buffer s
    exact Loop.Run.map_eq_fault_iff
  · intro buffer s _
    constructor
    · intro hsafe
      have hwalk : ∀ fuel, Loop.counted 32 input.numKeys (walkPacked buffer
          (sizesBytes input.numKeys) (migrateAct ds input.flag)) fuel 0 (0, s) ≠ .fault := by
        intro fuel hfault
        apply hsafe (fun _ => true) fuel
        rw [Loop.countedUntil_eq (migrateKeysBody_of_forwarded input.flag buffer _),
          Loop.Run.map_eq_fault_iff]
        exact hfault
      exact keysFit_of_safe hwalk
    · intro hfits forwarded fuel hfault
      have hwalk := Loop.fault_of_countedUntil (fun i t => migrateKeysBody_cases.1)
        (fun i t t' => migrateKeysBody_cases.2 t') hfault
      exact walkPacked_safe hfits (I := fun _ => True) trivial
        (fun i key s _ _ => exists_migrateAct input.flag i key s) fuel hwalk

theorem cutKeys_drop (buffer : Bulk) (start offset : ℕ) (sizes : List ℕ) :
    cutKeys (buffer.drop start) offset sizes = cutItems buffer (start + offset) sizes := by
  induction sizes generalizing offset with
  | nil => rfl
  | cons size sizes ih =>
      rw [cutKeys, cutItems, bulkOfPointer, List.drop_drop, ih, Nat.add_assoc]

/-- The keys that the checked walk meets are those of `MigrateKeysIn.keys`. -/
theorem MigrateKeysIn.keys_eq {calls : BulkCalls} {buffer : Bulk}
    (hreceived : input.receive calls = .ok buffer) (hn : input.numKeys < 2 ^ 32)
    {keys : List Bulk}
    (hread : readPacked buffer (sizesBytes input.numKeys) input.numKeys 0 0 = some keys) :
    input.keys = some keys := by
  obtain ⟨hbuffer, -⟩ := BulkCalls.pull_whole (BulkCalls.receive_eq_ok hreceived)
  obtain ⟨-, hcut⟩ := of_readPacked hread
  rw [sizesBytes_of_lt (by omega), wordsFrom_zero] at hcut
  have hindices : Loop.indices 32 input.numKeys = some (List.range input.numKeys) := if_pos hn
  have harray := Loop.filterMap_getElem?_range (readArray 8 buffer input.numKeys)
  rw [show (readArray 8 buffer input.numKeys).length = input.numKeys by simp [readArray]] at harray
  simp only [MigrateKeysIn.keys, ← hbuffer, hindices, Option.bind_eq_bind, Option.bind_some,
    harray, cutKeys_drop, ← hcut]

end Migrate

section Gets

theorem leValue_replicate_zero (m : ℕ) : leValue (List.replicate m 0) = 0 := by
  induction m with
  | zero => rfl
  | succ m ih => rw [List.replicate_succ, leValue, ih, UInt8.toNat_zero]

/-- Behind the bytes of a transfer, the words of the local buffer are zero. -/
theorem wordAt_pull {calls : BulkCalls} {handle : HgBulk} {size m : ℕ} {buffer : Bulk}
    (h : calls.pull handle size (List.replicate m 0) = .ok buffer) {j : ℕ}
    (hj : size ≤ 8 * j) : wordAt buffer j = 0 := by
  obtain ⟨⟨hhandle, -⟩, rfl⟩ := BulkCalls.pull_eq_ok h
  have hlength : (bulkPull handle size).length = size := by
    rw [bulkPull, List.length_take, Nat.min_eq_left hhandle]
  have hdrop : (bulkPull handle size ++ (List.replicate m 0).drop size).drop (8 * j) =
      List.replicate (m - size - (8 * j - size)) 0 := by
    rw [show 8 * j = (bulkPull handle size).length + (8 * j - size) by omega, ← List.drop_drop,
      List.drop_left, List.drop_replicate, List.drop_replicate, hlength,
      Nat.add_sub_cancel_left]
  rw [wordAt, hdrop, List.take_replicate, leValue_replicate_zero]

variable {view : σ → Bulk → Option Bulk} (h : ServesReads ds view) {input : GetMultiIn}
include h

theorem inBounds_getMulti_iff :
    InBounds ds reads dbs (.getMulti input) ↔ WellSized view dbs (.getMulti input) := by
  apply onReceived_iff GetMultiIn.receive_succeeding
    (fun _ fuel buffers s => Loop.counted 32 input.numKeys
      (walkPacked buffers.1 (sizesBytes input.numKeys)
        (getMultiAct ds (sizesBytes input.numKeys))) fuel 0 (0, s, buffers.2, 0) = .fault)
  · intro calls forwarded fuel buffers s
    exact Loop.Run.map_eq_fault_iff
  · intro buffers s hreceived
    obtain ⟨-, hvals⟩ := BulkCalls.both_eq_ok hreceived
    rw [forall_const]
    exact getMultiLoop_safe_iff h s (fun j => wordAt_pull hvals)

theorem inBounds_getPacked_iff (hn : input.numKeys < 2 ^ 32)
    (hvals : input.valsBulkSize < 2 ^ 64) :
    InBounds ds reads dbs (.getPacked input) ↔ WellSized view dbs (.getPacked input) := by
  apply onReceived_iff KeysIn.receive_succeeding
    (fun _ fuel keysBuffer s => getPackedLoop ds fuel input keysBuffer s = .fault)
  · intro calls forwarded fuel keysBuffer s
    exact Loop.Run.map_eq_fault_iff
  · intro keysBuffer s _
    rw [forall_const, and_iff_right hn]
    exact getPackedLoop_safe_iff hn hvals h keysBuffer s

end Gets

end Handlers

/-- The sizes of a request are values of type `hg_size_t`. -/
def BatchedRequest.HgSizes : BatchedRequest → Prop
  | .putMulti input => input.numKeys < 2 ^ 64 ∧ input.keysBulkSize < 2 ^ 64 ∧
      input.valsBulkSize < 2 ^ 64
  | .putPacked input => input.numKeys < 2 ^ 64 ∧ input.bulkSize < 2 ^ 64
  | .getMulti input | .getPacked input => input.numKeys < 2 ^ 64 ∧
      input.keysBulkSize < 2 ^ 64 ∧ input.valsBulkSize < 2 ^ 64
  | .lengthMulti input | .lengthPacked input | .existsMulti input | .eraseMulti input =>
      input.numKeys < 2 ^ 64 ∧ input.keysBulkSize < 2 ^ 64
  | .migrateKeys input => input.numKeys < 2 ^ 64 ∧ input.bulkSize < 2 ^ 64

/-- A packed get has a number of keys that the counter of its loop can hold. -/
def BatchedRequest.CountsPacked : BatchedRequest → Prop
  | .getPacked input => input.numKeys < 2 ^ 32
  | _ => True

theorem inBounds_iff_of_countsPacked {σ : Type} {ds : DatastoreReads σ} {reads : RegionReads σ}
    {view : σ → Bulk → Option Bulk} (h : ServesReads ds view) (hreads : ReadsAll reads)
    (dbs : Databases σ) {request : BatchedRequest} (hsizes : request.HgSizes)
    (hcounts : request.CountsPacked) :
    InBounds ds reads dbs request ↔ WellSized view dbs request := by
  cases request with
  | putMulti input => exact inBounds_putMulti_iff hreads view hsizes.2.1 hsizes.2.2
  | putPacked input => exact inBounds_putPacked_iff hreads view hsizes.2
  | getMulti input => exact inBounds_getMulti_iff h
  | getPacked input => exact inBounds_getPacked_iff h hcounts hsizes.2.2
  | lengthMulti input => exact inBounds_lengthMulti_iff view
  | lengthPacked input => exact (inBounds_lengthMulti_iff view : InBounds ds reads dbs _ ↔ _)
  | existsMulti input => exact inBounds_existsMulti_iff view
  | eraseMulti input => exact inBounds_eraseMulti_iff view
  | migrateKeys input => exact inBounds_migrateKeys_iff view

/-- A packed get that comes to its loop and is well sized has a number of keys that the
counter can hold. -/
theorem countsPacked_of_fault {σ : Type} {ds : DatastoreReads σ} {reads : RegionReads σ}
    {view : σ → Bulk → Option Bulk} {dbs : Databases σ} {request : BatchedRequest}
    (hwell : WellSized view dbs request) {calls : BulkCalls} {forwarded : ℕ → Bool} {fuel : ℕ}
    (hfault : serveBatched ds reads calls forwarded fuel dbs request = .fault) :
    request.CountsPacked := by
  cases request with
  | getPacked input =>
      obtain ⟨s, keysBuffer, hdb, hreceived, -⟩ :=
        serveMulti_eq_fault_iff.1 (Loop.Run.map_eq_fault_iff.1 hfault)
      exact (hwell s keysBuffer hdb (KeysIn.receive_succeeding calls _ hreceived)).1
  | _ => trivial

/-- A batched request keeps its handler inside of the local buffers when the sizes that it
carries do, for a datastore that reads no regions but those that it is handed, and only then for
one that reads all of them; of the packed gets whose counter does not reach the number of keys,
none is well sized. -/
theorem inBounds_iff {σ : Type} {ds : DatastoreReads σ} {reads : RegionReads σ}
    {view : σ → Bulk → Option Bulk} (h : ServesReads ds view) (dbs : Databases σ)
    (request : BatchedRequest) (hsizes : request.HgSizes) :
    (ReadsWithin reads → WellSized view dbs request → InBounds ds reads dbs request) ∧
      (ReadsAll reads → request.CountsPacked → InBounds ds reads dbs request →
        WellSized view dbs request) := by
  constructor
  · intro hreads hwell
    have hall : ReadsAll fun (_ : σ) (regions : List (Pointer × ℕ)) => regions :=
      fun _ _ => rfl
    apply inBounds_of_within hreads hall
    intro calls forwarded fuel hfault
    have hcounts := countsPacked_of_fault hwell hfault
    exact (inBounds_iff_of_countsPacked h hall dbs hsizes hcounts).2 hwell calls forwarded fuel
      hfault
  · intro hreads hcounts
    exact (inBounds_iff_of_countsPacked h hreads dbs hsizes hcounts).1

/-- A get of the key 1 with room for a value of one byte. -/
def byteGet : GetMultiIn :=
  { dbId := 5, numKeys := 1, keysBulkHandle := [arrayBytes 8 [1], [1]], keysBulkSize := 9,
    valsBulkHandle := [arrayBytes 8 [1], [0]], valsBulkSize := 9 }

theorem wellSized_byteGet :
    WellSized MapDataStore.get (oneDatabase bindsByteKey) (.getMulti byteGet) := by
  intro s buffers hdb hreceived
  rw [oneDatabase_eq_some hdb]
  cases hreceived
  constructor
  · rw [KeysFit]
    decide
  · rw [ValuesFit]
    decide

theorem inBounds_byteGet :
    InBounds MapDataStore.reads MapDataStore.regionReads (oneDatabase bindsByteKey)
      (.getMulti byteGet) :=
  (inBounds_iff MapDataStore.servesReads (oneDatabase bindsByteKey) (.getMulti byteGet)
    ⟨by decide, by decide, by decide⟩).1 MapDataStore.readsAll.within wellSized_byteGet

/-- One key is announced, and no bytes are exposed for it. -/
def shortKeys : KeysIn := { dbId := 5, numKeys := 1, keysBulkHandle := [], keysBulkSize := 0 }

/-- A request of each kind whose region of keys has no bytes. -/
def shortRequests : List BatchedRequest :=
  let get : GetMultiIn := { shortKeys with valsBulkHandle := [arrayBytes 8 [1]], valsBulkSize := 8 }
  [.putMulti { dbId := 5, numKeys := 1, keysBulkHandle := [], keysBulkSize := 0,
               valsBulkHandle := [], valsBulkSize := 0 },
    .putPacked { dbId := 5, originAddr := none, numKeys := 1, bulkSize := 0, bulkHandle := [] },
    .getMulti get, .getPacked get, .lengthMulti shortKeys, .lengthPacked shortKeys,
    .existsMulti shortKeys, .eraseMulti shortKeys,
    .migrateKeys { sourceDbId := 5, targetAddr := ⟨[], by simp⟩, targetProviderId := 1,
                   targetDbId := 6, numKeys := 1, bulkSize := 0, keysBulk := [],
                   flag := sdskvKeepOriginal }]

/-- Each of the nine handlers reads the size of the key behind the end of its buffer. -/
theorem not_inBounds_shortRequests :
    ¬ ∃ request ∈ shortRequests,
      InBounds MapDataStore.reads MapDataStore.regionReads (oneDatabase bindsByteKey) request := by
  have hfaults : ∀ request ∈ shortRequests, serveBatched MapDataStore.reads
      MapDataStore.regionReads .succeeding (fun _ => true) 1 (oneDatabase bindsByteKey) request =
        .fault := by
    simp only [shortRequests, List.forall_mem_cons]
    exact ⟨rfl, rfl, rfl, rfl, rfl, rfl, rfl, rfl, rfl, fun _ h => absurd h List.not_mem_nil⟩
  rintro ⟨request, hmem, hinside⟩
  exact hinside .succeeding (fun _ => true) 1 (hfaults request hmem)

end Sdskv
