import Sdskv.Client.Objects

/-!
# Reading many values while other clients write

`client::get_multi` for a vector of keys is a protocol of two requests: `sdskv_length_multi` asks
for the lengths of the values, new objects are resized to them, and `sdskv_get_multi` fetches the
values. Between the two requests other clients may change the database. A value that does not fit
is answered with length 0 and the call succeeds, so a value that has grown comes back empty.
-/

namespace Sdskv

open Wire

section Definitions

variable {σ : Type} (width : ℕ) (ds : DatastoreReads σ) (calls calls' : BulkCalls)
  (fuel fuel' : ℕ) (dbs dbs' : Databases σ) (dbId : UInt64) (keys : List KvData)

/-- The second half of `client::get_multi`, for the lengths that the first request has given: it
resizes the new objects, fetches the values, and resizes the objects again. -/
def fetchMulti (vsizes : List UInt64) : Loop.Run (Except Int (List ValueObject) × Databases σ) :=
  let values := vsizes.map fun vsize => objectResize width ValueObject.emptyVector vsize.toNat
  match values.mapM (valueSlot width) with
  | none => .fault
  | some slots =>
      (sdskvGetMulti ds calls fuel dbs dbId (keys.zip slots)).map fun (result, dbs) =>
        if result.ret ≠ SdskvReturn.success.code then (.error result.ret, dbs)
        else (.ok ((List.range slots.length).map fun i =>
          objectResize width (ValueObject.allocated (result.values.getD i []))
            (result.vsizes.getD i 0)), dbs)

/-- `client::get_multi`, where other clients turn the databases into `dbs'` before the second
request. -/
def clientGetMultiAt : Loop.Run (Except Int (List ValueObject) × Databases σ) :=
  (sdskvLengthMulti ds calls fuel dbs dbId keys (List.replicate keys.length 0)).bind
    fun (lengths, dbs) =>
      if lengths.ret ≠ SdskvReturn.success.code then .done (.error lengths.ret, dbs)
      else fetchMulti width ds calls' fuel' dbs' dbId keys lengths.vsizes

/-- Without other clients it is the call in one go. -/
theorem clientGetMulti_eq_at {lengths : LengthsResult}
    (hdone : sdskvLengthMulti ds calls fuel dbs dbId keys (List.replicate keys.length 0) =
      .done (lengths, dbs')) :
    clientGetMulti width ds calls fuel fuel' dbs dbId keys =
      clientGetMultiAt width ds calls calls fuel fuel' dbs dbs' dbId keys := by
  rw [clientGetMulti, clientGetMultiAt, hdone]
  rfl

end Definitions

section Objects

/-- A value with the elements that the resize adds when it takes bytes for elements. -/
def overlong (width : ℕ) (w : Bulk) : Bulk := w ++ List.replicate ((width - 1) * w.length) 0

/-- What is left of a value for a buffer of zeros. -/
theorem content_resize_zeros {width : ℕ} (hwidth : 0 < width) (w : Bulk) (m : ℕ) :
    (objectResize width (ValueObject.allocated (w ++ List.replicate m 0)) w.length).content =
      overlong width w := by
  obtain ⟨n, rfl⟩ := Nat.exists_eq_succ_of_ne_zero hwidth.ne'
  have hlen : (n + 1) * w.length = w.length + n * w.length := by ring
  simp only [objectResize, ValueObject.resize, ValueObject.allocated, Nat.succ_eq_add_one, hlen,
    overlong, Nat.add_sub_cancel, List.length_append, List.length_replicate]
  rw [List.take_length_add_append, List.take_replicate, List.append_assoc,
    List.replicate_append_replicate]
  congr 2
  omega

/-- The values come back exactly when they fit, and bytes are elements. -/
theorem overlong_fittedValue_eq_iff {width : ℕ} (hwidth : 0 < width)
    (contents : Bulk → Option Bulk) (key : Bulk) (n : ℕ) :
    overlong width (fittedValue contents key (width * n)) = (contents key).getD [] ↔
      valueLength contents key = 0 ∨ width = 1 ∧ valueLength contents key ≤ n := by
  rw [fittedValue, valueLength]
  cases contents key with
  | none => simp [overlong]
  | some w =>
      simp only [Option.getD_some, Option.map_some, List.length_eq_zero_iff]
      by_cases hle : w.length ≤ width * n
      · rw [if_pos hle, overlong, List.append_right_eq_self, List.replicate_eq_nil_iff,
          Nat.mul_eq_zero, List.length_eq_zero_iff]
        constructor
        · rintro (hone | hnil)
          · have hwidth' : width = 1 := by omega
            subst hwidth'
            exact Or.inr ⟨rfl, by omega⟩
          · exact Or.inl hnil
        · rintro (hnil | ⟨hone, -⟩)
          · exact Or.inr hnil
          · exact Or.inl (by omega)
      · rw [if_neg hle]
        constructor
        · intro hnil
          rw [← hnil] at hle
          exact absurd (Nat.zero_le _) hle
        · rintro (rfl | ⟨rfl, hn⟩)
          · exact absurd (Nat.zero_le _) hle
          · omega

/-- Arrays that come from a list, read at each index. -/
theorem map_range_getD {α β γ δ : Type*} (f : α → β) (g : α → γ) (F : β → γ → δ) (b : β) (c : γ)
    (l : List α) :
    (List.range l.length).map (fun i => F ((l.map f).getD i b) ((l.map g).getD i c)) =
      l.map fun a => F (f a) (g a) := by
  apply List.ext_getElem
  · simp
  · intro i hi _
    have hlt : i < l.length := by simpa using hi
    simp [List.getD_eq_getElem?_getD, hlt]

/-- The new objects as buffers of zeros. -/
theorem exists_zeroSlots (width : ℕ) (n : KvData → ℕ) {keys : List KvData}
    (hn : ∀ key ∈ keys, n key < 2 ^ 64 ∧ width * n key < 2 ^ 64) (hwidth : 0 < width) :
    ∃ slots, ((keys.map fun key => UInt64.ofNat (n key)).map fun vsize =>
        objectResize width ValueObject.emptyVector vsize.toNat).mapM (valueSlot width) =
          some slots ∧
      slots.length = keys.length ∧
      (keys.zip slots).map (fun q => (q.1, q.2.buffer, q.2.vsize)) =
        keys.map fun key => (key, List.replicate (width * n key) 0, width * n key) := by
  induction keys with
  | nil => exact ⟨[], rfl, rfl, rfl⟩
  | cons key keys ih =>
      obtain ⟨slots, hslots, hlength, hmap⟩ := ih fun key' hkey' =>
        hn key' (List.mem_cons_of_mem key hkey')
      obtain ⟨hsize, hbytes⟩ := hn key List.mem_cons_self
      have hcontent : (objectResize width ValueObject.emptyVector
          (UInt64.ofNat (n key)).toNat).content = List.replicate (width * n key) 0 := by
        rw [UInt64.toNat_ofNat_of_lt' hsize]
        simp [objectResize, ValueObject.resize, ValueObject.emptyVector]
      have hcount : (objectResize width ValueObject.emptyVector
          (UInt64.ofNat (n key)).toNat).content.length = width * n key := by
        rw [hcontent, List.length_replicate]
      have hslot : valueSlot width (objectResize width ValueObject.emptyVector
          (UInt64.ofNat (n key)).toNat) = some _ := dif_pos (by rwa [hcount])
      rw [List.map_cons, List.map_cons, List.mapM_cons, hslot, hslots]
      refine ⟨_, rfl, by rw [List.length_cons, List.length_cons, hlength], ?_⟩
      rw [List.zip_cons_cons, List.map_cons, List.map_cons, hmap]
      simp only [hcontent, objectSize, elements, List.length_replicate,
        Nat.mul_div_cancel_left _ hwidth]

end Objects

section Requests

variable {σ : Type} {ds : DatastoreReads σ} {view : σ → Bulk → Option Bulk}
  {calls calls' : BulkCalls} {dbs dbs' : Databases σ} {dbId : UInt64} {s s' : σ} {width : ℕ}
  {keys : List KvData}

/-- What a `get_multi` leaves in the buffers of the client; the databases are those after its
request. -/
theorem sdskvGetMulti_done (h : ServesReads ds view) (hcalls : calls.Succeed)
    (hdb : dbs dbId = some s) {slots : List (KvData × ValueSlot)} (hlt : slots.length + 1 < 2 ^ 31)
    (hkeys : keysBytes (slots.map Prod.fst) < 2 ^ 64) (hvals : valsBytes slots < 2 ^ 64) :
    ∃ fuel result, sdskvGetMulti ds calls fuel dbs dbId slots = .done result ∧
      result.1.ret = SdskvReturn.success.code ∧
      result.1.values = slots.map (fun q => fittedValue (view s) q.1.data q.2.vsize ++
        q.2.buffer.drop (fittedValue (view s) q.1.data q.2.vsize).length) ∧
      (result.1.vsizes = slots.map fun q => (fittedValue (view s) q.1.data q.2.vsize).length) ∧
      ∃ input out, sdskvGetMultiUlt ds calls fuel dbs input = .done (out, result.2) := by
  have hkeysIn : multiKeysIn dbId (slots.map Prod.fst) = some _ :=
    multiKeysIn_eq_some_iff.2 ⟨by rwa [List.length_map], rfl⟩
  have hinput := (getMultiIn_eq_some_iff dbId hvals).2 ⟨_, hkeysIn, rfl⟩
  obtain ⟨fuel, s', rest, hserver⟩ := sdskvGetMultiUlt_done h hcalls hdb hkeysIn hkeys
  have hindices : Loop.signedIndices 32 slots.length = some (List.range slots.length) :=
    Loop.signedIndices_eq_some_iff.2 ⟨by omega, rfl⟩
  have hunpack := through_unpackValue (view s) slots (by omega)
    (rest ++ [valsRegion slots].flatten.drop
      (packItems (fittedValues (view s) slots) ++ rest).length)
  refine ⟨fuel,
    ({ ret := SdskvReturn.success.code
       values := slots.map fun q => fittedValue (view s) q.1.data q.2.vsize ++
        q.2.buffer.drop (fittedValue (view s) q.1.data q.2.vsize).length
       vsizes := slots.map fun q => (fittedValue (view s) q.1.data q.2.vsize).length
       valsBulkSize := valsBytes slots },
      Function.update dbs dbId (some s')), ?_, rfl, rfl, rfl, _, _, hserver⟩
  rw [sdskvGetMulti, hinput]
  simp only [hserver, Loop.Run.bind, hindices]
  rw [List.append_assoc, hunpack]
  rfl

/-- What the second half of the call returns for lengths `n`. -/
theorem fetchMulti_done (h : ServesReads ds view) (hcalls : calls.Succeed)
    (hdb : dbs dbId = some s) (hwidth : 0 < width) (n : KvData → ℕ)
    (hlt : keys.length + 1 < 2 ^ 31) (hkeys : keysBytes keys < 2 ^ 64)
    (hvals : 8 * keys.length + (keys.map fun key => width * n key).sum < 2 ^ 64) :
    ∃ fuel out dbs₁, fetchMulti width ds calls fuel dbs dbId keys
        (keys.map fun key => UInt64.ofNat (n key)) = .done (.ok out, dbs₁) ∧
      out.map ValueObject.content =
        keys.map fun key => overlong width (fittedValue (view s) key.data (width * n key)) := by
  have hn : ∀ key ∈ keys, n key < 2 ^ 64 ∧ width * n key < 2 ^ 64 := by
    intro key hkey
    have hle := List.single_le_sum (fun n _ => Nat.zero_le n) _
      (List.mem_map_of_mem (f := fun key => width * n key) hkey)
    have hmul := Nat.le_mul_of_pos_left (n key) hwidth
    omega
  obtain ⟨slots, hslots, hlength, hmap⟩ := exists_zeroSlots width n hn hwidth
  have hzip : (keys.zip slots).length = keys.length := by
    rw [List.length_zip, hlength, Nat.min_self]
  have hfst : (keys.zip slots).map Prod.fst = keys := List.map_fst_zip hlength.ge
  have hvsizes : (keys.zip slots).map (fun q => q.2.vsize) = keys.map fun key => width * n key := by
    have hcomp := congrArg (List.map fun p => p.2.2) hmap
    rwa [List.map_map, List.map_map] at hcomp
  obtain ⟨fuel, ⟨r, dbs₁⟩, hdone, hret, hvalues, hsizes, -⟩ := sdskvGetMulti_done h hcalls hdb
    (by rwa [hzip]) (by rwa [hfst]) (by rwa [valsBytes, hzip, hvsizes])
  simp only at hret hvalues hsizes
  -- the objects are a function of the key, the buffer and its size
  have hcontent := congrArg (List.map fun p : KvData × Bulk × ℕ =>
    (objectResize width (ValueObject.allocated (fittedValue (view s) p.1.data p.2.2 ++
      p.2.1.drop (fittedValue (view s) p.1.data p.2.2).length))
        (fittedValue (view s) p.1.data p.2.2).length).content) hmap
  rw [List.map_map, List.map_map] at hcontent
  refine ⟨fuel, (List.range slots.length).map fun i =>
    objectResize width (ValueObject.allocated (r.values.getD i [])) (r.vsizes.getD i 0), dbs₁,
    ?_, ?_⟩
  · simp only [fetchMulti, hslots, hdone, Loop.Run.map, hret, ne_eq, not_true_eq_false, if_false]
  · rw [hvalues, hsizes, hlength, ← hzip,
      map_range_getD _ _ fun b k => objectResize width (ValueObject.allocated b) k, List.map_map]
    refine hcontent.trans (List.map_congr_left fun key _ => ?_)
    simp only [Function.comp_apply, List.drop_replicate]
    exact content_resize_zeros hwidth _ _

/-- `client::get_multi` for elements of `width` bytes, when other clients change the databases
between its requests. It resizes the objects to the lengths at the first request, and fetches the
values that fit at the second one. So it returns the values of the second state exactly when each
of them is empty, or the elements are bytes and the value has not grown. -/
theorem clientGetMulti_returns (h : ServesReads ds view) (hcalls : calls.Succeed)
    (hcalls' : calls'.Succeed) (hdb : dbs dbId = some s) (hdb' : dbs' dbId = some s')
    (hwidth : 0 < width) (hlt : keys.length + 1 < 2 ^ 31) (hkeys : keysBytes keys < 2 ^ 64)
    (hvals : 8 * keys.length +
      (keys.map fun key => width * valueLength (view s) key.data).sum < 2 ^ 64) :
    ∃ fuel fuel' out dbs₁,
      clientGetMultiAt width ds calls calls' fuel fuel' dbs dbs' dbId keys =
        .done (.ok out, dbs₁) ∧
      out.map ValueObject.content = keys.map (fun key => overlong width
        (fittedValue (view s') key.data (width * valueLength (view s) key.data))) ∧
      (out.map ValueObject.content = keys.map (fun key => (view s' key.data).getD []) ↔
        ∀ key ∈ keys, valueLength (view s') key.data = 0 ∨
          width = 1 ∧ valueLength (view s') key.data ≤ valueLength (view s) key.data) := by
  have hzeros : (List.replicate keys.length (0 : UInt64)).length = keys.length :=
    List.length_replicate
  obtain ⟨fuel, ⟨lengths, dbs₁⟩, hlengths, hread, -⟩ :=
    sdskvLengthMulti_done h hcalls hdb hlt hkeys hzeros
  obtain ⟨fuel', out, dbs₂, hfetch, hout⟩ := fetchMulti_done h hcalls' hdb' hwidth
    (fun key => valueLength (view s) key.data) hlt hkeys hvals
  have hret := hread.ret
  have hvsizes : lengths.vsizes =
      keys.map fun key => UInt64.ofNat (valueLength (view s) key.data) := hread.vsizes
  refine ⟨fuel, fuel', out, dbs₂, ?_, hout, ?_⟩
  · simp only at hret
    simp only [clientGetMultiAt, hlengths, Loop.Run.bind, hret, ne_eq, not_true_eq_false,
      if_false, hvsizes, hfetch]
  · rw [hout, List.map_inj_left]
    simp only [overlong_fittedValue_eq_iff hwidth]

/-- The value of the key 1 has grown between the two requests, and the one of the key 2 has
not. -/
theorem clientGetMulti_returns_grown :
    ∃ fuel fuel' out dbs₁, clientGetMultiAt 1 MapDataStore.reads .succeeding .succeeding fuel
        fuel' (oneDatabase { MapDataStore.new with map := [([1], [7]), ([2], [7])] })
        (oneDatabase { MapDataStore.new with map := [([1], [7, 7]), ([2], [8])] }) 5
        [KvData.single 1, KvData.single 2] = .done (.ok out, dbs₁) ∧
      out.map ValueObject.content = [[], [8]] := by
  have hlt : [KvData.single 1, KvData.single 2].length + 1 < 2 ^ 31 := by decide
  have hdb : oneDatabase { MapDataStore.new with map := [([1], [7]), ([2], [7])] } 5 = some _ :=
    rfl
  have hdb' : oneDatabase { MapDataStore.new with map := [([1], [7, 7]), ([2], [8])] } 5 =
    some _ := rfl
  obtain ⟨fuel, fuel', out, dbs₁, hdone, hout, -⟩ := clientGetMulti_returns
    MapDataStore.servesReads BulkCalls.succeed_succeeding BulkCalls.succeed_succeeding hdb hdb'
    Nat.one_pos hlt (by decide) (by decide)
  exact ⟨fuel, fuel', out, dbs₁, hdone, hout⟩

end Requests

end Sdskv
