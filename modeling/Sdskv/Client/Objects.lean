import Sdskv.Client.GetPaths
import Sdskv.Rpc.GetMulti
import Sdskv.Rpc.LengthErase
import Sdskv.Rpc.PackedRoundTrip

/-!
# Typed objects of the client

The templates of the client take a `std::string`, or a `std::vector<X>` of elements of
`width` bytes. `object_size` is in bytes, and so are the sizes that the requests return, but
`value.size()` and `object_resize` count elements. `get` and the `get_multi` that returns a
vector of values both end with an `object_resize` to a size in bytes, so the object has
`width` times as many elements as were stored.

An object is the bytes of its elements here, so its length is a multiple of `width`.
-/

namespace Sdskv

section Objects

variable (width : ℕ)

/-- An object with elements of `width` bytes. Its bytes and a word next to them are in
memory. -/
structure TypedObject where
  object : ValueObject
  dvd_length : width ∣ object.content.length
  length_lt : 8 + object.content.length < 2 ^ 64

variable {width} in
theorem TypedObject.size_lt (v : TypedObject width) : v.object.content.length < 2 ^ 64 :=
  (Nat.le_add_left _ 8).trans_lt v.length_lt

variable {width} in
/-- The pointer and the size of an object. -/
def TypedObject.data (v : TypedObject width) : KvData :=
  { data := v.object.content, size_lt := v.size_lt }

/-- `value.size()`. -/
def elements (v : ValueObject) : ℕ := v.content.length / width

/-- `object_size`: `sizeof(v[0]) * v.size()`. -/
def objectSize (v : ValueObject) : ℕ := width * elements width v

/-- `object_resize`, to a number of elements. -/
def objectResize (v : ValueObject) (newSize : ℕ) : ValueObject := v.resize (width * newSize)

end Objects

section Client

variable {σ : Type} (width : ℕ) (ds : DatastoreReads σ) (net : Transport) (dbs : Databases σ)
  (dbId : UInt64) (key : KvData)

/-- `client::put`; an exception carries the error code. -/
def clientPut (proc : HgProc) (hrets : List ℕ) (value : KvData) : Except Int (Databases σ) :=
  let (ret, dbs') := sdskvPut proc ds.toDatastoreWrites hrets dbs dbId key value
  if ret ≠ SdskvReturn.success.code then .error ret else .ok dbs'

/-- `client::length`. -/
def clientLength : Except Int (ℕ × Databases σ) :=
  let (ret, vsize, dbs') := sdskvLength ds net dbs dbId key 0
  if ret ≠ SdskvReturn.success.code then .error ret else .ok (vsize, dbs')

/-- `client::get` into an object, once `s` is known: the value is fetched, and a second time
when the object was too small. -/
def clientGetSized (value : ValueObject) (s : ℕ) : Except Int (ValueObject × Databases σ) :=
  let (ret, value, s, dbs) := sdskvGet ds net dbs dbId key value s
  if ret = SdskvReturn.success.code then .ok (objectResize width value s, dbs)
  else if ret = SdskvReturn.errSize.code then
    let value := objectResize width value s
    let (ret, value, s, dbs) := sdskvGet ds net dbs dbId key value s
    if ret ≠ SdskvReturn.success.code then .error ret
    else .ok (objectResize width value s, dbs)
  else .error ret

/-- `client::get` into an object. -/
def clientGet (value : ValueObject) : Except Int (ValueObject × Databases σ) := do
  let s := elements width value
  if s = 0 then
    let (s, dbs) ← clientLength ds net dbs dbId key
    clientGetSized width ds net dbs dbId key (objectResize width value s) s
  else clientGetSized width ds net dbs dbId key value s

end Client

theorem objectSize_le (width : ℕ) (v : ValueObject) : objectSize width v ≤ v.content.length :=
  Nat.mul_div_le v.content.length width

/-- The room that an object offers for a value; `none` if no object has its size. -/
def valueSlot (width : ℕ) (v : ValueObject) : Option ValueSlot :=
  if h : v.content.length < 2 ^ 64 then
    some { buffer := v.content, vsize := objectSize width v, vsize_le := objectSize_le width v,
           vsize_lt := (objectSize_le width v).trans_lt h }
  else none

/-- The `client::get_multi` that returns a vector of values: it asks for the lengths, resizes
as many new objects to them, fetches the values, and resizes the objects again. -/
def clientGetMulti {σ : Type} (width : ℕ) (ds : DatastoreReads σ) (calls : BulkCalls)
    (fuel fuel' : ℕ) (dbs : Databases σ) (dbId : UInt64) (keys : List KvData) :
    Loop.Run (Except Int (List ValueObject) × Databases σ) :=
  (sdskvLengthMulti ds calls fuel dbs dbId keys (List.replicate keys.length 0)).bind
    fun (lengths, dbs) =>
      if lengths.ret ≠ SdskvReturn.success.code then .done (.error lengths.ret, dbs)
      else
        let values := lengths.vsizes.map fun vsize =>
          objectResize width ValueObject.emptyVector vsize.toNat
        match values.mapM (valueSlot width) with
        | none => .fault
        | some slots =>
            (sdskvGetMulti ds calls fuel' dbs dbId (keys.zip slots)).map fun (result, dbs) =>
              if result.ret ≠ SdskvReturn.success.code then (.error result.ret, dbs)
              else (.ok ((List.range slots.length).map fun i =>
                objectResize width (ValueObject.allocated (result.values.getD i []))
                  (result.vsizes.getD i 0)), dbs)

section Requests

variable {σ : Type} {ds : DatastoreReads σ} {view : σ → Bulk → Option Bulk}
  (h : ServesReads ds view) (net : Transport) {dbs : Databases σ} {dbId : UInt64}
  {key : KvData}

include h

theorem fetchedValue_eq_boundTo :
    fetchedValue ds dbs dbId key = boundTo view dbId key dbs := by
  unfold fetchedValue boundTo
  congr 1
  funext s
  exact (h.get s key.data).1

omit h in
/-- A handler that keeps the bindings of its database keeps those of all. -/
theorem boundTo_answerFrom {α : Type*} (unknown : α) {f : σ → α × σ}
    (hf : ∀ s, view (f s).2 = view s) :
    boundTo view dbId key (answerFrom dbs dbId unknown f).2 = boundTo view dbId key dbs := by
  cases hdb : dbs dbId with
  | none => simp [answerFrom, hdb]
  | some s => simp [boundTo, answerFrom, hdb, hf]

theorem boundTo_sdskvLength (vsize : ℕ) :
    boundTo view dbId key (sdskvLength ds net dbs dbId key vsize).2.2 =
      boundTo view dbId key dbs := by
  cases hfail : firstFailure net.client with
  | some hret => simp only [sdskvLength, hfail]
  | none =>
      simp only [sdskvLength, hfail]
      exact boundTo_answerFrom _ fun s => (h.length s key.data).2

theorem boundTo_sdskvGet (value : ValueObject) (vsize : ℕ) :
    boundTo view dbId key (sdskvGet ds net dbs dbId key value vsize).2.2.2 =
      boundTo view dbId key dbs := by
  have hget : ∀ s, view (ds.get s key.data).2 = view s := fun s => (h.get s key.data).2
  cases hnull : value.isNull with
  | true =>
      simp only [sdskvGet, hnull, if_true]
      exact boundTo_sdskvLength h net vsize
  | false =>
      simp only [sdskvGet, hnull, Bool.false_eq_true, if_false]
      split_ifs
      · cases hfail : firstFailure net.client with
        | some hret => simp only [getInline, hfail]
        | none =>
            simp only [getInline, hfail]
            split_ifs <;> exact boundTo_answerFrom _ hget
      · cases hfail : firstFailure net.client with
        | some hret => simp only [getBulk, hfail]
        | none =>
            simp only [getBulk, hfail]
            exact boundTo_answerFrom _ hget

variable {net} in
/-- The length of a key that is bound. -/
theorem sdskvLength_found (hclient : firstFailure net.client = none) {w : Bulk}
    (hw : boundTo view dbId key dbs = some w) (vsize : ℕ) :
    (sdskvLength ds net dbs dbId key vsize).1 = SdskvReturn.success.code ∧
      (sdskvLength ds net dbs dbId key vsize).2.1 = w.length := by
  obtain ⟨s, hdb, hs⟩ := Option.bind_eq_some_iff.1 hw
  have hlength := (h.length s key.data).1
  rw [hs, Option.map_some] at hlength
  simp [sdskvLength, hclient, sdskvLengthUlt, answerFrom, hdb, hlength, lengthAnswer,
    SdskvReturn.code_success]

end Requests

theorem ValueObject.content_write {v : ValueObject} (hv : v.isNull = false) (data : Bulk) :
    (v.write data).content = data ++ v.content.drop data.length := by
  simp [write, hv, allocated]

/-- The object has `width` times as many bytes as the value, and the value in front. -/
structure Overlong (width : ℕ) (w : Bulk) (v : ValueObject) : Prop where
  length : v.content.length = width * w.length
  front : v.content.take w.length = w

theorem overlong_resize {width : ℕ} (hwidth : 0 < width) (w : Bulk) {v : ValueObject}
    {rest : Bulk} (hv : v.content = w ++ rest) :
    Overlong width w (objectResize width v w.length) := by
  have hle : w.length ≤ width * w.length := Nat.le_mul_of_pos_left w.length hwidth
  constructor
  · simp only [objectResize, ValueObject.resize, List.length_append, List.length_take,
      List.length_replicate]
    omega
  · simp only [objectResize, ValueObject.resize, hv]
    rw [List.take_append_of_le_length, List.take_take, Nat.min_eq_left hle, List.take_left]
    rw [List.length_take, List.length_append]
    omega

/-- The object is the value exactly when its elements are single bytes or it is empty. -/
theorem Overlong.content_eq_iff {width : ℕ} {w : Bulk} {v : ValueObject}
    (h : Overlong width w v) : v.content = w ↔ width = 1 ∨ w = [] := by
  constructor
  · intro heq
    have hlength := h.length
    rw [heq] at hlength
    by_cases hnil : w = []
    · exact Or.inr hnil
    · have hpos := List.length_pos_iff.2 hnil
      exact Or.inl (Nat.eq_of_mul_eq_mul_right hpos (by omega))
  · intro hor
    have hlength : v.content.length = w.length := by
      rw [h.length]
      rcases hor with rfl | rfl
      · exact Nat.one_mul _
      · rfl
    rw [← h.front, ← hlength, List.take_length]

section Get

variable {σ : Type} {ds : DatastoreReads σ} {view : σ → Bulk → Option Bulk}
  (h : ServesReads ds view) {net : Transport} (hclient : firstFailure net.client = none)
  (hserver : firstFailure net.server = none) {dbs : Databases σ} {dbId : UInt64}
  {key : KvData} {width : ℕ} (hwidth : 0 < width) {w : Bulk}
  (hw : boundTo view dbId key dbs = some w)

theorem clientGetSized_of_success {value : ValueObject} {s : ℕ}
    (hret : (sdskvGet ds net dbs dbId key value s).1 = SdskvReturn.success.code) :
    clientGetSized width ds net dbs dbId key value s =
      .ok (objectResize width (sdskvGet ds net dbs dbId key value s).2.1
          (sdskvGet ds net dbs dbId key value s).2.2.1,
        (sdskvGet ds net dbs dbId key value s).2.2.2) :=
  if_pos hret

/-- An object that is too small is enlarged, and the value is fetched again. -/
theorem clientGetSized_of_errSize {value : ValueObject} {s : ℕ}
    (hret : (sdskvGet ds net dbs dbId key value s).1 = SdskvReturn.errSize.code)
    (hagain : (sdskvGet ds net (sdskvGet ds net dbs dbId key value s).2.2.2 dbId key
      (objectResize width (sdskvGet ds net dbs dbId key value s).2.1
        (sdskvGet ds net dbs dbId key value s).2.2.1)
      (sdskvGet ds net dbs dbId key value s).2.2.1).1 = SdskvReturn.success.code) :
    clientGetSized width ds net dbs dbId key value s =
      clientGetSized width ds net (sdskvGet ds net dbs dbId key value s).2.2.2 dbId key
        (objectResize width (sdskvGet ds net dbs dbId key value s).2.1
          (sdskvGet ds net dbs dbId key value s).2.2.1)
        (sdskvGet ds net dbs dbId key value s).2.2.1 := by
  rw [clientGetSized_of_success hagain, clientGetSized]
  simp [hret, hagain]

include h hclient hserver hw

/-- A value that fits is in the object. -/
theorem sdskvGet_fits {value : ValueObject} (hvalue : value.isNull = false) {s : ℕ}
    (hs : w.length ≤ s) :
    (sdskvGet ds net dbs dbId key value s).1 = SdskvReturn.success.code ∧
      (sdskvGet ds net dbs dbId key value s).2.1 = value.write w ∧
      (sdskvGet ds net dbs dbId key value s).2.2.1 = w.length := by
  have hseen := seen_sdskvGet_found ds net dbs dbId key hclient hserver hvalue s
    ((fetchedValue_eq_boundTo h).trans hw)
  rw [foundOutcome, if_pos hs, seenByCaller, Prod.mk.injEq, Prod.mk.injEq] at hseen
  exact hseen

/-- A value that does not fit leaves the object, and its length is returned. -/
theorem sdskvGet_too_small {value : ValueObject} (hvalue : value.isNull = false) {s : ℕ}
    (hs : ¬ w.length ≤ s) :
    (sdskvGet ds net dbs dbId key value s).1 = SdskvReturn.errSize.code ∧
      (sdskvGet ds net dbs dbId key value s).2.1 = value ∧
      (sdskvGet ds net dbs dbId key value s).2.2.1 = w.length := by
  have hseen := seen_sdskvGet_found ds net dbs dbId key hclient hserver hvalue s
    ((fetchedValue_eq_boundTo h).trans hw)
  rw [foundOutcome, if_neg hs, seenByCaller, Prod.mk.injEq, Prod.mk.injEq] at hseen
  exact hseen

omit hserver in
theorem sdskvGet_null {value : ValueObject} (hvalue : value.isNull = true) (s : ℕ) :
    (sdskvGet ds net dbs dbId key value s).1 = SdskvReturn.success.code ∧
      (sdskvGet ds net dbs dbId key value s).2.1 = value ∧
      (sdskvGet ds net dbs dbId key value s).2.2.1 = w.length := by
  obtain ⟨hret, hlength⟩ := sdskvLength_found h hclient hw s
  simp only [sdskvGet, hvalue, if_true]
  exact ⟨hret, trivial, hlength⟩

include hwidth

theorem clientGetSized_fits {value : ValueObject} (hvalue : value.isNull = false) {s : ℕ}
    (hs : w.length ≤ s) :
    ∃ v dbs', clientGetSized width ds net dbs dbId key value s = .ok (v, dbs') ∧
      Overlong width w v := by
  obtain ⟨hret, hwritten, hlength⟩ := sdskvGet_fits h hclient hserver hw hvalue hs
  refine ⟨_, _, clientGetSized_of_success hret, ?_⟩
  rw [hwritten, hlength]
  exact overlong_resize hwidth w (ValueObject.content_write hvalue w)

/-- The value is fetched, at the latest with the second request. -/
theorem clientGetSized_ok {value : ValueObject} (hnull : value.isNull = true → w = []) (s : ℕ) :
    ∃ v dbs', clientGetSized width ds net dbs dbId key value s = .ok (v, dbs') ∧
      Overlong width w v := by
  cases hvalue : value.isNull with
  | true =>
      obtain ⟨hret, hsame, hlength⟩ := sdskvGet_null h hclient hw hvalue s
      refine ⟨_, _, clientGetSized_of_success hret, ?_⟩
      rw [hsame, hlength]
      have hcontent : value.content = w ++ [] := by
        rw [hnull hvalue, value.content_of_isNull hvalue, List.append_nil]
      exact overlong_resize hwidth w hcontent
  | false =>
      by_cases hs : w.length ≤ s
      · exact clientGetSized_fits h hclient hserver hwidth hw hvalue hs
      · obtain ⟨hret, hsame, hlength⟩ := sdskvGet_too_small h hclient hserver hw hvalue hs
        have hbound := (boundTo_sdskvGet h net value s).trans hw
        have hresized : (objectResize width value w.length).isNull = false := by
          simp [objectResize, ValueObject.resize, hvalue]
        have hagain := sdskvGet_fits h hclient hserver hbound hresized le_rfl
        rw [clientGetSized_of_errSize hret (by rw [hsame, hlength]; exact hagain.1), hsame,
          hlength]
        exact clientGetSized_fits h hclient hserver hwidth hbound hresized le_rfl

/-- A get of a key that is bound leaves `width` times its length in the object. -/
theorem clientGet_ok (value : ValueObject) :
    ∃ v dbs', clientGet width ds net dbs dbId key value = .ok (v, dbs') ∧
      Overlong width w v := by
  by_cases hs : elements width value = 0
  · obtain ⟨hret, hlength⟩ := sdskvLength_found h hclient hw 0
    have hbound := (boundTo_sdskvLength h net 0).trans hw
    have hget : clientGet width ds net dbs dbId key value =
        clientGetSized width ds net (sdskvLength ds net dbs dbId key 0).2.2 dbId key
          (objectResize width value w.length) w.length := by
      rw [clientGet, if_pos hs, clientLength]
      simp only [hret, hlength]
      rfl
    rw [hget]
    refine clientGetSized_ok h hclient hserver hwidth hbound ?_ w.length
    intro hnull
    simp only [objectResize, ValueObject.resize, Bool.and_eq_true, decide_eq_true_eq] at hnull
    exact List.length_eq_zero_iff.1 ((Nat.mul_eq_zero.1 hnull.2).resolve_left hwidth.ne')
  · have hget : clientGet width ds net dbs dbId key value =
        clientGetSized width ds net dbs dbId key value (elements width value) := by
      rw [clientGet, if_neg hs]
    rw [hget]
    refine clientGetSized_ok h hclient hserver hwidth hw ?_ _
    intro hnull
    rw [elements, value.content_of_isNull hnull] at hs
    exact absurd (Nat.zero_div width) hs

end Get

section GetMulti

variable {σ : Type} {ds : DatastoreReads σ} {view : σ → Bulk → Option Bulk}
  (h : ServesReads ds view) {calls : BulkCalls} (hcalls : calls.Succeed) {dbs : Databases σ}
  {dbId : UInt64} {s : σ} (hdb : dbs dbId = some s) {key : KvData}
  (hkey : 8 + key.data.length < 2 ^ 64) {width : ℕ} (hwidth : 0 < width) {w : Bulk}
  (hw : view s key.data = some w) (hroom : 8 + width * w.length < 2 ^ 64)
include hwidth hroom

/-- The new object of a value has room for it. -/
theorem valueSlot_resize :
    ∃ slot, valueSlot width (objectResize width ValueObject.emptyVector w.length) = some slot ∧
      slot.vsize = width * w.length := by
  have hlength : (objectResize width ValueObject.emptyVector w.length).content.length =
      width * w.length := by
    simp [objectResize, ValueObject.resize, ValueObject.emptyVector]
  have hlt : (objectResize width ValueObject.emptyVector w.length).content.length < 2 ^ 64 := by
    rw [hlength]
    omega
  refine ⟨_, dif_pos hlt, ?_⟩
  simp only [objectSize, elements, hlength, Nat.mul_div_cancel_left _ hwidth]

include h hcalls hdb hkey hw

theorem clientGetMulti_ok :
    ∃ fuel fuel' v dbs', clientGetMulti width ds calls fuel fuel' dbs dbId [key] =
      .done (.ok [v], dbs') ∧ Overlong width w v := by
  have hle : w.length ≤ width * w.length := Nat.le_mul_of_pos_left w.length hwidth
  have hsize : (UInt64.ofNat w.length).toNat = w.length := by
    rw [UInt64.toNat_ofNat', Nat.mod_eq_of_lt (by omega)]
  have hzeros : (List.replicate [key].length (0 : UInt64)).length = [key].length := rfl
  have hkeys : keysBytes [key] < 2 ^ 64 := by simpa [keysBytes] using hkey
  have hnum : [key].length + 1 < 2 ^ 31 := by
    rw [List.length_singleton]
    omega
  obtain ⟨fuel, ⟨lengths, dbs₁⟩, hlengths, hread, s', hdb', hview⟩ :=
    sdskvLengthMulti_done h hcalls hdb hnum hkeys hzeros
  obtain ⟨slot, hslot, hvsize⟩ := valueSlot_resize hwidth hroom
  obtain ⟨fuel', ⟨result, dbs'⟩, hvalues, hfilled⟩ :=
    (getMultiFilled_iff h hcalls hdb' [(key, slot)] (by simpa [keysBytes] using hkey)
      (by simpa [hvsize] using hroom)).2 hnum
  obtain ⟨hlength, hvalue⟩ := hfilled.fits 0 key slot w rfl (by rw [hview, hw])
    (by rw [hvsize]; exact hle)
  have hvsizes := hread.vsizes
  simp only [List.map_cons, List.map_nil, hw, Option.map_some, Option.getD_some] at hvsizes
  have hcontent : (ValueObject.allocated (w ++ slot.buffer.drop w.length)).content =
      w ++ slot.buffer.drop w.length := rfl
  refine ⟨fuel, fuel', _, dbs', ?_, overlong_resize hwidth w hcontent⟩
  rw [clientGetMulti, hlengths]
  have hret := hread.ret
  have hret' := hfilled.ret
  simp only [Loop.Run.bind] at hret hvalues hret' hlength hvalue ⊢
  simp [hret, hvsizes, hsize, hslot, hvalues, Loop.Run.map, hret', hlength, hvalue]

end GetMulti

section RoundTrip

variable {σ : Type} (ds : DatastoreReads σ) (proc : HgProc) (hrets : List ℕ) (net : Transport)
  (calls : BulkCalls) (dbs : Databases σ) (dbId : UInt64) {keyWidth width : ℕ}

/-- An object that is put comes back from both kinds of get. -/
def ObjectRoundTrip (key : TypedObject keyWidth) (v w : TypedObject width) : Prop :=
  ∃ dbs₁, clientPut ds dbs dbId key.data proc hrets v.data = .ok dbs₁ ∧
    (∃ w' dbs', clientGet width ds net dbs₁ dbId key.data w.object = .ok (w', dbs') ∧
      w'.content = v.object.content) ∧
    ∃ fuel fuel' w' dbs', clientGetMulti width ds calls fuel fuel' dbs₁ dbId [key.data] =
      .done (.ok [w'], dbs') ∧ w'.content = v.object.content

variable {ds hrets net calls dbs dbId} {view : σ → Bulk → Option Bulk} {I : σ → Prop}
  {lt : Bulk → Bulk → Prop} [DecidableRel lt] {s : σ}

/-- A put that is accepted binds its key. -/
theorem clientPut_ok [Std.Irrefl lt] (hputs : StoresPuts ds I view lt)
    (hok : ∀ hret ∈ hrets, hret = hgSuccess) (hdb : dbs dbId = some s) (hs : I s)
    {key value : KvData} (haccepts : (ds.put s key.data value.data).1 = .success) :
    ∃ dbs₁ s₁, clientPut ds dbs dbId key proc hrets value = .ok dbs₁ ∧ dbs₁ dbId = some s₁ ∧
      view s₁ key.data = some value.data := by
  refine ⟨_, (ds.put s key.data value.data).2, ?_, Function.update_self dbId _ dbs, ?_⟩
  · rw [clientPut, sdskvPut_eq proc ds.toDatastoreWrites hok, withDatabase, hdb]
    simp only [haccepts]
    rfl
  · rw [hputs.put s key.data value.data hs haccepts, if_pos (IncompRel.refl lt key.data)]

/-- An object that is put comes back from both kinds of get exactly when its elements are
single bytes or it has none. -/
theorem objectRoundTrip_iff [Std.Irrefl lt] (h : ServesReads ds view)
    (hputs : StoresPuts ds I view lt) (hok : ∀ hret ∈ hrets, hret = hgSuccess)
    (hclient : firstFailure net.client = none) (hserver : firstFailure net.server = none)
    (hcalls : calls.Succeed) (hdb : dbs dbId = some s) (hs : I s) (hwidth : 0 < width)
    (key : TypedObject keyWidth) (v w : TypedObject width)
    (haccepts : (ds.put s key.data.data v.data.data).1 = .success) :
    ObjectRoundTrip ds proc hrets net calls dbs dbId key v w ↔
      width = 1 ∨ v.object.content = [] := by
  obtain ⟨dbs₁, s₁, hput, hdb₁, hview⟩ := clientPut_ok proc hputs hok hdb hs haccepts
  have hbound : boundTo view dbId key.data dbs₁ = some v.object.content := by
    rw [boundTo, hdb₁]
    exact hview
  obtain ⟨w', dbs', hget, hw'⟩ := clientGet_ok h hclient hserver hwidth hbound w.object
  constructor
  · rintro ⟨dbs₂, hput₂, ⟨w₂, dbs₂', hget₂, hcontent⟩, -⟩
    cases hput.symm.trans hput₂
    cases hget.symm.trans hget₂
    exact hw'.content_eq_iff.1 hcontent
  · intro hor
    have hroom : 8 + width * v.object.content.length < 2 ^ 64 := by
      have hlt := v.length_lt
      rcases hor with rfl | hnil
      · rwa [Nat.one_mul]
      · simp [hnil]
    obtain ⟨fuel, fuel', w₂, dbs₂, hmulti, hw₂⟩ :=
      clientGetMulti_ok h hcalls hdb₁ key.length_lt hwidth hview hroom
    exact ⟨dbs₁, hput, ⟨w', dbs', hget, hw'.content_eq_iff.2 hor⟩,
      fuel, fuel', w₂, dbs₂, hmulti, hw₂.content_eq_iff.2 hor⟩

end RoundTrip

/-- A string, or a vector that was allocated. -/
def smallObject (width : ℕ) (content : Bulk) (hdvd : width ∣ content.length)
    (hlength : 8 + content.length < 2 ^ 64) : TypedObject width where
  object := ValueObject.allocated content
  dvd_length := hdvd
  length_lt := hlength

/-- The string that is the key. -/
def keyString : TypedObject 1 := smallObject 1 [1] (by decide) (by decide)

theorem objectRoundTrip_iff_string :
    ObjectRoundTrip MapDataStore.reads mercuryProc [] reliable .succeeding
      (oneDatabase MapDataStore.new) 5 keyString
      (smallObject 1 [8, 9] (by decide) (by decide)) keyString :=
  (objectRoundTrip_iff mercuryProc MapDataStore.servesReads (MapDataStore.storesPuts none)
    (by simp) rfl rfl BulkCalls.succeed_succeeding rfl rfl Nat.one_pos keyString
    (smallObject 1 [8, 9] (by decide) (by decide)) keyString rfl).2 (Or.inl rfl)

/-- A vector with one element of four bytes. -/
def oneElement : TypedObject 4 := smallObject 4 [8, 9, 10, 11] (by decide) (by decide)

/-- One element of four bytes comes back as four elements. -/
theorem not_objectRoundTrip_oneElement :
    ((clientPut MapDataStore.reads (oneDatabase MapDataStore.new) 5 keyString.data
        mercuryProc [] oneElement.data).bind fun dbs₁ =>
      (clientGet 4 MapDataStore.reads reliable dbs₁ 5 keyString.data oneElement.object).map
        fun r => r.1.content) = .ok [8, 9, 10, 11, 0, 0, 0, 0, 0, 0, 0, 0, 0, 0, 0, 0] ∧
    ¬ ObjectRoundTrip MapDataStore.reads mercuryProc [] reliable .succeeding
      (oneDatabase MapDataStore.new) 5 keyString oneElement oneElement := by
  have hread : ((clientPut MapDataStore.reads (oneDatabase MapDataStore.new) 5 keyString.data
        mercuryProc [] oneElement.data).bind fun dbs₁ =>
      (clientGet 4 MapDataStore.reads reliable dbs₁ 5 keyString.data oneElement.object).map
        fun r => r.1.content) = .ok [8, 9, 10, 11, 0, 0, 0, 0, 0, 0, 0, 0, 0, 0, 0, 0] := by
    rfl
  refine ⟨hread, ?_⟩
  rintro ⟨dbs₁, hput, ⟨w', dbs', hget, hcontent⟩, -⟩
  rw [hput, Except.bind, hget, Except.map, hcontent] at hread
  cases hread

end Sdskv
