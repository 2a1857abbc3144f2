import Sdskv.Client.Get
import Sdskv.Rpc.ListKeysRetry

/-!
# Listing keys into objects of the client

`client::list_keys` lists keys into the objects of a vector, `std::string` or
`std::vector<char>`, as many as the vector has. When they do not fit and the first object is
empty, the objects are resized to the reported sizes and the keys are listed again, this time at
most as many as were reported. Between the two requests other clients may change the database.
-/

namespace Sdskv

section Definitions

/-- The entries of `kdata` and `ksizes` for an object. -/
def ValueObject.keySlot (v : ValueObject) : KeySlot where
  buffer := if v.isNull then none else some v.content
  ksize := v.content.length
  length_buffer b h := by
    split_ifs at h
    rw [Option.some.inj h]

theorem ValueObject.bytes_keySlot (v : ValueObject) : v.keySlot.bytes = v.content := by
  rw [KeySlot.bytes, keySlot]
  split_ifs with hnull
  · exact (v.content_of_isNull hnull).symm
  · rfl

theorem map_bytes_keySlot (objs : List ValueObject) :
    (objs.map ValueObject.keySlot).map KeySlot.bytes = objs.map ValueObject.content := by
  rw [List.map_map]
  exact List.map_congr_left fun v _ => v.bytes_keySlot

/-- The arrays `kdata` and `ksizes`; `none` if the objects do not fit in memory. -/
def objectSlots (objs : List ValueObject) : Option KeySlots :=
  if h : (objs.map ValueObject.content).flatten.length < 2 ^ 64 then
    some
      { slots := objs.map ValueObject.keySlot
        null := false
        buffer_of_null := fun h => by cases h
        bytes_lt := by rwa [map_bytes_keySlot] }
  else none

/-- An object after its buffer was written. -/
def ValueObject.withBuffer (v : ValueObject) : Option Bulk → ValueObject
  | none => v
  | some b => allocated b

/-- The objects after a listing: each is resized to the size of its key, and the vector to the
number of keys; `none` is an access outside of a vector. -/
def listedObjects (objs : List ValueObject) (r : ListKeysResult) : Option (List ValueObject) :=
  (List.range r.maxKeys).mapM fun i => do
    let v ← objs[i]?
    let buffer ← r.keys[i]?
    let ksize ← r.ksizes[i]?
    some ((v.withBuffer buffer).resize ksize)

/-- The objects for the second request, resized to the reported sizes. -/
def resizedObjects (objs : List ValueObject) (r : ListKeysResult) : Option (List ValueObject) :=
  (List.range r.maxKeys).mapM fun i => do
    let v ← objs[i]?
    let ksize ← r.ksizes[i]?
    some (v.resize ksize)

variable {σ : Type} (method : ListKeysMethod σ) (calls : ListKeysCalls) (dbs : Databases σ)
  (dbId : UInt64) (startKey keyPrefix : Bulk)

/-- The `client::list_keys` for pointers and sizes. -/
def listKeysInto (objs : List ValueObject) : Option ListKeysResult :=
  (objectSlots objs).bind
    (sdskvListKeysWithPrefix method calls dbs dbId startKey keyPrefix)

/-- `client::list_keys`; `dbs'` are the databases at the second request, and an exception carries
the error code. `none` is a call that does not end, or an access outside of a vector. -/
def clientListKeys (calls' : ListKeysCalls) (dbs' : Databases σ) (objs : List ValueObject) :
    Option (Except Int (List ValueObject)) := do
  let r ← listKeysInto method calls dbs dbId startKey keyPrefix objs
  if r.ret = SdskvReturn.success.code then (listedObjects objs r).map .ok
  else if r.ret = SdskvReturn.errSize.code then
    let first ← objs.head?
    if first.content.length = 0 then
      let again ← resizedObjects objs r
      let r' ← listKeysInto method calls' dbs' dbId startKey keyPrefix again
      if r'.ret = SdskvReturn.success.code then (listedObjects again r').map .ok
      else some (.error r'.ret)
    else some (.error r.ret)
  else some (.error r.ret)

end Definitions

section Objects

theorem mapM_eq_some_iff {α β : Type*} {f : α → Option β} {l : List α} {out : List β} :
    l.mapM f = some out ↔ l.map f = out.map some := by
  induction l generalizing out with
  | nil => cases out <;> simp
  | cons a l ih =>
      rw [List.mapM_cons, List.map_cons]
      cases hf : f a with
      | none => cases out <;> simp
      | some b =>
          cases out with
          | nil => cases l.mapM f <;> simp
          | cons b' out =>
              rw [List.map_cons, List.cons.injEq, ← ih]
              cases hl : l.mapM f <;> simp

/-- One object for each item. -/
theorem exists_mapM_range {α β : Type*} {f : ℕ → Option α} {g : α → β} {items : List β}
    (h : ∀ (i : ℕ) (item : β), items[i]? = some item → ∃ x, f i = some x ∧ g x = item) :
    ∃ out, (List.range items.length).mapM f = some out ∧ out.map g = items := by
  choose x hx using fun i : Fin items.length =>
    h i (items.get i) (List.getElem?_eq_getElem i.isLt)
  refine ⟨List.ofFn x, mapM_eq_some_iff.2 ?_, ?_⟩
  · apply List.ext_getElem
    · simp
    · intro i hi _
      simpa using (hx ⟨i, by simpa using hi⟩).1
  · apply List.ext_getElem
    · simp
    · intro i _ hi
      simpa using (hx ⟨i, hi⟩).2

theorem length_of_mapM_range {α : Type*} {f : ℕ → Option α} {n : ℕ} {out : List α}
    (h : (List.range n).mapM f = some out) : out.length = n := by
  have hlength := congrArg List.length (mapM_eq_some_iff.1 h)
  simpa using hlength.symm

theorem objectSlots_eq_some {objs : List ValueObject} {a : KeySlots}
    (h : objectSlots objs = some a) : a.slots = objs.map ValueObject.keySlot ∧ a.null = false := by
  rw [objectSlots] at h
  split_ifs at h
  cases h
  exact ⟨rfl, rfl⟩

theorem ValueObject.requestsSize_keySlot (v : ValueObject) :
    v.keySlot.requestsSize = true ↔ v.content = [] := by
  cases hnull : v.isNull with
  | true => simp [KeySlot.requestsSize, keySlot, hnull, v.content_of_isNull hnull]
  | false => simp [KeySlot.requestsSize, keySlot, hnull]

/-- What an object has after the key was written and it was resized to the size of the key. -/
theorem ValueObject.content_withBuffer_resize {v : ValueObject} {buffer : Option Bulk}
    {key : Bulk} (hstart : key <+: buffer.getD []) :
    ((v.withBuffer buffer).resize key.length).content = key := by
  cases buffer with
  | none =>
      rw [List.prefix_nil.1 hstart]
      simp [resize]
  | some b =>
      obtain ⟨rest, rfl⟩ := hstart
      simp [withBuffer, allocated, resize]

/-- Delivered keys are the contents of the objects. -/
theorem listedObjects_of_delivered {objs : List ValueObject} {listed : List Bulk}
    {r : ListKeysResult} (h : KeysDelivered listed r) (hlen : listed.length ≤ objs.length) :
    ∃ out, listedObjects objs r = some out ∧ out.map ValueObject.content = listed := by
  rw [listedObjects, h.count]
  apply exists_mapM_range
  intro i key hkey
  obtain ⟨hksize, buffer, hbuffer, hstart⟩ := h.keys i key hkey
  have hi : i < objs.length := (List.getElem?_eq_some_iff.1 hkey).1.trans_le hlen
  refine ⟨_, ?_, ValueObject.content_withBuffer_resize hstart (v := objs.get ⟨i, hi⟩)⟩
  rw [List.getElem?_eq_getElem hi, hbuffer, hksize]
  rfl

/-- The objects for the second request have the sizes of the reported keys. -/
theorem resizedObjects_of_reported {objs : List ValueObject} {listed : List Bulk}
    {r : ListKeysResult} (hcount : r.maxKeys = listed.length)
    (hksizes : r.ksizes = reportedSizes listed objs.length) (hlen : listed.length ≤ objs.length) :
    ∃ again, resizedObjects objs r = some again ∧
      again.map (fun v => v.content.length) = listed.map List.length := by
  have hlength : (listed.map List.length).length = listed.length := List.length_map _
  rw [resizedObjects, hcount, ← hlength]
  apply exists_mapM_range
  intro i size hsize
  rw [List.getElem?_map, Option.map_eq_some_iff] at hsize
  obtain ⟨key, hkey, rfl⟩ := hsize
  have hi : i < objs.length := (List.getElem?_eq_some_iff.1 hkey).1.trans_le hlen
  refine ⟨(objs.get ⟨i, hi⟩).resize key.length, ?_, ?_⟩
  · rw [List.getElem?_eq_getElem hi, hksizes, getElem?_reportedSizes _ hkey]
    rfl
  · simp only [ValueObject.resize, List.length_append, List.length_take, List.length_replicate]
    omega

end Objects

section Calls

variable {σ : Type} {method : ListKeysMethod σ} {calls : ListKeysCalls} {dbs : Databases σ}
  {dbId : UInt64} {s : σ} {startKey keyPrefix : Bulk} {a : KeySlots} {keys listed : List Bulk}

/-- A call that succeeds has delivered the keys. -/
theorem delivered_of_success (hcalls : calls.Succeed) (hrefused : calls.refused ≠ hgSuccess)
    (hdb : dbs dbId = some s)
    (hlist : method.listKeys s startKey a.slots.length keyPrefix = some keys)
    (hlisted : keys.take a.slots.length = listed) {r : ListKeysResult}
    (hr : sdskvListKeysWithPrefix method calls dbs dbId startKey keyPrefix a = some r)
    (hret : r.ret = SdskvReturn.success.code) : KeysDelivered listed r := by
  have hside : a.Usable ∨ a.Requesting := by
    by_contra hnot
    rw [not_or] at hnot
    rw [sdskvListKeysWithPrefix_of_overflow hnot.1 hnot.2] at hr
    cases hr
  by_cases hnil : listed = []
  · subst hnil
    rw [sdskvListKeysWithPrefix_of_nil hcalls hdb hlist hlisted hside] at hr
    cases hr
    exact keysDelivered_of_nil _ _
  by_cases hlt : a.slots.length < 2 ^ 32
  · by_cases hexceeds : ItemExceeds listed (a.slots.map KeySlot.ksize)
    · rw [sdskvListKeysWithPrefix_of_exceeds hcalls hdb hlist hlisted hside hlt hexceeds] at hr
      cases hr
      exact absurd hret.symm success_ne_errSize
    rcases hside with husable | hrequesting
    · obtain ⟨r', hr', hdelivered⟩ :=
        keysDelivered_of_usable hcalls hdb hlist hlisted husable hexceeds
      cases hr.symm.trans hr'
      exact hdelivered
    · have hempty : ∀ key ∈ listed, key = [] := by
        rw [sdskvListKeysWithPrefix_of_requesting hcalls hdb hlist hlisted hnil hrequesting hlt
          hexceeds] at hr
        cases hr
        by_contra hnot
        rw [if_neg hnot] at hret
        exact makeHgError_ne_success hrefused hret
      obtain ⟨r', hr', hdelivered⟩ :=
        keysDelivered_of_requesting hcalls hdb hlist hlisted hrequesting hempty (Or.inr hlt)
      cases hr.symm.trans hr'
      exact hdelivered
  · rw [sdskvListKeysWithPrefix_of_ge hcalls hdb hlist hlisted hnil (by omega)] at hr
    cases hr

/-- A call that reports the sizes. -/
theorem reported_of_errSize (hcalls : calls.Succeed) (hdb : dbs dbId = some s)
    (hlist : method.listKeys s startKey a.slots.length keyPrefix = some keys)
    (hlisted : keys.take a.slots.length = listed) {r : ListKeysResult}
    (hr : sdskvListKeysWithPrefix method calls dbs dbId startKey keyPrefix a = some r)
    (hret : r.ret = SdskvReturn.errSize.code) :
    r.maxKeys = listed.length ∧ r.ksizes = reportedSizes listed a.slots.length := by
  obtain ⟨hside, hlt, hexceeds⟩ := reportsSizes_of_errSize hcalls hdb hlist hlisted hr hret
  rw [sdskvListKeysWithPrefix_of_exceeds hcalls hdb hlist hlisted hside hlt hexceeds] at hr
  cases hr
  exact ⟨rfl, rfl⟩

end Calls

section Main

variable {σ : Type} {method : ListKeysMethod σ} {calls calls' : ListKeysCalls}
  {dbs dbs' : Databases σ} {dbId : UInt64} {s s' : σ} {startKey keyPrefix : Bulk}
  {objs : List ValueObject} {keys keys' listed : List Bulk}

theorem listKeysInto_eq_some {r : ListKeysResult}
    (h : listKeysInto method calls dbs dbId startKey keyPrefix objs = some r) :
    ∃ a : KeySlots, a.slots.length = objs.length ∧
      sdskvListKeysWithPrefix method calls dbs dbId startKey keyPrefix a = some r := by
  obtain ⟨a, ha, hcall⟩ := Option.bind_eq_some_iff.1 h
  exact ⟨a, by rw [(objectSlots_eq_some ha).1, List.length_map], hcall⟩

/-- After a call that succeeds the objects are the listed keys. -/
theorem listedObjects_of_success (hcalls : calls.Succeed) (hrefused : calls.refused ≠ hgSuccess)
    (hdb : dbs dbId = some s)
    (hlist : method.listKeys s startKey objs.length keyPrefix = some keys) {r : ListKeysResult}
    (hr : listKeysInto method calls dbs dbId startKey keyPrefix objs = some r)
    (hret : r.ret = SdskvReturn.success.code) :
    ∃ out, listedObjects objs r = some out ∧
      out.map ValueObject.content = keys.take objs.length := by
  obtain ⟨a, hlength, hcall⟩ := listKeysInto_eq_some hr
  rw [← hlength] at hlist ⊢
  have hdelivered := delivered_of_success hcalls hrefused hdb hlist rfl hcall hret
  exact listedObjects_of_delivered hdelivered (by rw [← hlength]; exact List.length_take_le _ _)

/-- A call of `client::list_keys` that returns has listed the database of its first or of its
second request. -/
theorem clientListKeys_ok (hcalls : calls.Succeed) (hcalls' : calls'.Succeed)
    (hrefused : calls.refused ≠ hgSuccess) (hrefused' : calls'.refused ≠ hgSuccess)
    (hdb : dbs dbId = some s) (hdb' : dbs' dbId = some s')
    (hlist : method.listKeys s startKey objs.length keyPrefix = some keys)
    (hlist' : method.listKeys s' startKey (keys.take objs.length).length keyPrefix = some keys')
    {out : List ValueObject}
    (h : clientListKeys method calls dbs dbId startKey keyPrefix calls' dbs' objs =
      some (.ok out)) :
    out.map ValueObject.content = keys.take objs.length ∨
      out.map ValueObject.content = keys'.take (keys.take objs.length).length := by
  obtain ⟨r, hr, h⟩ := Option.bind_eq_some_iff.1 h
  split_ifs at h with hret herr
  · obtain ⟨out', hout', hcontent⟩ := listedObjects_of_success hcalls hrefused hdb hlist hr hret
    rw [hout'] at h
    cases h
    exact Or.inl hcontent
  · obtain ⟨first, -, h⟩ := Option.bind_eq_some_iff.1 h
    split_ifs at h
    · obtain ⟨again, hagain, h⟩ := Option.bind_eq_some_iff.1 h
      obtain ⟨r', hr', h⟩ := Option.bind_eq_some_iff.1 h
      split_ifs at h with hret'
      · obtain ⟨a, hlength, hcall⟩ := listKeysInto_eq_some hr
        have hlista := hlist
        rw [← hlength] at hlista
        obtain ⟨hcount, -⟩ := reported_of_errSize hcalls hdb hlista rfl hcall herr
        have hagainLength : again.length = (keys.take objs.length).length := by
          rw [length_of_mapM_range hagain, hcount, hlength]
        rw [← hagainLength] at hlist' ⊢
        obtain ⟨out', hout', hcontent⟩ :=
          listedObjects_of_success hcalls' hrefused' hdb' hlist' hr' hret'
        rw [hout'] at h
        cases h
        exact Or.inr hcontent
      · cases h
    · cases h
  · cases h

/-- Empty objects ask for the sizes. -/
theorem requesting_of_empty {a : KeySlots} (ha : objectSlots objs = some a)
    (hempty : ∀ v ∈ objs, v.content = []) (hne : objs ≠ []) : a.Requesting := by
  obtain ⟨v, rest, rfl⟩ := List.exists_cons_of_ne_nil hne
  refine Or.inr ⟨v.keySlot, ?_, (v.requestsSize_keySlot).2 (hempty v List.mem_cons_self)⟩
  rw [(objectSlots_eq_some ha).1, List.map_cons, show (2 : ℕ) ^ 31 = 2 ^ 31 - 1 + 1 by norm_num,
    List.take_succ_cons]
  exact List.mem_cons_self

/-- Objects of the sizes of keys that are not empty are used as buffers. -/
theorem usable_of_sizes {again : List ValueObject}
    (hsizes : again.map (fun v => v.content.length) = listed.map List.length)
    (hkeys : ∀ key ∈ listed, key ≠ []) (hcount : listed.length < 2 ^ 31)
    (hmemory : listed.flatten.length < 2 ^ 64) :
    ∃ a, objectSlots again = some a ∧ a.Usable ∧ a.slots.length = listed.length ∧
      a.slots.map KeySlot.ksize = listed.map List.length := by
  have hlength : again.length = listed.length := by
    simpa using congrArg List.length hsizes
  have hlt : (again.map ValueObject.content).flatten.length < 2 ^ 64 := by
    rw [List.length_flatten, List.map_map]
    rw [List.length_flatten, ← hsizes] at hmemory
    exact hmemory
  obtain ⟨a, ha⟩ : ∃ a, objectSlots again = some a := ⟨_, dif_pos hlt⟩
  obtain ⟨hslots, hnull⟩ := objectSlots_eq_some ha
  have hslotsLength : a.slots.length = listed.length := by
    rw [hslots, List.length_map, hlength]
  have hksizes : a.slots.map KeySlot.ksize = listed.map List.length := by
    rw [hslots, List.map_map, ← hsizes]
    rfl
  refine ⟨a, ha, ⟨hnull, by omega, ?_⟩, hslotsLength, hksizes⟩
  intro slot hslot
  rw [hslots] at hslot
  obtain ⟨v, hv, rfl⟩ := List.mem_map.1 hslot
  rw [← Bool.not_eq_true, v.requestsSize_keySlot]
  intro hnil
  have hmem : v.content.length ∈ listed.map List.length := by
    rw [← hsizes]
    exact List.mem_map_of_mem hv
  obtain ⟨key, hkey, hkeyLength⟩ := List.mem_map.1 hmem
  rw [hnil, List.length_nil] at hkeyLength
  exact hkeys key hkey (List.length_eq_zero_iff.1 hkeyLength)

/-- The second request, with objects of the sizes of the first. -/
theorem listKeysInto_of_sizes (hcalls' : calls'.Succeed) (hdb' : dbs' dbId = some s')
    (hlist' : method.listKeys s' startKey listed.length keyPrefix = some keys')
    {again : List ValueObject}
    (hsizes : again.map (fun v => v.content.length) = listed.map List.length)
    (hkeys : ∀ key ∈ listed, key ≠ []) (hcount : listed.length < 2 ^ 31)
    (hmemory : listed.flatten.length < 2 ^ 64) :
    ∃ r', listKeysInto method calls' dbs' dbId startKey keyPrefix again = some r' ∧
      (ItemsFit (keys'.take listed.length) listed → r'.ret = SdskvReturn.success.code) ∧
      (¬ ItemsFit (keys'.take listed.length) listed → r'.ret = SdskvReturn.errSize.code) := by
  obtain ⟨a, ha, husable, hlength, hksizes⟩ := usable_of_sizes hsizes hkeys hcount hmemory
  have hinto : listKeysInto method calls' dbs' dbId startKey keyPrefix again =
      sdskvListKeysWithPrefix method calls' dbs' dbId startKey keyPrefix a := by
    rw [listKeysInto, ha]
    rfl
  rw [← hlength] at hlist' ⊢
  rw [hinto, itemsFit_iff, ← hksizes]
  by_cases hexceeds : ItemExceeds (keys'.take a.slots.length) (a.slots.map KeySlot.ksize)
  · exact ⟨_, sdskvListKeysWithPrefix_of_exceeds hcalls' hdb' hlist' rfl (Or.inl husable)
      (by omega) hexceeds, fun h => absurd hexceeds h, fun _ => rfl⟩
  · obtain ⟨r', hr', hdelivered⟩ :=
      keysDelivered_of_usable hcalls' hdb' hlist' rfl husable hexceeds
    exact ⟨r', hr', fun _ => hdelivered.ret, fun h => absurd hexceeds h⟩

/-- The first request with empty objects: it succeeds if there is no key, and otherwise it
reports the sizes. -/
theorem listKeysInto_of_empty (hcalls : calls.Succeed) (hdb : dbs dbId = some s)
    (hlist : method.listKeys s startKey objs.length keyPrefix = some keys)
    (hempty : ∀ v ∈ objs, v.content = []) (hcount : objs.length < 2 ^ 31)
    (hkeys : ∀ key ∈ keys.take objs.length, key ≠ []) :
    ∃ r, listKeysInto method calls dbs dbId startKey keyPrefix objs = some r ∧
      (keys.take objs.length = [] → r.ret = SdskvReturn.success.code ∧ r.maxKeys = 0) ∧
      (keys.take objs.length ≠ [] → r.ret = SdskvReturn.errSize.code ∧
        r.maxKeys = (keys.take objs.length).length ∧
        r.ksizes = reportedSizes (keys.take objs.length) objs.length) := by
  have hcontents : objs.map ValueObject.content = List.replicate objs.length [] :=
    List.eq_replicate_iff.2 ⟨List.length_map _, by simpa using hempty⟩
  obtain ⟨a, ha⟩ : ∃ a, objectSlots objs = some a := by
    refine ⟨_, dif_pos ?_⟩
    rw [hcontents]
    simp
  have hslots := (objectSlots_eq_some ha).1
  have hlength : a.slots.length = objs.length := by rw [hslots, List.length_map]
  have hside : a.Usable ∨ a.Requesting := by
    by_cases hnil : objs = []
    · exact Or.inl ⟨(objectSlots_eq_some ha).2, by omega, by simp [hslots, hnil]⟩
    · exact Or.inr (requesting_of_empty ha hempty hnil)
  have hinto : listKeysInto method calls dbs dbId startKey keyPrefix objs =
      sdskvListKeysWithPrefix method calls dbs dbId startKey keyPrefix a := by
    rw [listKeysInto, ha]
    rfl
  rw [hinto]
  rw [← hlength] at hlist hkeys ⊢
  generalize hlisted : keys.take a.slots.length = listed at hkeys ⊢
  cases hlistedCases : listed with
  | nil =>
      subst hlistedCases
      exact ⟨_, sdskvListKeysWithPrefix_of_nil hcalls hdb hlist hlisted hside,
        fun _ => ⟨rfl, rfl⟩, fun h => absurd rfl h⟩
  | cons key rest =>
      rw [← hlistedCases]
      -- the first key does not fit into an empty object
      have hexceeds : ItemExceeds listed (a.slots.map KeySlot.ksize) := by
        have hpos : 0 < objs.length := by
          have hle := length_le_of_take hlisted
          rw [hlistedCases, List.length_cons] at hle
          omega
        refine ⟨0, key, 0, by rw [hlistedCases]; rfl, ?_, ?_⟩
        · rw [hslots, List.map_map, List.getElem?_map, List.getElem?_eq_getElem hpos]
          exact congrArg (fun b : Bulk => some b.length) (hempty _ (List.getElem_mem hpos))
        · exact List.length_pos_iff.2 (hkeys key (by rw [hlistedCases]; exact List.mem_cons_self))
      exact ⟨_, sdskvListKeysWithPrefix_of_exceeds hcalls hdb hlist hlisted hside (by omega)
        hexceeds, fun h => absurd (hlistedCases.symm.trans h) (by simp), fun _ => ⟨rfl, rfl, rfl⟩⟩

/-- With empty objects the keys are listed twice, unless there is none. -/
theorem clientListKeys_of_empty (hcalls : calls.Succeed) (hcalls' : calls'.Succeed)
    (hrefused' : calls'.refused ≠ hgSuccess) (hdb : dbs dbId = some s)
    (hdb' : dbs' dbId = some s')
    (hlist : method.listKeys s startKey objs.length keyPrefix = some keys)
    (hlist' : method.listKeys s' startKey (keys.take objs.length).length keyPrefix = some keys')
    (hempty : ∀ v ∈ objs, v.content = []) (hcount : objs.length < 2 ^ 31)
    (hkeys : ∀ key ∈ keys.take objs.length, key ≠ [])
    (hmemory : (keys.take objs.length).flatten.length < 2 ^ 64) :
    (ItemsFit (keys'.take (keys.take objs.length).length) (keys.take objs.length) →
      ∃ out, clientListKeys method calls dbs dbId startKey keyPrefix calls' dbs' objs =
          some (.ok out) ∧
        out.map ValueObject.content = keys'.take (keys.take objs.length).length) ∧
    (¬ ItemsFit (keys'.take (keys.take objs.length).length) (keys.take objs.length) →
      clientListKeys method calls dbs dbId startKey keyPrefix calls' dbs' objs =
        some (.error SdskvReturn.errSize.code)) := by
  obtain ⟨r, hr, hnil, hcons⟩ := listKeysInto_of_empty hcalls hdb hlist hempty hcount hkeys
  have hle : (keys.take objs.length).length ≤ objs.length := List.length_take_le _ _
  generalize keys.take objs.length = listed at *
  by_cases hlisted : listed = []
  · obtain ⟨hret, hmax⟩ := hnil hlisted
    subst hlisted
    refine ⟨fun _ => ⟨[], ?_, rfl⟩, fun hnot => absurd ?_ hnot⟩
    · simp [clientListKeys, hr, hret, listedObjects, hmax]
    · rintro i item old - hold
      cases hold
  · obtain ⟨hret, hmax, hksizes⟩ := hcons hlisted
    obtain ⟨again, hagain, hsizes⟩ := resizedObjects_of_reported hmax hksizes hle
    obtain ⟨r', hr', hfits, hnot⟩ :=
      listKeysInto_of_sizes hcalls' hdb' hlist' hsizes hkeys (by omega) hmemory
    have hagainLength : again.length = listed.length := by
      simpa using congrArg List.length hsizes
    obtain ⟨v, rest, hobjs⟩ : ∃ v rest, objs = v :: rest := by
      apply List.exists_cons_of_ne_nil
      rintro rfl
      exact hlisted (List.length_eq_zero_iff.1 (by simpa using hle))
    have hfirst : v.content = [] := hempty v (by rw [hobjs]; exact List.mem_cons_self)
    have hcall : clientListKeys method calls dbs dbId startKey keyPrefix calls' dbs' objs =
        if r'.ret = SdskvReturn.success.code then (listedObjects again r').map .ok
        else some (.error r'.ret) := by
      simp only [clientListKeys, hr, Option.bind_eq_bind, Option.bind_some, hret,
        if_neg (Ne.symm success_ne_errSize), if_true, hagain, hr']
      rw [hobjs]
      simp [hfirst]
    rw [hcall]
    constructor
    · intro hfit
      rw [if_pos (hfits hfit)]
      rw [← hagainLength] at hlist' ⊢
      obtain ⟨out, hout, hcontent⟩ :=
        listedObjects_of_success hcalls' hrefused' hdb' hlist' hr' (hfits hfit)
      exact ⟨out, by rw [hout]; rfl, hcontent⟩
    · intro hfit
      rw [hnot hfit, if_neg (Ne.symm success_ne_errSize)]

/-- A map database with a key of one byte and one of two. -/
def shortAndLongKey : MapState none false := mapOfEntries [([1], [7]), ([2, 3], [8])]

end Main

end Sdskv
