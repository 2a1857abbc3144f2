import Sdskv.Rpc.ListKeys

/-!
# Listing keys again with the reported sizes

A listing whose buffers are too small reports the sizes of the keys, so that the client can
list again with buffers of these sizes. For an empty key that is a 0-sized buffer, which the
client takes for another request of the sizes: it exposes none of its buffers, and the handler
fails to push the keys.
-/

namespace Sdskv

open Wire

/-- The call succeeds, and the buffers start with the listed keys. -/
structure KeysDelivered (listed : List Bulk) (result : ListKeysResult) : Prop where
  ret : result.ret = SdskvReturn.success.code
  count : result.maxKeys = listed.length
  keys : ∀ (i : ℕ) (key : Bulk), listed[i]? = some key →
    result.ksizes[i]? = some key.length ∧
      ∃ buffer, result.keys[i]? = some buffer ∧ key <+: buffer.getD []

variable {σ : Type} (method : ListKeysMethod σ) (calls : ListKeysCalls) (dbs : Databases σ)
  (dbId : UInt64) (startKey keyPrefix : Bulk)

/-- Keys that fit into the buffers are delivered. -/
def FitsDelivers (listed : List Bulk) (a : KeySlots) : Prop :=
  ItemsFit listed (a.slots.map KeySlot.bytes) →
    ∃ result, sdskvListKeysWithPrefix method calls dbs dbId startKey keyPrefix a = some result ∧
      KeysDelivered listed result

/-- After a size error, the call delivers the keys when it is repeated with the reported
number of buffers of the reported sizes. -/
def RetryDelivers (listed : List Bulk) (a : KeySlots) : Prop :=
  ∀ result, sdskvListKeysWithPrefix method calls dbs dbId startKey keyPrefix a = some result →
    result.ret = SdskvReturn.errSize.code →
    ∀ again : KeySlots, again.slots.map KeySlot.ksize = result.ksizes.take result.maxKeys →
      (∀ slot ∈ again.slots, slot.buffer ≠ none) →
      ∃ result', sdskvListKeysWithPrefix method calls dbs dbId startKey keyPrefix again =
          some result' ∧ KeysDelivered listed result'

/-- The call is not taken for a request of the sizes, or there is nothing to push. -/
def Deliverable (listed : List Bulk) (a : KeySlots) : Prop :=
  a.Usable ∨ a.Requesting ∧ (∀ key ∈ listed, key = []) ∧
    (listed = [] ∨ a.slots.length < 2 ^ 32)

/-- The call reports the sizes because a key exceeds its announced size. -/
def ReportsSizes (listed : List Bulk) (a : KeySlots) : Prop :=
  (a.Usable ∨ a.Requesting) ∧ a.slots.length < 2 ^ 32 ∧
    ItemExceeds listed (a.slots.map KeySlot.ksize)

section Outcomes

variable {method : ListKeysMethod σ} {calls : ListKeysCalls} {dbs : Databases σ}
  {dbId : UInt64} {s : σ} {startKey keyPrefix : Bulk} {a : KeySlots} {keys listed : List Bulk}

/-- Keys that fit into the buffers are within the announced sizes. -/
theorem not_itemExceeds_of_fits (h : ItemsFit listed (a.slots.map KeySlot.bytes)) :
    ¬ ItemExceeds listed (a.slots.map KeySlot.ksize) := by
  rintro ⟨i, key, size, hkey, hsize, hlt⟩
  rw [List.getElem?_map, Option.map_eq_some_iff] at hsize
  obtain ⟨slot, hslot, rfl⟩ := hsize
  have hfit := h i key slot.bytes hkey (by rw [List.getElem?_map, hslot]; rfl)
  have hbytes := slot.length_bytes_le
  omega

theorem keysDelivered_of_nil (ksizes : List ℕ) (buffers : List (Option Bulk)) :
    KeysDelivered []
      { ret := SdskvReturn.success.code, maxKeys := 0, ksizes := ksizes, keys := buffers } where
  ret := rfl
  count := rfl
  keys i key hkey := by cases hkey

theorem keysDelivered_of_usable (hcalls : calls.Succeed) (hdb : dbs dbId = some s)
    (hlist : method.listKeys s startKey a.slots.length keyPrefix = some keys)
    (hlisted : keys.take a.slots.length = listed) (husable : a.Usable)
    (hfits : ¬ ItemExceeds listed (a.slots.map KeySlot.ksize)) :
    ∃ result, sdskvListKeysWithPrefix method calls dbs dbId startKey keyPrefix a = some result ∧
      KeysDelivered listed result := by
  by_cases hnil : listed = []
  · subst hnil
    exact ⟨_, sdskvListKeysWithPrefix_of_nil hcalls hdb hlist hlisted (Or.inl husable),
      keysDelivered_of_nil _ _⟩
  · refine ⟨_, sdskvListKeysWithPrefix_of_usable hcalls hdb hlist hlisted hnil husable hfits,
      rfl, rfl, ?_⟩
    intro i key hkey
    have hlen : listed.length ≤ (a.slots.map KeySlot.bytes).length := by
      rw [List.length_map]
      exact length_le_of_take hlisted
    obtain ⟨b, hb, hprefix⟩ := prefix_fillBuffers hlen hkey
    exact ⟨getElem?_reportedSizes _ hkey, some b, by rw [List.getElem?_map, hb]; rfl, hprefix⟩

theorem keysDelivered_of_requesting (hcalls : calls.Succeed) (hdb : dbs dbId = some s)
    (hlist : method.listKeys s startKey a.slots.length keyPrefix = some keys)
    (hlisted : keys.take a.slots.length = listed) (hrequesting : a.Requesting)
    (hempty : ∀ key ∈ listed, key = []) (hends : listed = [] ∨ a.slots.length < 2 ^ 32) :
    ∃ result, sdskvListKeysWithPrefix method calls dbs dbId startKey keyPrefix a = some result ∧
      KeysDelivered listed result := by
  by_cases hnil : listed = []
  · subst hnil
    exact ⟨_, sdskvListKeysWithPrefix_of_nil hcalls hdb hlist hlisted (Or.inr hrequesting),
      keysDelivered_of_nil _ _⟩
  · have hfits : ¬ ItemExceeds listed (a.slots.map KeySlot.ksize) := by
      rintro ⟨i, key, size, hkey, -, hlt⟩
      rw [hempty key (List.mem_of_getElem? hkey), List.length_nil] at hlt
      omega
    refine ⟨_, sdskvListKeysWithPrefix_of_requesting hcalls hdb hlist hlisted hnil hrequesting
      (hends.resolve_left hnil) hfits, if_pos hempty, rfl, ?_⟩
    intro i key hkey
    have hi : i < a.slots.length :=
      Nat.lt_of_lt_of_le (List.getElem?_eq_some_iff.1 hkey).1 (length_le_of_take hlisted)
    refine ⟨getElem?_reportedSizes _ hkey, (a.slots.get ⟨i, hi⟩).buffer, ?_, ?_⟩
    · rw [List.getElem?_map, List.getElem?_eq_getElem hi]
      rfl
    · rw [hempty key (List.mem_of_getElem? hkey)]
      exact List.nil_prefix

/-- Keys that fit are delivered only if the client has exposed its buffers or needs none. -/
theorem deliverable_of_delivered (hcalls : calls.Succeed)
    (hrefused : calls.refused ≠ hgSuccess) (hdb : dbs dbId = some s)
    (hlist : method.listKeys s startKey a.slots.length keyPrefix = some keys)
    (hlisted : keys.take a.slots.length = listed)
    (hfits : ¬ ItemExceeds listed (a.slots.map KeySlot.ksize)) {result : ListKeysResult}
    (hresult : sdskvListKeysWithPrefix method calls dbs dbId startKey keyPrefix a = some result)
    (hdelivered : KeysDelivered listed result) : Deliverable listed a := by
  by_cases husable : a.Usable
  · exact Or.inl husable
  by_cases hrequesting : a.Requesting
  · refine Or.inr ⟨hrequesting, ?_⟩
    by_cases hnil : listed = []
    · exact ⟨by simp [hnil], Or.inl hnil⟩
    by_cases hlt : a.slots.length < 2 ^ 32
    · rw [sdskvListKeysWithPrefix_of_requesting hcalls hdb hlist hlisted hnil hrequesting hlt
        hfits] at hresult
      cases hresult
      refine ⟨?_, Or.inr hlt⟩
      by_contra hempty
      have hret := hdelivered.ret
      rw [if_neg hempty] at hret
      exact makeHgError_ne_success hrefused hret
    · rw [sdskvListKeysWithPrefix_of_ge hcalls hdb hlist hlisted hnil (by omega)] at hresult
      cases hresult
  · rw [sdskvListKeysWithPrefix_of_overflow husable hrequesting] at hresult
    cases hresult

/-- A size error comes from a key that exceeds its announced size. -/
theorem reportsSizes_of_errSize (hcalls : calls.Succeed) (hdb : dbs dbId = some s)
    (hlist : method.listKeys s startKey a.slots.length keyPrefix = some keys)
    (hlisted : keys.take a.slots.length = listed) {result : ListKeysResult}
    (hresult : sdskvListKeysWithPrefix method calls dbs dbId startKey keyPrefix a = some result)
    (hret : result.ret = SdskvReturn.errSize.code) : ReportsSizes listed a := by
  have hside : a.Usable ∨ a.Requesting := by
    by_contra hnot
    rw [not_or] at hnot
    rw [sdskvListKeysWithPrefix_of_overflow hnot.1 hnot.2] at hresult
    cases hresult
  by_cases hnil : listed = []
  · subst hnil
    rw [sdskvListKeysWithPrefix_of_nil hcalls hdb hlist hlisted hside] at hresult
    cases hresult
    exact absurd hret success_ne_errSize
  by_cases hlt : a.slots.length < 2 ^ 32
  · refine ⟨hside, hlt, ?_⟩
    by_contra hfits
    rcases hside with husable | hrequesting
    · rw [sdskvListKeysWithPrefix_of_usable hcalls hdb hlist hlisted hnil husable
        hfits] at hresult
      cases hresult
      exact success_ne_errSize hret
    · rw [sdskvListKeysWithPrefix_of_requesting hcalls hdb hlist hlisted hnil hrequesting hlt
        hfits] at hresult
      cases hresult
      simp only at hret
      split_ifs at hret
      · exact success_ne_errSize hret
      · exact makeHgError_ne_errSize _ hret
  · rw [sdskvListKeysWithPrefix_of_ge hcalls hdb hlist hlisted hnil (by omega)] at hresult
    cases hresult

end Outcomes

section Main

variable {method : ListKeysMethod σ} {calls : ListKeysCalls} {dbs : Databases σ}
  {dbId : UInt64} {s : σ} {startKey keyPrefix : Bulk} {a : KeySlots} {keys listed : List Bulk}

theorem fitsDelivers_iff (hcalls : calls.Succeed) (hrefused : calls.refused ≠ hgSuccess)
    (hdb : dbs dbId = some s)
    (hlist : method.listKeys s startKey a.slots.length keyPrefix = some keys)
    (hlisted : keys.take a.slots.length = listed) :
    FitsDelivers method calls dbs dbId startKey keyPrefix listed a ↔
      (ItemsFit listed (a.slots.map KeySlot.bytes) → Deliverable listed a) := by
  constructor
  · intro h hfits
    obtain ⟨result, hresult, hdelivered⟩ := h hfits
    exact deliverable_of_delivered hcalls hrefused hdb hlist hlisted
      (not_itemExceeds_of_fits hfits) hresult hdelivered
  · intro h hfits
    rcases h hfits with husable | ⟨hrequesting, hempty, hends⟩
    · exact keysDelivered_of_usable hcalls hdb hlist hlisted husable
        (not_itemExceeds_of_fits hfits)
    · exact keysDelivered_of_requesting hcalls hdb hlist hlisted hrequesting hempty hends

/-- What the database lists when it is asked for as many keys as the call has reported. -/
theorem listKeys_again
    (hlist : method.listKeys s startKey a.slots.length keyPrefix = some keys)
    (hlisted : keys.take a.slots.length = listed) (hne : listed ≠ []) :
    method.listKeys s startKey listed.length keyPrefix = some listed := by
  have hcount : listed.length = min a.slots.length keys.length := by
    rw [← hlisted, List.length_take]
  have hagain := method.listKeys_take hlist (List.length_pos_iff.2 hne) (by omega)
  have htake : keys.take listed.length = listed :=
    (List.take_eq_take_iff.2 (by omega)).trans hlisted
  rwa [htake] at hagain

/-- Keys are within sizes that are their lengths. -/
theorem not_itemExceeds_lengths (listed : List Bulk) :
    ¬ ItemExceeds listed (listed.map List.length) := by
  rintro ⟨i, key, size, hkey, hsize, hlt⟩
  rw [List.getElem?_map, hkey] at hsize
  cases hsize
  omega

theorem take_reportedSizes (listed : List Bulk) (n : ℕ) :
    (reportedSizes listed n).take listed.length = listed.map List.length :=
  List.take_left' (List.length_map _)

/-- A call with buffers of the reported sizes, of which one is empty or which are more than
the counter of the client can hold, does not deliver the keys. -/
theorem usable_of_retryDelivers (hcalls : calls.Succeed) (hrefused : calls.refused ≠ hgSuccess)
    (hdb : dbs dbId = some s)
    (hlist : method.listKeys s startKey a.slots.length keyPrefix = some keys)
    (hlisted : keys.take a.slots.length = listed)
    (hmem : listed.flatten.length < 2 ^ 64) (hreports : ReportsSizes listed a)
    (hretry : RetryDelivers method calls dbs dbId startKey keyPrefix listed a) :
    (∀ key ∈ listed, key ≠ []) ∧ listed.length < 2 ^ 31 := by
  obtain ⟨hside, hlt, hexceeds⟩ := hreports
  have hne := hexceeds.ne_nil
  have hcall := sdskvListKeysWithPrefix_of_exceeds hcalls hdb hlist hlisted hside hlt hexceeds
  have hlength : (KeySlots.ofBuffers listed hmem).slots.length = listed.length :=
    List.length_map _
  have hksizes : (KeySlots.ofBuffers listed hmem).slots.map KeySlot.ksize =
      listed.map List.length := map_ksize_ofBuffer listed
  obtain ⟨result, hresult, hdelivered⟩ := hretry _ hcall rfl (KeySlots.ofBuffers listed hmem)
    (by rw [hksizes, take_reportedSizes])
    (by
      intro slot hslot
      obtain ⟨b, -, rfl⟩ := List.mem_map.1 hslot
      exact fun h => by cases h)
  have hagain := listKeys_again hlist hlisted hne
  rw [← hlength] at hagain
  rcases deliverable_of_delivered hcalls hrefused hdb hagain
      (List.take_of_length_le (Nat.le_of_eq hlength.symm))
      (by rw [hksizes]; exact not_itemExceeds_lengths listed) hresult hdelivered with
    husable | ⟨-, hempty, -⟩
  · exact (KeySlots.usable_ofBuffers.1 husable).symm
  · -- the key that has exceeded its size is not empty
    obtain ⟨i, key, size, hkey, -, hlt⟩ := hexceeds
    rw [hempty key (List.mem_of_getElem? hkey), List.length_nil] at hlt
    omega

theorem retryDelivers_of_usable (hcalls : calls.Succeed) (hdb : dbs dbId = some s)
    (hlist : method.listKeys s startKey a.slots.length keyPrefix = some keys)
    (hlisted : keys.take a.slots.length = listed)
    (h : ReportsSizes listed a → (∀ key ∈ listed, key ≠ []) ∧ listed.length < 2 ^ 31) :
    RetryDelivers method calls dbs dbId startKey keyPrefix listed a := by
  intro result hresult hret again hsizes hbuffers
  have hreports := reportsSizes_of_errSize hcalls hdb hlist hlisted hresult hret
  obtain ⟨hkeys, hint⟩ := h hreports
  obtain ⟨hside, hlt, hexceeds⟩ := hreports
  rw [sdskvListKeysWithPrefix_of_exceeds hcalls hdb hlist hlisted hside hlt hexceeds] at hresult
  cases hresult
  rw [take_reportedSizes] at hsizes
  have hlength : again.slots.length = listed.length := by
    have hlengths := congrArg List.length hsizes
    rwa [List.length_map, List.length_map] at hlengths
  have hpos : ∀ slot ∈ again.slots, slot.ksize ≠ 0 := by
    intro slot hslot hzero
    have hmem : slot.ksize ∈ listed.map List.length := by
      rw [← hsizes]
      exact List.mem_map_of_mem hslot
    obtain ⟨key, hkey, hlen⟩ := List.mem_map.1 hmem
    exact hkeys key hkey (List.length_eq_zero_iff.1 (hlen.trans hzero))
  have hnull : again.null = false := by
    rw [← Bool.not_eq_true]
    intro hnull
    obtain ⟨slot, hslot⟩ := List.exists_mem_of_length_pos
      (show 0 < again.slots.length by
        rw [hlength]
        exact List.length_pos_iff.2 hexceeds.ne_nil)
    exact hbuffers slot hslot (again.buffer_of_null hnull slot hslot)
  have husable : again.Usable := by
    refine ⟨hnull, by omega, ?_⟩
    intro slot hslot
    have hnone : slot.buffer.isNone = false := by
      rw [← Bool.not_eq_true, Option.isNone_iff_eq_none]
      exact hbuffers slot hslot
    simp [KeySlot.requestsSize, hnone, hpos slot hslot]
  have hagain := listKeys_again hlist hlisted hexceeds.ne_nil
  rw [← hlength] at hagain
  exact keysDelivered_of_usable hcalls hdb hagain
    (List.take_of_length_le (Nat.le_of_eq hlength.symm)) husable
    (by rw [hsizes]; exact not_itemExceeds_lengths listed)

/-- Keys that fit are delivered, and a call after a size error delivers them, exactly when
neither call is taken for a request of the sizes while there is something to push. -/
theorem fitsDelivers_and_retryDelivers_iff (hcalls : calls.Succeed)
    (hrefused : calls.refused ≠ hgSuccess) (hdb : dbs dbId = some s) (a : KeySlots)
    (hlist : method.listKeys s startKey a.slots.length keyPrefix = some keys)
    (hmem : (keys.take a.slots.length).flatten.length < 2 ^ 64) :
    (FitsDelivers method calls dbs dbId startKey keyPrefix (keys.take a.slots.length) a ∧
        RetryDelivers method calls dbs dbId startKey keyPrefix (keys.take a.slots.length) a) ↔
      (ItemsFit (keys.take a.slots.length) (a.slots.map KeySlot.bytes) →
          Deliverable (keys.take a.slots.length) a) ∧
        (ReportsSizes (keys.take a.slots.length) a →
          (∀ key ∈ keys.take a.slots.length, key ≠ []) ∧
            (keys.take a.slots.length).length < 2 ^ 31) := by
  rw [fitsDelivers_iff hcalls hrefused hdb hlist rfl]
  apply and_congr_right
  intro _
  constructor
  · intro hretry hreports
    exact usable_of_retryDelivers hcalls hrefused hdb hlist rfl hmem hreports hretry
  · exact retryDelivers_of_usable hcalls hdb hlist rfl

/-- A map database with a key of two bytes. -/
def twoByteKey : MapState none false := singleEntry false [1, 2] [3]

/-- A buffer that the key fits in. -/
def twoByteSlot : KeySlots := KeySlots.ofBuffers [[0, 0]] (by simp)

/-- A buffer that the key exceeds. -/
def oneByteSlot : KeySlots := KeySlots.ofBuffers [[0]] (by simp)

/-- With a buffer of two bytes the key is delivered at once; with a buffer of one byte its size
is reported, and a second call delivers it. -/
theorem fitsDelivers_and_retryDelivers_twoByteKey :
    (FitsDelivers mapListKeys .succeeding (oneDatabase twoByteKey.1) 5 [] [] [[1, 2]]
          twoByteSlot ∧
        RetryDelivers mapListKeys .succeeding (oneDatabase twoByteKey.1) 5 [] [] [[1, 2]]
          twoByteSlot) ∧
      ReportsSizes [[1, 2]] oneByteSlot ∧
      FitsDelivers mapListKeys .succeeding (oneDatabase twoByteKey.1) 5 [] [] [[1, 2]]
          oneByteSlot ∧
        RetryDelivers mapListKeys .succeeding (oneDatabase twoByteKey.1) 5 [] [] [[1, 2]]
          oneByteSlot := by
  have hdb : oneDatabase twoByteKey.1 5 = some twoByteKey.1 := rfl
  have hlist : mapListKeys.listKeys twoByteKey.1 [] 1 [] = some [[1, 2]] := rfl
  have hrefused : ListKeysCalls.succeeding.refused ≠ hgSuccess := by decide
  have hone : oneByteSlot.Usable := KeySlots.usable_ofBuffers.2 (by decide)
  have htwo : twoByteSlot.Usable := KeySlots.usable_ofBuffers.2 (by decide)
  refine ⟨(fitsDelivers_and_retryDelivers_iff ListKeysCalls.succeed_succeeding hrefused hdb
      twoByteSlot hlist (by decide)).2 ⟨fun _ => Or.inl htwo, fun _ => ⟨by decide, by decide⟩⟩,
    ⟨Or.inl hone, by decide, 0, [1, 2], 1, rfl, rfl, by decide⟩,
    (fitsDelivers_and_retryDelivers_iff ListKeysCalls.succeed_succeeding hrefused hdb oneByteSlot
      hlist (by decide)).2 ⟨fun _ => Or.inl hone, fun _ => ⟨by decide, by decide⟩⟩⟩

/-- A map database whose first key is empty. -/
def emptyAndByteKey : MapState none false := mapOfEntries [([], [2]), ([1], [3])]

/-- Two NULL buffers, with which the client asks for the sizes. -/
def twoNullSlots : KeySlots where
  slots := [KeySlot.ofNull 0, KeySlot.ofNull 0]
  null := false
  buffer_of_null h := by cases h
  bytes_lt := by decide

/-- The sizes of the keys are reported as 0 and 1, and with buffers of these sizes the call
fails. -/
theorem not_retryDelivers_emptyKey :
    mapListKeys.listKeys emptyAndByteKey.1 [] 2 [] = some [[], [1]] ∧
    ¬ (FitsDelivers mapListKeys .succeeding (oneDatabase emptyAndByteKey.1) 5 [] []
        [[], [1]] twoNullSlots ∧
      RetryDelivers mapListKeys .succeeding (oneDatabase emptyAndByteKey.1) 5 [] []
        [[], [1]] twoNullSlots) := by
  refine ⟨rfl, ?_⟩
  rintro ⟨-, hretry⟩
  obtain ⟨result, hresult, hdelivered⟩ := hretry _ rfl rfl
    (KeySlots.ofBuffers [[], [0]] (by decide)) rfl (by decide)
  cases hresult
  cases hdelivered.ret

end Main

end Sdskv
