import Sdskv.Client.Get

/-!
# The two paths of a get

`sdskv_get` sends the request of `sdskv_get_ult` when the value that may come back fits in
a message, and the one of `sdskv_bulk_get_ult` otherwise. The two answer alike for a key
that is bound. For a key or a database that is unknown, the first path leaves `*vsize` as
it was and the second sets it to 0.
-/

namespace Sdskv

/-- What the caller of `sdskv_get` sees: the return value, the buffer and `*vsize`. -/
def seenByCaller {σ : Type*} (r : Int × ValueObject × ℕ × Databases σ) :
    Int × ValueObject × ℕ :=
  (r.1, r.2.1, r.2.2.1)

/-- The outcome of a get that finds the value `w`: the value if it fits into the buffer,
and the required size if it does not. -/
def foundOutcome (value : ValueObject) (vsize : ℕ) (w : Bulk) : Int × ValueObject × ℕ :=
  if w.length ≤ vsize then (SdskvReturn.success.code, value.write w, w.length)
  else (SdskvReturn.errSize.code, value, w.length)

/-- The code of a get that finds no value. -/
def missingCode {σ : Type*} : Option σ → Int
  | none => SdskvReturn.errUnknownDb.code
  | some _ => SdskvReturn.errUnknownKey.code

theorem ValueObject.write_nil {v : ValueObject} (hv : v.isNull = false) : v.write [] = v := by
  obtain ⟨content, isNull, hnull⟩ := v
  cases hv
  rfl

section Paths

variable {σ : Type*} (ds : DatastoreReads σ) (net : Transport) (dbs : Databases σ)
  (dbId : UInt64) (key : KvData)

/-- The value that `get` returns for the key. -/
def fetchedValue : Option Bulk := (dbs dbId).bind fun s => (ds.get s key.data).1

/-- The get has the same result on both paths: the value and its length if it fits, the
required length and an untouched buffer if it does not, and the code of what is unknown. -/
structure SamePaths (value : ValueObject) (vsize : ℕ) : Prop where
  inline : seenByCaller (sdskvGet ds net dbs dbId key value vsize) =
    seenByCaller (getInline ds net dbs dbId key value vsize)
  bulk : seenByCaller (sdskvGet ds net dbs dbId key value vsize) =
    seenByCaller (getBulk ds net dbs dbId key value vsize)
  found : ∀ w, fetchedValue ds dbs dbId key = some w →
    seenByCaller (sdskvGet ds net dbs dbId key value vsize) = foundOutcome value vsize w
  missing : fetchedValue ds dbs dbId key = none →
    (sdskvGet ds net dbs dbId key value vsize).1 = missingCode (dbs dbId)

theorem seen_getInline (hclient : firstFailure net.client = none) (value : ValueObject)
    (vsize : ℕ) :
    seenByCaller (getInline ds net dbs dbId key value vsize) =
      match fetchedValue ds dbs dbId key with
      | some w => foundOutcome value vsize w
      | none => (missingCode (dbs dbId), value, vsize) := by
  unfold fetchedValue
  cases hdb : dbs dbId with
  | none => simp [getInline, hclient, sdskvGetUlt, answerFrom, hdb, seenByCaller, missingCode]
  | some s =>
      simp only [getInline, hclient, sdskvGetUlt, answerFrom, hdb, Option.bind_some]
      cases (ds.get s key.data).1 with
      | none => simp [getAnswer, seenByCaller, missingCode]
      | some w =>
          by_cases hsize : w.length ≤ vsize
          · simp [getAnswer, foundOutcome, hsize, seenByCaller]
          · simp [getAnswer, foundOutcome, hsize, seenByCaller]

theorem seen_getBulk (hclient : firstFailure net.client = none)
    (hserver : firstFailure net.server = none) {value : ValueObject}
    (hvalue : value.isNull = false) (vsize : ℕ) :
    seenByCaller (getBulk ds net dbs dbId key value vsize) =
      match fetchedValue ds dbs dbId key with
      | some w => foundOutcome value vsize w
      | none => (missingCode (dbs dbId), value, 0) := by
  have hwrite := ValueObject.write_nil hvalue
  unfold fetchedValue
  cases hdb : dbs dbId with
  | none =>
      simp [getBulk, hclient, sdskvBulkGetUlt, answerFrom, hdb, seenByCaller, missingCode,
        hwrite]
  | some s =>
      simp only [getBulk, hclient, sdskvBulkGetUlt, answerFrom, hdb, Option.bind_some]
      cases (ds.get s key.data).1 with
      | none => simp [bulkGetAnswer, seenByCaller, missingCode, hwrite]
      | some w =>
          by_cases hsize : w.length ≤ vsize
          · cases w with
            | nil => simp [bulkGetAnswer, foundOutcome, seenByCaller]
            | cons b bs =>
                rw [List.length_cons] at hsize
                simp [bulkGetAnswer, foundOutcome, seenByCaller, hserver, hsize,
                  Nat.not_lt.2 hsize]
          · simp [bulkGetAnswer, foundOutcome, hsize, seenByCaller, hwrite, Nat.not_le.1 hsize]

/-- A get into a buffer takes one of the two paths. -/
theorem sdskvGet_inline_or_bulk {value : ValueObject} (hvalue : value.isNull = false)
    (vsize : ℕ) :
    sdskvGet ds net dbs dbId key value vsize = getInline ds net dbs dbId key value vsize ∨
      sdskvGet ds net dbs dbId key value vsize = getBulk ds net dbs dbId key value vsize := by
  simp only [sdskvGet, hvalue, Bool.false_eq_true, if_false]
  split_ifs
  · exact Or.inl rfl
  · exact Or.inr rfl

/-- A get of a key that has a value has the outcome of the value, on whichever path. -/
theorem seen_sdskvGet_found (hclient : firstFailure net.client = none)
    (hserver : firstFailure net.server = none) {value : ValueObject}
    (hvalue : value.isNull = false) (vsize : ℕ) {w : Bulk}
    (hw : fetchedValue ds dbs dbId key = some w) :
    seenByCaller (sdskvGet ds net dbs dbId key value vsize) = foundOutcome value vsize w := by
  rcases sdskvGet_inline_or_bulk ds net dbs dbId key hvalue vsize with hpath | hpath
  · rw [hpath, seen_getInline ds net dbs dbId key hclient, hw]
  · rw [hpath, seen_getBulk ds net dbs dbId key hclient hserver hvalue, hw]

theorem fetchedValue_isSome_iff :
    (fetchedValue ds dbs dbId key).isSome ↔ ∃ s ∈ dbs dbId, ((ds.get s key.data).1).isSome := by
  unfold fetchedValue
  cases dbs dbId with
  | none => simp
  | some s => simp

/-- Over a transport that does not fail, the two paths of a get agree exactly when the key
has a value or the capacity of the buffer is 0. -/
theorem sdskvGet_samePaths_iff (hclient : firstFailure net.client = none)
    (hserver : firstFailure net.server = none) {value : ValueObject}
    (hvalue : value.isNull = false) (vsize : ℕ) :
    SamePaths ds net dbs dbId key value vsize ↔
      (∃ s ∈ dbs dbId, ((ds.get s key.data).1).isSome) ∨ vsize = 0 := by
  have hinline := seen_getInline ds net dbs dbId key hclient value vsize
  have hbulk := seen_getBulk ds net dbs dbId key hclient hserver hvalue vsize
  have hpath := sdskvGet_inline_or_bulk ds net dbs dbId key hvalue vsize
  rw [← fetchedValue_isSome_iff]
  cases hfetched : fetchedValue ds dbs dbId key with
  | none =>
      rw [hfetched] at hinline hbulk
      simp only [Option.isSome_none, Bool.false_eq_true, false_or]
      constructor
      · intro h
        have hsame := hinline.symm.trans (h.inline.symm.trans (h.bulk.trans hbulk))
        exact congrArg (fun r => r.2.2) hsame
      · rintro rfl
        have hseen : seenByCaller (sdskvGet ds net dbs dbId key value 0) =
            (missingCode (dbs dbId), value, 0) := by
          rcases hpath with hpath | hpath
          · rw [hpath, hinline]
          · rw [hpath, hbulk]
        refine ⟨hseen.trans hinline.symm, hseen.trans hbulk.symm, ?_, fun _ => ?_⟩
        · rw [hfetched]
          simp
        · exact congrArg Prod.fst hseen
  | some w =>
      rw [hfetched] at hinline hbulk
      simp only [Option.isSome_some, true_or, iff_true]
      have hseen := seen_sdskvGet_found ds net dbs dbId key hclient hserver hvalue vsize hfetched
      refine ⟨hseen.trans hinline.symm, hseen.trans hbulk.symm, ?_, ?_⟩
      · rintro w' hw'
        cases hfetched.symm.trans hw'
        exact hseen
      · rw [hfetched]
        simp

end Paths

/-- A stored value of two bytes does not fit into a buffer of one byte. -/
theorem sdskvGet_samePaths_iff_short :
    SamePaths MapDataStore.reads reliable (bindsOne [8, 9]) 5 (KvData.single 1)
      (ValueObject.allocated [0]) 1 :=
  (sdskvGet_samePaths_iff MapDataStore.reads reliable (bindsOne [8, 9]) 5 (KvData.single 1)
    rfl rfl rfl 1).2 (Or.inl ⟨_, rfl, rfl⟩)

/-- A buffer that is too large for the inline path. -/
def largeBuffer : ValueObject := ValueObject.allocated (List.replicate 3989 0)

/-- The key 2 is not bound. The bulk path, which the capacity 3989 selects, sets `*vsize` to
0, and the inline path would keep it. -/
theorem sdskvGet_unknownKey_vsize :
    (sdskvGet MapDataStore.reads reliable (bindsOne [8, 9]) 5 (KvData.single 2) largeBuffer
        3989).2.2.1 = 0 ∧
      (getInline MapDataStore.reads reliable (bindsOne [8, 9]) 5 (KvData.single 2) largeBuffer
        3989).2.2.1 = 3989 ∧
      ¬ SamePaths MapDataStore.reads reliable (bindsOne [8, 9]) 5 (KvData.single 2) largeBuffer
        3989 := by
  have hbulk : (sdskvGet MapDataStore.reads reliable (bindsOne [8, 9]) 5 (KvData.single 2)
      largeBuffer 3989).2.2.1 = 0 := rfl
  have hinline : (getInline MapDataStore.reads reliable (bindsOne [8, 9]) 5 (KvData.single 2)
      largeBuffer 3989).2.2.1 = 3989 := rfl
  refine ⟨hbulk, hinline, fun h => ?_⟩
  have hsame := congrArg (fun r => r.2.2) h.inline
  simp only [seenByCaller] at hsame
  rw [hbulk, hinline] at hsame
  cases hsame

end Sdskv
