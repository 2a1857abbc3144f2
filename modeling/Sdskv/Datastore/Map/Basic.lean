import Sdskv.Datastore.Interface

/-!
# The map backend

`MapDataStore` keeps its entries in a `std::map` ordered by `keycmp`: the user
comparison function if there is one, and the order of `std::vector<char>`
otherwise. Every method takes the lock of the map for its whole body, so each is
one atomic function of the state here.

`WellFormed` is the representation invariant: the entries are strictly
increasing, so no two keys are equivalent. It is what `std::map` guarantees for a
strict weak order, and every method keeps it.
-/

namespace Sdskv

/-- The order of the entries for the comparison function `_less`. -/
def keycmp : Option ComparatorFn → Bulk → Bulk → Prop
  | some less => comparatorLess less
  | none => vectorLess

instance keycmp.decidableRel : (less : Option ComparatorFn) → DecidableRel (keycmp less)
  | some less => inferInstanceAs (DecidableRel (comparatorLess less))
  | none => inferInstanceAs (DecidableRel vectorLess)

instance : IsStrictTotalOrder Bulk (keycmp none) :=
  inferInstanceAs (IsStrictTotalOrder Bulk vectorLess)

instance : IsStrictWeakOrder Bulk (keycmp none) :=
  inferInstanceAs (IsStrictWeakOrder Bulk vectorLess)

/-- The fields of `MapDataStore` and of its base class that its methods use. -/
structure MapDataStore where
  name : String
  path : String
  compFunName : String
  less : Option ComparatorFn
  noOverwrite : Bool
  map : List (Bulk × Bulk)

namespace MapDataStore

/-- The constructor `MapDataStore()`. -/
def new : MapDataStore :=
  { name := "", path := "", compFunName := "", less := none, noOverwrite := false,
    map := [] }

/-- `openDatabase`. -/
def openDatabase (s : MapDataStore) (dbName path : String) : Bool × MapDataStore :=
  (true, { s with name := dbName, path := path, map := [] })

/-- `set_comparison_function`. -/
def setComparisonFunction (s : MapDataStore) (name : String) (less : ComparatorFn) :
    MapDataStore :=
  { s with compFunName := name, less := some less }

/-- `set_no_overwrite`. -/
def setNoOverwrite (s : MapDataStore) : MapDataStore :=
  { s with noOverwrite := true }

/-- `put(const ds_bulk_t&, const ds_bulk_t&)`. -/
def put (s : MapDataStore) (key data : Bulk) : SdskvReturn × MapDataStore :=
  let x := OrderedMap.count (keycmp s.less) s.map key
  if s.noOverwrite ∧ x ≠ 0 then (.errKeyexists, s)
  else (.success, { s with map := OrderedMap.assign (keycmp s.less) s.map key data })

/-- `put(ds_bulk_t&&, ds_bulk_t&&)`: the same body on moved arguments. -/
def putMove (s : MapDataStore) (key data : Bulk) : SdskvReturn × MapDataStore :=
  s.put key data

/-- `put(const void*, hg_size_t, const void*, hg_size_t)`. -/
def putRaw (s : MapDataStore) (key : Pointer) (ksize : ℕ) (value : Pointer) (vsize : ℕ) :
    SdskvReturn × MapDataStore :=
  if vsize ≠ 0 then s.putMove (bulkOfPointer key ksize) (bulkOfPointer value vsize)
  else s.putMove (bulkOfPointer key ksize) []

/-- `get(const ds_bulk_t&, ds_bulk_t&)`. -/
def get (s : MapDataStore) (key : Bulk) : Option Bulk :=
  OrderedMap.lookup (keycmp s.less) s.map key

/-- `get(const ds_bulk_t&, std::vector<ds_bulk_t>&)`: the vector has one element,
which stays empty when the key is absent. -/
def getValues (s : MapDataStore) (key : Bulk) : Bool × List Bulk :=
  match s.get key with
  | some data => (true, [data])
  | none => (false, [[]])

/-- `length(const ds_bulk_t&, size_t*)`. -/
def length (s : MapDataStore) (key : Bulk) : Option ℕ :=
  (OrderedMap.lookup (keycmp s.less) s.map key).map List.length

/-- `length(const void*, hg_size_t, size_t*)`, inherited from the base class. -/
def lengthRaw (s : MapDataStore) (key : Pointer) (ksize : ℕ) : Option ℕ :=
  s.length (bulkOfPointer key ksize)

/-- `exists(const ds_bulk_t&)`. -/
def «exists» (s : MapDataStore) (key : Bulk) : Bool :=
  decide (OrderedMap.count (keycmp s.less) s.map key > 0)

/-- `exists(const void*, hg_size_t)`. -/
def existsRaw (s : MapDataStore) (key : Pointer) (ksize : ℕ) : Bool :=
  s.exists (bulkOfPointer key ksize)

/-- `erase`. -/
def erase (s : MapDataStore) (key : Bulk) : Bool × MapDataStore :=
  let b := (OrderedMap.findEntry (keycmp s.less) s.map key).isSome
  (b, { s with map := OrderedMap.erase (keycmp s.less) s.map key })

/-- The write methods; the batched puts are those of the base class. -/
def writes : DatastoreWrites MapDataStore where
  put := put
  putMulti := putMulti putRaw
  putPacked := putPacked putRaw
  erase := erase

/-- The entries are strictly increasing in the order of the store. -/
def WellFormed (s : MapDataStore) : Prop :=
  OrderedMap.Sorted (keycmp s.less) s.map

theorem count_ne_zero_iff (s : MapDataStore) (key : Bulk) :
    OrderedMap.count (keycmp s.less) s.map key ≠ 0 ↔ (s.get key).isSome := by
  rw [ne_eq, OrderedMap.count_eq_zero_iff, ← ne_eq, Option.ne_none_iff_isSome]
  rfl

/-- A put is refused exactly when overwriting is off and an equivalent key is
present; otherwise it binds the value. -/
theorem put_eq (s : MapDataStore) (key data : Bulk) :
    s.put key data =
      if s.noOverwrite ∧ (s.get key).isSome then (.errKeyexists, s)
      else (.success,
        { s with map := OrderedMap.assign (keycmp s.less) s.map key data }) := by
  simp only [put, count_ne_zero_iff]

theorem get_isSome_iff (s : MapDataStore) (key : Bulk) :
    (s.get key).isSome ↔ ∃ p ∈ s.map, IncompRel (keycmp s.less) p.1 key := by
  rw [← Option.ne_none_iff_isSome, ne_eq, get, OrderedMap.lookup_eq_none_iff]
  simp

theorem put_errKeyexists_iff (s : MapDataStore) (key data : Bulk) :
    (s.put key data).1 = .errKeyexists ↔
      s.noOverwrite ∧ ∃ p ∈ s.map, IncompRel (keycmp s.less) p.1 key := by
  rw [put_eq, ← get_isSome_iff]
  split_ifs with h
  · simp [h]
  · simp [h]

theorem put_of_errKeyexists {s : MapDataStore} {key data : Bulk}
    (h : (s.put key data).1 = .errKeyexists) : (s.put key data).2 = s := by
  rw [put_eq] at h ⊢
  split_ifs at h ⊢ with hno
  rfl

theorem put_of_ne_errKeyexists {s : MapDataStore} {key data : Bulk}
    (h : (s.put key data).1 ≠ .errKeyexists) :
    s.put key data =
      (.success, { s with map := OrderedMap.assign (keycmp s.less) s.map key data }) := by
  rw [put_eq] at h ⊢
  split_ifs at h ⊢ with hno
  · exact absurd rfl h
  · rfl

@[simp] theorem put_less (s : MapDataStore) (key data : Bulk) :
    (s.put key data).2.less = s.less := by
  rw [put_eq]
  split_ifs <;> rfl

@[simp] theorem put_noOverwrite (s : MapDataStore) (key data : Bulk) :
    (s.put key data).2.noOverwrite = s.noOverwrite := by
  rw [put_eq]
  split_ifs <;> rfl

@[simp] theorem erase_less (s : MapDataStore) (key : Bulk) :
    (s.erase key).2.less = s.less := rfl

@[simp] theorem erase_noOverwrite (s : MapDataStore) (key : Bulk) :
    (s.erase key).2.noOverwrite = s.noOverwrite := rfl

/-- Reading the two sizes of the raw overload gives back the plain `put`. -/
theorem putRaw_eq (s : MapDataStore) (key : Pointer) (ksize : ℕ) (value : Pointer)
    (vsize : ℕ) :
    s.putRaw key ksize value vsize =
      s.put (bulkOfPointer key ksize) (bulkOfPointer value vsize) := by
  by_cases h : vsize = 0
  · simp [putRaw, putMove, bulkOfPointer, h]
  · simp [putRaw, putMove, h]

theorem length_eq (s : MapDataStore) (key : Bulk) :
    s.length key = (s.get key).map List.length := rfl

theorem exists_eq (s : MapDataStore) (key : Bulk) :
    s.exists key = (s.get key).isSome := by
  rw [Bool.eq_iff_iff, ← count_ne_zero_iff]
  simp [«exists», Nat.pos_iff_ne_zero]

theorem exists_iff (s : MapDataStore) (key : Bulk) :
    s.exists key = true ↔ ∃ p ∈ s.map, IncompRel (keycmp s.less) p.1 key := by
  rw [exists_eq, get_isSome_iff]

theorem erase_fst (s : MapDataStore) (key : Bulk) :
    (s.erase key).1 = (s.get key).isSome := by
  simp [erase, get, OrderedMap.lookup]

section StrictWeakOrder

variable {s : MapDataStore} [IsStrictWeakOrder Bulk (keycmp s.less)]

theorem wellFormed_put (h : s.WellFormed) (key data : Bulk) :
    (s.put key data).2.WellFormed := by
  rw [WellFormed, put_less, put_eq]
  split_ifs
  · exact h
  · exact OrderedMap.sorted_assign _ h key data

omit [IsStrictWeakOrder Bulk (keycmp s.less)] in
theorem wellFormed_erase (h : s.WellFormed) (key : Bulk) :
    (s.erase key).2.WellFormed :=
  OrderedMap.sorted_erase _ h key

theorem get_congr {key key' : Bulk} (h : IncompRel (keycmp s.less) key key') :
    s.get key = s.get key' :=
  OrderedMap.lookup_congr _ h _

theorem get_put (key data key' : Bulk) :
    (s.put key data).2.get key' =
      if IncompRel (keycmp s.less) key key' ∧ ¬ (s.noOverwrite ∧ (s.get key).isSome)
      then some data else s.get key' := by
  rw [put_eq]
  by_cases hno : s.noOverwrite ∧ (s.get key).isSome
  · simp [hno]
  · rw [if_neg hno]
    simp only [hno, not_false_eq_true, and_true]
    exact OrderedMap.lookup_assign _ _ _ _ _

theorem get_erase (key key' : Bulk) :
    (s.erase key).2.get key' =
      if IncompRel (keycmp s.less) key key' then none else s.get key' :=
  OrderedMap.lookup_erase (keycmp s.less) _ _ _

end StrictWeakOrder

end MapDataStore

end Sdskv
