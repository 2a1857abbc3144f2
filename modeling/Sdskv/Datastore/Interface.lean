import Sdskv.Common.Types

/-!
# The datastore interface

`AbstractDataStore σ` collects the virtual methods that the request handlers
call, over the state `σ` of a backend; its part `DatastoreWrites σ` is what the
write requests need. `putMulti` and `putPacked` are the default
implementations of the two batched puts: a backend that does not override them
gets them from its own `put`.

`LawfulStore ds lt` is the specification of a backend: its state has contents,
an ordered map for the strict weak order `lt`, and the methods read and change
these contents only. The listing method is specified separately by `ListsPrefix`,
one prefix at a time, because a backend need not meet it for every prefix.
-/

namespace Sdskv

/-- One call of a listing method: it returns the pairs, throws an `int`, or does
not return. -/
inductive Listing
  | pairs (batch : List (Bulk × Bulk))
  | throws (err : Int)
  | diverges
  deriving DecidableEq

/-- The keys of the pairs that a call returns. -/
def Listing.keys : Listing → Option (List Bulk)
  | pairs batch => some (batch.map Prod.fst)
  | _ => none

/-- The methods of `AbstractDataStore` that write. -/
structure DatastoreWrites (σ : Type*) where
  put : σ → Bulk → Bulk → SdskvReturn × σ
  putMulti : σ → List (Pointer × ℕ) → List (Pointer × ℕ) → SdskvReturn × σ
  putPacked : σ → Pointer → List ℕ → Pointer → List ℕ → SdskvReturn × σ
  erase : σ → Bulk → Bool × σ

/-- The methods of `AbstractDataStore` that the handlers call. -/
structure AbstractDataStore (σ : Type*) extends DatastoreWrites σ where
  get : σ → Bulk → Option Bulk × σ
  listKeyvals : σ → Bulk → ℕ → Bulk → Listing

section BatchedPuts

variable {σ : Type*} (put : σ → Pointer → ℕ → Pointer → ℕ → SdskvReturn × σ)

/-- The loop of `AbstractDataStore::put_multi` over the arrays of pointers and
sizes; `ret` is the accumulated answer. -/
def putMultiLoop : SdskvReturn → σ → List (Pointer × ℕ) → List (Pointer × ℕ) →
    SdskvReturn × σ
  | ret, s, (key, ksize) :: keys, (value, vsize) :: values =>
      let (r, s') := put s key ksize value vsize
      putMultiLoop (if ret = .success then r else .success) s' keys values
  | ret, s, _, _ => (ret, s)

/-- `AbstractDataStore::put_multi`. -/
def putMulti (s : σ) (keys values : List (Pointer × ℕ)) : SdskvReturn × σ :=
  putMultiLoop put .success s keys values

/-- The loop of `AbstractDataStore::put_packed`; the two offsets run over the
packed keys and the packed values. -/
def putPackedLoop (keys values : Pointer) : SdskvReturn → σ → ℕ → ℕ → List ℕ → List ℕ →
    SdskvReturn × σ
  | ret, s, keysOffset, valsOffset, ksize :: ksizes, vsize :: vsizes =>
      let (r, s') := put s (keys.drop keysOffset) ksize (values.drop valsOffset) vsize
      putPackedLoop keys values (if ret = .success then r else .success) s'
        (keysOffset + ksize) (valsOffset + vsize) ksizes vsizes
  | ret, s, _, _, _, _ => (ret, s)

/-- `AbstractDataStore::put_packed`. -/
def putPacked (s : σ) (keys : Pointer) (ksizes : List ℕ) (values : Pointer)
    (vsizes : List ℕ) : SdskvReturn × σ :=
  putPackedLoop put keys values .success s 0 0 ksizes vsizes

/-- The pointers and sizes of the items that lie back to back from an offset on. -/
def offsetRegions (pointer : Pointer) : ℕ → List ℕ → List (Pointer × ℕ)
  | _, [] => []
  | offset, size :: sizes =>
      (pointer.drop offset, size) :: offsetRegions pointer (offset + size) sizes

/-- A packed batch makes the puts of the batch with pointers to its items. -/
theorem putPackedLoop_eq (keys values : Pointer) (ret : SdskvReturn) (s : σ)
    (keysOffset valsOffset : ℕ) (ksizes vsizes : List ℕ) :
    putPackedLoop put keys values ret s keysOffset valsOffset ksizes vsizes =
      putMultiLoop put ret s (offsetRegions keys keysOffset ksizes)
        (offsetRegions values valsOffset vsizes) := by
  induction ksizes generalizing vsizes ret s keysOffset valsOffset with
  | nil => rfl
  | cons ksize ksizes ih =>
      cases vsizes with
      | nil => rfl
      | cons vsize vsizes => exact ih _ _ _ _ vsizes

/-- `ok` holds before each put that a batch makes. -/
def AlongPuts (ok : σ → Bulk → Prop) : σ → List (Pointer × ℕ) → List (Pointer × ℕ) → Prop
  | s, (key, ksize) :: keys, (value, vsize) :: values =>
      ok s (bulkOfPointer key ksize) ∧
        AlongPuts ok (put s key ksize value vsize).2 keys values
  | _, _, _ => True

section Along

variable {put} {I : σ → Prop} {ok : σ → Bulk → Prop}
  (hput : ∀ s key ksize value vsize, ok s (bulkOfPointer key ksize) → I s →
    I (put s key ksize value vsize).2)
include hput

/-- What every single put that `ok` admits preserves, a batch of such puts preserves. -/
theorem putMultiLoop_along {s : σ} (h : I s) (ret : SdskvReturn)
    {keys values : List (Pointer × ℕ)} (hok : AlongPuts put ok s keys values) :
    I (putMultiLoop put ret s keys values).2 := by
  induction keys generalizing values ret s with
  | nil => simpa [putMultiLoop] using h
  | cons key keys ih =>
      cases values with
      | nil => simpa [putMultiLoop] using h
      | cons value values => exact ih (hput s _ _ _ _ hok.1 h) _ hok.2

end Along

section Invariant

variable {put} {I : σ → Prop}
  (hput : ∀ s key ksize value vsize, I s → I (put s key ksize value vsize).2)
include hput

theorem putMultiLoop_invariant {s : σ} (h : I s) (ret : SdskvReturn)
    (keys values : List (Pointer × ℕ)) :
    I (putMultiLoop put ret s keys values).2 := by
  induction keys generalizing values ret s with
  | nil => simpa [putMultiLoop] using h
  | cons key keys ih =>
      cases values with
      | nil => simpa [putMultiLoop] using h
      | cons value values => exact ih (hput s _ _ _ _ h) _ values

/-- What every single put preserves, a batch of puts preserves. -/
theorem putMulti_invariant {s : σ} (h : I s) (keys values : List (Pointer × ℕ)) :
    I (putMulti put s keys values).2 :=
  putMultiLoop_invariant hput h .success keys values

theorem putPacked_invariant {s : σ} (h : I s) (keys : Pointer) (ksizes : List ℕ)
    (values : Pointer) (vsizes : List ℕ) :
    I (putPacked put s keys ksizes values vsizes).2 := by
  rw [putPacked, putPackedLoop_eq]
  exact putMultiLoop_invariant hput h .success _ _

omit hput in
/-- A batch succeeds if every single put does. -/
theorem putMultiLoop_success
    (hput : ∀ s key ksize value vsize, I s → (put s key ksize value vsize).1 = .success ∧
      I (put s key ksize value vsize).2)
    {s : σ} (h : I s) (keys values : List (Pointer × ℕ)) :
    (putMultiLoop put .success s keys values).1 = .success := by
  induction keys generalizing values s with
  | nil => rfl
  | cons key keys ih =>
      cases values with
      | nil => rfl
      | cons value values =>
          obtain ⟨hret, hkeep⟩ := hput s key.1 key.2 value.1 value.2 h
          simp only [putMultiLoop, if_true, hret]
          exact ih hkeep values

end Invariant

/-- The state after putting the pairs one by one. -/
def putAll (put : σ → Bulk → Bulk → SdskvReturn × σ) (s : σ) (pairs : List (Bulk × Bulk)) :
    σ :=
  pairs.foldl (fun s p => (put s p.1 p.2).2) s

section Pairs

variable {put} {put' : σ → Bulk → Bulk → SdskvReturn × σ}
  (hput : ∀ s key ksize value vsize, put s key ksize value vsize =
    put' s (bulkOfPointer key ksize) (bulkOfPointer value vsize))
include hput

theorem putMultiLoop_snd (ret : SdskvReturn) (s : σ) (keys values : List (Pointer × ℕ)) :
    (putMultiLoop put ret s keys values).2 =
      putAll put' s ((keys.map fun p => bulkOfPointer p.1 p.2).zip
        (values.map fun p => bulkOfPointer p.1 p.2)) := by
  induction keys generalizing values ret s with
  | nil => rfl
  | cons key keys ih =>
      cases values with
      | nil => rfl
      | cons value values =>
          rw [putMultiLoop, ih, hput]
          rfl

/-- The offsets of a packed batch walk over the pairs in order. -/
theorem putPackedLoop_snd (keys values : Pointer) (ret : SdskvReturn) (s : σ)
    (keysOffset valsOffset : ℕ) (pairs : List (Bulk × Bulk)) (restKeys restValues : Bulk)
    (hkeys : keys.drop keysOffset = (pairs.map Prod.fst).flatten ++ restKeys)
    (hvalues : values.drop valsOffset = (pairs.map Prod.snd).flatten ++ restValues) :
    (putPackedLoop put keys values ret s keysOffset valsOffset
      (pairs.map fun p => p.1.length) (pairs.map fun p => p.2.length)).2 =
      putAll put' s pairs := by
  induction pairs generalizing ret s keysOffset valsOffset with
  | nil => rfl
  | cons p pairs ih =>
      rw [List.map_cons, List.flatten_cons, List.append_assoc] at hkeys hvalues
      have hkey : bulkOfPointer (keys.drop keysOffset) p.1.length = p.1 := by
        rw [bulkOfPointer, hkeys, List.take_left]
      have hvalue : bulkOfPointer (values.drop valsOffset) p.2.length = p.2 := by
        rw [bulkOfPointer, hvalues, List.take_left]
      rw [List.map_cons, List.map_cons, putPackedLoop, hput, hkey, hvalue]
      apply ih
      · rw [← List.drop_drop, hkeys, List.drop_left]
      · rw [← List.drop_drop, hvalues, List.drop_left]

end Pairs

end BatchedPuts

/-- The listing that `list_keyvals` specifies: the first `count` pairs, in the
order of the store, whose key is strictly after `startKey` and begins with
`keyPrefix`. An empty `startKey` stands for the beginning. -/
def page (lt : Bulk → Bulk → Prop) [DecidableRel lt] (m : List (Bulk × Bulk))
    (startKey : Bulk) (count : ℕ) (keyPrefix : Bulk) : List (Bulk × Bulk) :=
  (m.filter fun p =>
    decide ((startKey = [] ∨ lt startKey p.1) ∧ keyPrefix <+: p.1)).take count

theorem page_sublist (lt : Bulk → Bulk → Prop) [DecidableRel lt] (m : List (Bulk × Bulk))
    (startKey : Bulk) (count : ℕ) (keyPrefix : Bulk) :
    (page lt m startKey count keyPrefix).Sublist m :=
  (List.take_sublist _ _).trans List.filter_sublist

theorem page_nil (lt : Bulk → Bulk → Prop) [DecidableRel lt] (m : List (Bulk × Bulk))
    (count : ℕ) : page lt m [] count [] = m.take count := by
  simp [page]

theorem page_eq_filter_filter (lt : Bulk → Bulk → Prop) [DecidableRel lt]
    (m : List (Bulk × Bulk)) (startKey : Bulk) (count : ℕ) (keyPrefix : Bulk) :
    page lt m startKey count keyPrefix =
      ((m.filter fun p => decide (startKey = [] ∨ lt startKey p.1)).filter fun p =>
        decide (keyPrefix <+: p.1)).take count := by
  rw [page, List.filter_filter]
  congr 1
  apply List.filter_congr
  intro p _
  rw [← Bool.decide_and]
  exact decide_eq_decide.2 and_comm

/-- The specification of a backend over its contents. -/
structure LawfulStore {σ : Type*} (ds : AbstractDataStore σ) (lt : Bulk → Bulk → Prop)
    [DecidableRel lt] where
  contents : σ → List (Bulk × Bulk)
  sorted : ∀ s, OrderedMap.Sorted lt (contents s)
  get_value : ∀ s k, (ds.get s k).1 = OrderedMap.lookup lt (contents s) k
  get_contents : ∀ s k, contents (ds.get s k).2 = contents s
  put_success : ∀ s k v, (ds.put s k v).1 = .success →
    contents (ds.put s k v).2 = OrderedMap.assign lt (contents s) k v
  put_failure : ∀ s k v, (ds.put s k v).1 ≠ .success →
    contents (ds.put s k v).2 = contents s
  erase_contents : ∀ s k,
    contents (ds.erase s k).2 = OrderedMap.erase lt (contents s) k

namespace LawfulStore

variable {σ : Type*} {ds : AbstractDataStore σ} {lt : Bulk → Bulk → Prop} [DecidableRel lt]

/-- The value that the store binds a key to. -/
def value (L : LawfulStore ds lt) (s : σ) (k : Bulk) : Option Bulk :=
  OrderedMap.lookup lt (L.contents s) k

/-- `list_keyvals` with the prefix `keyPrefix` meets its specification. -/
def ListsPrefix (L : LawfulStore ds lt) (keyPrefix : Bulk) : Prop :=
  ∀ s startKey count, ds.listKeyvals s startKey count keyPrefix =
    .pairs (page lt (L.contents s) startKey count keyPrefix)

/-- Every listing returns entries of the store in order. -/
def ListsEntries (L : LawfulStore ds lt) : Prop :=
  ∀ s startKey count keyPrefix batch, ds.listKeyvals s startKey count keyPrefix =
    .pairs batch → batch.Sublist (L.contents s)

/-- A store whose listings meet their specification lists its own entries. -/
theorem listsEntries_of_listsPrefix {L : LawfulStore ds lt}
    (h : ∀ keyPrefix, L.ListsPrefix keyPrefix) : L.ListsEntries := by
  intro s startKey count keyPrefix batch hbatch
  rw [h keyPrefix] at hbatch
  cases hbatch
  exact page_sublist lt (L.contents s) startKey count keyPrefix

theorem value_put_failure (L : LawfulStore ds lt) {s : σ} {k v : Bulk}
    (h : (ds.put s k v).1 ≠ .success) (k' : Bulk) :
    L.value (ds.put s k v).2 k' = L.value s k' := by
  rw [value, L.put_failure s k v h, value]

variable [IsStrictWeakOrder Bulk lt]

theorem value_congr (L : LawfulStore ds lt) (s : σ) {k k' : Bulk} (h : IncompRel lt k k') :
    L.value s k = L.value s k' :=
  OrderedMap.lookup_congr lt h _

theorem value_put_success (L : LawfulStore ds lt) {s : σ} {k v : Bulk}
    (h : (ds.put s k v).1 = .success) (k' : Bulk) :
    L.value (ds.put s k v).2 k' =
      if IncompRel lt k k' then some v else L.value s k' := by
  rw [value, L.put_success s k v h, OrderedMap.lookup_assign, value]

theorem value_erase (L : LawfulStore ds lt) (s : σ) (k k' : Bulk) :
    L.value (ds.erase s k).2 k' = if IncompRel lt k k' then none else L.value s k' := by
  rw [value, L.erase_contents, OrderedMap.lookup_erase, value]

theorem value_of_mem (L : LawfulStore ds lt) {s : σ} {k v : Bulk}
    (h : (k, v) ∈ L.contents s) : L.value s k = some v :=
  OrderedMap.lookup_of_mem lt (L.sorted s) h

end LawfulStore

end Sdskv
