import Sdskv.Datastore.Interface

/-!
# The BerkeleyDB backend

BerkeleyDB itself is a parameter. `BerkeleyDb δ` has the calls of `Db` that the
write methods make: a single `put`, with or without `DB_NOOVERWRITE`, a bulk
`put` with `DB_MULTIPLE`, and `del`. `BerkeleyDb.Spec` is what is assumed of a
database without duplicates: a `put` replaces an existing binding unless
`DB_NOOVERWRITE` is given. A bulk put that fails may have stored some of its
pairs.

The methods wrap the key and the value of a single call in a `Dbt`, whose size has 32
bits. This wrapping is part of the parameter: `BerkeleyDb.onDbts` are the calls of a
database through `Dbt`s, and what holds for every `BerkeleyDb` holds for these.

`put_multi` copies keys and values into two buffers with a
`DbMultipleDataBuilder` each and hands them to one bulk put. A builder accepts an
item when the buffer has room for it, and drops it otherwise.
-/

namespace Sdskv

/-- The status codes of `Db` that the backend tells apart. -/
inductive BdbStatus
  | zero
  | keyexist
  | notfound
  | error
  deriving DecidableEq, Repr

/-- The calls of `Db`; the flag of `put` is `DB_NOOVERWRITE`, the flag of
`putMultiple` is `DB_OVERWRITE_DUP`. -/
structure BerkeleyDb (δ : Type*) where
  put : δ → Bulk → Bulk → Bool → BdbStatus × δ
  putMultiple : δ → List Bulk → List Bulk → Bool → BdbStatus × δ
  del : δ → Bulk → BdbStatus × δ

/-- What `Dbt(void*, u_int32_t)` holds of the bytes it is given. -/
def dbt (data : Bulk) : Bulk := data.take (data.length % 2 ^ 32)

theorem dbt_of_lt {data : Bulk} (h : data.length < 2 ^ 32) : dbt data = data := by
  rw [dbt, Nat.mod_eq_of_lt h, List.take_length]

theorem length_dbt (data : Bulk) : (dbt data).length = data.length % 2 ^ 32 := by
  rw [dbt, List.length_take, Nat.min_eq_left (Nat.mod_le _ _)]

/-- The calls on the `Dbt`s that the methods of the backend make of their arguments; the
buffers of a bulk put have sizes of their own. -/
def BerkeleyDb.onDbts {δ : Type*} (db : BerkeleyDb δ) : BerkeleyDb δ where
  put d key data flag := db.put d (dbt key) (dbt data) flag
  putMultiple := db.putMultiple
  del d key := db.del d (dbt key)

/-- Bind the pairs one after the other. -/
def bindAll (lt : Bulk → Bulk → Prop) [DecidableRel lt] (f : Bulk → Option Bulk)
    (pairs : List (Bulk × Bulk)) : Bulk → Option Bulk :=
  pairs.foldl (fun f p k => if IncompRel lt p.1 k then some p.2 else f k) f

/-- The documented behaviour of the calls, over the bindings `view` of a
database. -/
structure BerkeleyDb.Spec {δ : Type*} (db : BerkeleyDb δ) (lt : Bulk → Bulk → Prop)
    [DecidableRel lt] where
  view : δ → Bulk → Option Bulk
  view_congr : ∀ d k k', IncompRel lt k k' → view d k = view d k'
  put_zero : ∀ d k v flag, (db.put d k v flag).1 = .zero →
    view (db.put d k v flag).2 = bindAll lt (view d) [(k, v)]
  put_not_zero : ∀ d k v flag, (db.put d k v flag).1 ≠ .zero →
    view (db.put d k v flag).2 = view d
  put_noOverwrite : ∀ d k v, view d k ≠ none → (db.put d k v true).1 = .keyexist
  putMultiple_zero : ∀ d keys data flag, (db.putMultiple d keys data flag).1 = .zero →
    view (db.putMultiple d keys data flag).2 = bindAll lt (view d) (keys.zip data)
  putMultiple_not_zero : ∀ d keys data flag, (db.putMultiple d keys data flag).1 ≠ .zero →
    ∃ n, view (db.putMultiple d keys data flag).2 =
      bindAll lt (view d) ((keys.zip data).take n)
  del_zero : ∀ d k, (db.del d k).1 = .zero → ∀ k', view (db.del d k).2 k' =
    if IncompRel lt k k' then none else view d k'
  del_not_zero : ∀ d k, (db.del d k).1 ≠ .zero → view (db.del d k).2 = view d

theorem bindAll_cons (lt : Bulk → Bulk → Prop) [DecidableRel lt] (f : Bulk → Option Bulk)
    (p : Bulk × Bulk) (pairs : List (Bulk × Bulk)) :
    bindAll lt f (p :: pairs) =
      bindAll lt (fun k => if IncompRel lt p.1 k then some p.2 else f k) pairs := rfl

/-- A key that no pair names keeps its value. -/
theorem bindAll_of_forall_not (lt : Bulk → Bulk → Prop) [DecidableRel lt]
    (f : Bulk → Option Bulk) (pairs : List (Bulk × Bulk)) (k : Bulk)
    (h : ∀ p ∈ pairs, ¬ IncompRel lt p.1 k) : bindAll lt f pairs k = f k := by
  induction pairs generalizing f with
  | nil => rfl
  | cons p pairs ih =>
      rw [bindAll_cons, ih _ fun q hq => h q (List.mem_cons_of_mem p hq)]
      exact if_neg (h p List.mem_cons_self)

/-- `DbMultipleDataBuilder` over a buffer of `ulen` bytes. -/
structure DbMultipleDataBuilder where
  ulen : ℕ
  items : List Bulk

namespace DbMultipleDataBuilder

/-- `append`: every item takes its bytes and 8 bytes of bookkeeping, and the
buffer ends in a 4 byte mark. -/
def append (b : DbMultipleDataBuilder) (data : Bulk) : Bool × DbMultipleDataBuilder :=
  let used := (b.items.map List.length).sum + 8 * b.items.length + 4
  if used + data.length + 8 ≤ b.ulen then (true, { b with items := b.items ++ [data] })
  else (false, b)

/-- The builder after appending all items in order. -/
def appendAll (ulen : ℕ) (data : List Bulk) : DbMultipleDataBuilder :=
  data.foldl (fun b d => (b.append d).2) { ulen := ulen, items := [] }

theorem mem_append_items {b : DbMultipleDataBuilder} {data d : Bulk}
    (h : d ∈ (b.append data).2.items) : d ∈ b.items ∨ d = data := by
  dsimp only [append] at h
  split_ifs at h with hroom
  · simpa using h
  · exact Or.inl h

theorem mem_appendAll {ulen : ℕ} {data : List Bulk} {d : Bulk}
    (h : d ∈ (appendAll ulen data).items) : d ∈ data := by
  have hloop : ∀ (data : List Bulk) (b : DbMultipleDataBuilder),
      d ∈ (data.foldl (fun b d => (b.append d).2) b).items → d ∈ b.items ∨ d ∈ data := by
    intro data
    induction data with
    | nil =>
        intro b hb
        exact Or.inl hb
    | cons e data ih =>
        intro b hb
        rcases ih _ hb with hb | hb
        · rcases mem_append_items hb with hb | rfl
          · exact Or.inl hb
          · exact Or.inr List.mem_cons_self
        · exact Or.inr (List.mem_cons_of_mem e hb)
  rcases hloop data _ h with h | h
  · cases h
  · exact h

end DbMultipleDataBuilder

/-- The fields of `BerkeleyDBDataStore` that its write methods use. -/
structure BerkeleyDBDataStore (δ : Type*) where
  noOverwrite : Bool
  dbm : δ

namespace BerkeleyDBDataStore

variable {δ : Type*} (db : BerkeleyDb δ)

/-- `put(const void*, hg_size_t, const void*, hg_size_t)`; the two `Dbt`s belong to the
calls `db`. -/
def put (s : BerkeleyDBDataStore δ) (key : Pointer) (ksize : ℕ) (val : Pointer)
    (vsize : ℕ) : SdskvReturn × BerkeleyDBDataStore δ :=
  let (status, d) :=
    db.put s.dbm (bulkOfPointer key ksize) (bulkOfPointer val vsize) s.noOverwrite
  (if status = .zero then .success
    else if status = .keyexist then .errKeyexists
    else .errPut,
    { s with dbm := d })

/-- Double a size and round it up to a multiple of 4, in an `hg_size_t`. -/
def alignBuffer (size : ℕ) : ℕ :=
  let doubled := size * 2 % 2 ^ 64
  if doubled % 4 ≠ 0 then (doubled + (4 - doubled % 4)) % 2 ^ 64 else doubled

/-- The size of the key buffer of `put_multi`. -/
def keyBufferSize (ksizes : List ℕ) : ℕ := alignBuffer ksizes.sum

/-- The size of the value buffer of `put_multi`. -/
def valueBufferSize (vsizes : List ℕ) : ℕ := alignBuffer (vsizes.map (· + 8)).sum

/-- `Dbt::set_ulen`: the length of the user memory has 32 bits. -/
def dbtUlen (size : ℕ) : ℕ := size % 2 ^ 32

/-- `put_multi`. -/
def putMulti (s : BerkeleyDBDataStore δ) (keys values : List (Pointer × ℕ)) :
    SdskvReturn × BerkeleyDBDataStore δ :=
  let keybuilder := DbMultipleDataBuilder.appendAll
    (dbtUlen (keyBufferSize (keys.map Prod.snd))) (keys.map fun p => bulkOfPointer p.1 p.2)
  let databuilder := DbMultipleDataBuilder.appendAll
    (dbtUlen (valueBufferSize (values.map Prod.snd)))
    (values.map fun p => bulkOfPointer p.1 p.2)
  let (status, d) := db.putMultiple s.dbm keybuilder.items databuilder.items (!s.noOverwrite)
  (if status = .keyexist then .errKeyexists
    else if status ≠ .zero then .errPut
    else .success,
    { s with dbm := d })

/-- `erase`. -/
def erase (s : BerkeleyDBDataStore δ) (key : Bulk) : Bool × BerkeleyDBDataStore δ :=
  let (status, d) := db.del s.dbm key
  (decide (status = .zero), { s with dbm := d })

/-- The write methods; `put_multi` is overridden, `put_packed` is that of the base
class. -/
def writes : DatastoreWrites (BerkeleyDBDataStore δ) where
  put s key data := put db s key key.length data data.length
  putMulti := putMulti db
  putPacked := putPacked (put db)
  erase := erase db

end BerkeleyDBDataStore

/-- A database that never fails, over the entries of an ordered map. -/
def orderedBerkeleyDb (lt : Bulk → Bulk → Prop) [DecidableRel lt] :
    BerkeleyDb (List (Bulk × Bulk)) where
  put m k v flag :=
    if flag ∧ OrderedMap.lookup lt m k ≠ none then (.keyexist, m)
    else (.zero, OrderedMap.assign lt m k v)
  putMultiple m keys data _ :=
    (.zero, OrderedMap.assignAll lt m (keys.zip data))
  del m k :=
    if OrderedMap.lookup lt m k = none then (.notfound, m)
    else (.zero, OrderedMap.erase lt m k)

theorem lookup_assignAll (lt : Bulk → Bulk → Prop) [DecidableRel lt]
    [IsStrictWeakOrder Bulk lt] (pairs m : List (Bulk × Bulk)) :
    OrderedMap.lookup lt (OrderedMap.assignAll lt m pairs) =
      bindAll lt (OrderedMap.lookup lt m) pairs := by
  induction pairs generalizing m with
  | nil => rfl
  | cons p pairs ih =>
      rw [OrderedMap.assignAll, List.foldl_cons, ← OrderedMap.assignAll, ih, bindAll_cons]
      congr 1
      funext k
      exact OrderedMap.lookup_assign lt m p.1 p.2 k

/-- The ordered map meets the specification. -/
def orderedBerkeleyDb_spec (lt : Bulk → Bulk → Prop) [DecidableRel lt]
    [IsStrictWeakOrder Bulk lt] : (orderedBerkeleyDb lt).Spec lt where
  view := OrderedMap.lookup lt
  view_congr d _ _ h := OrderedMap.lookup_congr lt h d
  put_zero d k v flag h := by
    simp only [orderedBerkeleyDb] at h ⊢
    split_ifs at h ⊢ with hflag
    exact lookup_assignAll lt [(k, v)] d
  put_not_zero d k v flag h := by
    simp only [orderedBerkeleyDb] at h ⊢
    split_ifs at h ⊢ with hflag
    · rfl
    · exact absurd rfl h
  put_noOverwrite d k v h := by
    simp [orderedBerkeleyDb, h]
  putMultiple_zero d keys data _ _ := lookup_assignAll lt (keys.zip data) d
  putMultiple_not_zero _ _ _ _ h := absurd rfl h
  del_zero d k h k' := by
    by_cases hnone : OrderedMap.lookup lt d k = none
    · simp [orderedBerkeleyDb, hnone] at h
    · simp only [orderedBerkeleyDb, hnone, if_false]
      exact OrderedMap.lookup_erase lt d k k'
  del_not_zero d k h := by
    simp only [orderedBerkeleyDb] at h ⊢
    split_ifs at h ⊢ with hnone
    · rfl
    · exact absurd rfl h

end Sdskv
