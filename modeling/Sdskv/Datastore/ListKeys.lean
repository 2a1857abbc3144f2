import Mathlib.Data.Finset.Dedup
import Sdskv.Datastore.Map.Listing
import Sdskv.Datastore.LevelDB.Basic
import Sdskv.Datastore.BerkeleyDB.Basic

/-!
# Listing keys in three backends

`vlist_keys` of the LevelDB and of the BerkeleyDB backend next to the one of the map
backend. The iterators of the two libraries are parameters: an iterator is the list of
the entries it has before it, the current one first, and `Iterators.Spec` says that it
goes over the bindings of the database in the order of the comparator.

The three backends come with a default order each. `leveldb::Slice::compare` and
`compkeys` without a function compare bytes as `unsigned char`; the map backend compares
them as `char`. The two orders differ on two keys exactly when the first bytes in which the
keys differ have different signs, so `SignsAgree` decides which keys are listed in the same
order. Whether `compkeys` has a function it reads in a word behind the `Db`, so that the
order of a BerkeleyDB database, `callbackLess`, depends on that word.
-/

namespace Sdskv

/-- `leveldb::Slice::compare`. -/
def sliceCompare (a b : Bulk) : Int :=
  let minLen := min a.length b.length
  let r := memcmp a b minLen
  if r = 0 then
    if a.length < b.length then -1 else if a.length > b.length then 1 else 0
  else r

/-- `LevelDBDataStoreComparator::Compare`. -/
def LevelDBDataStoreComparator.compare (less : Option ComparatorFn) : ComparatorFn :=
  match less with
  | some less => less
  | none => sliceCompare

/-- The two ways in which `compkeys` compares: with a function, or by the bytes and then by
the sizes. -/
def compareDbts (less : Option ComparatorFn) : ComparatorFn :=
  match less with
  | some less => less
  | none => fun dbt1 dbt2 =>
      let s := if dbt1.length > dbt2.length then dbt2.length else dbt1.length
      let c := memcmp dbt1 dbt2 s
      if c ≠ 0 then c
      else if dbt1.length < dbt2.length then -1
      else if dbt1.length > dbt2.length then 1
      else 0

/-- `offsetof(DbWrapper, _db)`. -/
def offsetDb : ℕ := 0

/-- `offsetof(DbWrapper, _less)`. -/
def offsetLess : ℕ := 8

/-- A comparison that the callback makes: the function that it calls, by its address, or none
when it compares the bytes. The answer is `none` when there is no function at that address. -/
structure Compared where
  called : Option ℕ
  answer : Option Int
  deriving DecidableEq

/-- `BerkeleyDBDataStore::compkeys` on two keys of the `Db` at the address `db`; `code` has the
functions of the process, and a null pointer is zero. -/
def compkeysOfDb (code : ℕ → Option ComparatorFn) (memory : ℕ → ℕ) (db : ℕ) (a b : Bulk) :
    Compared :=
  let wrapper := db - offsetDb
  let less := memory (wrapper + offsetLess)
  if less ≠ 0 then
    { called := some less, answer := (code less).map fun f => compareDbts (some f) a b }
  else { called := none, answer := some (compareDbts none a b) }

/-- The iterators of a database library, placed at the first entry or at the first one
that is not before a key. -/
structure Iterators (δ : Type*) where
  seekToFirst : δ → List (Bulk × Bulk)
  seek : δ → Bulk → List (Bulk × Bulk)

/-- The documented behaviour of the iterators: they go over the bindings `view` of the
database in the order `lt`. -/
structure Iterators.Spec {δ : Type*} (iterators : Iterators δ) (lt : Bulk → Bulk → Prop)
    [DecidableRel lt] (view : δ → Bulk → Option Bulk) : Prop where
  sorted : ∀ d, OrderedMap.Sorted lt (iterators.seekToFirst d)
  lookup : ∀ d k, OrderedMap.lookup lt (iterators.seekToFirst d) k = view d k
  seek_eq : ∀ d k, iterators.seek d k =
    (iterators.seekToFirst d).filter fun p => decide (¬ lt p.1 k)

/-- LevelDB with its iterators. -/
structure LevelDBIterators (δ : Type*) extends LevelDB δ, Iterators δ

/-- The documented behaviour of LevelDB with its iterators. -/
structure LevelDBIterators.Spec {δ : Type*} (db : LevelDBIterators δ)
    (lt : Bulk → Bulk → Prop) [DecidableRel lt] extends db.toLevelDB.Spec lt where
  iterates : db.toIterators.Spec lt view

/-- BerkeleyDB with its cursors: `DB_FIRST` places a cursor at the first entry, and
`DB_SET_RANGE` at the first one that is not before the key. -/
structure BerkeleyDbCursors (δ : Type*) extends BerkeleyDb δ, Iterators δ

/-- The cursors are placed through a `Dbt` too. -/
def BerkeleyDbCursors.onDbts {δ : Type*} (db : BerkeleyDbCursors δ) : BerkeleyDbCursors δ :=
  { db.toBerkeleyDb.onDbts with
    seekToFirst := db.seekToFirst
    seek := fun d start => db.seek d (dbt start) }

/-- The documented behaviour of BerkeleyDB with its cursors. -/
structure BerkeleyDbCursors.Spec {δ : Type*} (db : BerkeleyDbCursors δ)
    (lt : Bulk → Bulk → Prop) [DecidableRel lt] extends db.toBerkeleyDb.Spec lt where
  iterates : db.toIterators.Spec lt view

namespace LevelDBDataStore

variable {δ : Type*}

/-- What the iterator has before it when the loop begins. -/
def scanFrom (db : LevelDBIterators δ) (s : LevelDBDataStore δ) (start : Bulk) :
    List (Bulk × Bulk) :=
  if start.length > 0 then
    match db.seek s.dbm start with
    | [] => []
    | p :: it =>
        -- LevelDB treats `start` inclusively, so an exact match is skipped
        if start.length = p.1.length ∧ memcmp p.1 start start.length = 0 then it
        else p :: it
  else db.seekToFirst s.dbm

/-- The loop of a listing over what the iterator has before it; `push` is what is added to
the result. -/
def scanLoop {α : Type*} (push : Bulk × Bulk → α) (count : ℕ) (keyPrefix : Bulk) :
    List α → List (Bulk × Bulk) → List α
  | result, [] => result
  | result, p :: it =>
      if result.length < count then
        let c := memcmp keyPrefix p.1 keyPrefix.length
        if c = 0 then scanLoop push count keyPrefix (result ++ [push p]) it
        else if c < 0 then result
        else scanLoop push count keyPrefix result it
      else result

/-- `vlist_keys`. -/
def vlistKeys (db : LevelDBIterators δ) (s : LevelDBDataStore δ) (start : Bulk)
    (count : ℕ) (keyPrefix : Bulk) : List Bulk :=
  scanLoop Prod.fst count keyPrefix [] (s.scanFrom db start)

end LevelDBDataStore

namespace BerkeleyDBDataStore

variable {δ : Type*}

/-- The entries from the first position of the cursor on. -/
def cursorFrom (db : BerkeleyDbCursors δ) (s : BerkeleyDBDataStore δ) (start : Bulk) :
    List (Bulk × Bulk) :=
  if start.length > 0 then db.seek s.dbm start else db.seekToFirst s.dbm

/-- The loop of a listing over what the cursor has after the current entry; `c` is the
comparison of the current key with the prefix. -/
def scanLoop {α : Type*} (push : Bulk × Bulk → α) (count : ℕ) (keyPrefix : Bulk) :
    List α → Int → List (Bulk × Bulk) → List α
  | result, _, [] => result
  | result, c, p :: it =>
      if result.length < count ∧ c ≥ 0 then
        let c' := memcmp keyPrefix p.1 keyPrefix.length
        scanLoop push count keyPrefix (if c' = 0 then result ++ [push p] else result) c' it
      else result

/-- A listing from the first position of the cursor on. -/
def scan {α : Type*} (push : Bulk × Bulk → α) (count : ℕ) (keyPrefix start : Bulk) :
    List (Bulk × Bulk) → List α
  | [] => []
  | p :: it =>
      -- `DB_SET_RANGE` gives a key that is at least `start`, and it has to be greater
      if p.1 ≠ start then
        let c := memcmp keyPrefix p.1 keyPrefix.length
        scanLoop push count keyPrefix (if c = 0 then [push p] else []) c it
      else scanLoop push count keyPrefix [] 0 it

/-- `vlist_keys`. -/
def vlistKeys (db : BerkeleyDbCursors δ) (s : BerkeleyDBDataStore δ) (start : Bulk)
    (count : ℕ) (keyPrefix : Bulk) : List Bulk :=
  scan Prod.fst count keyPrefix start (s.cursorFrom db start)

end BerkeleyDBDataStore

section Orders

theorem memcmp_eq_zero_iff {a b : Bulk} (h : a.length = b.length) :
    memcmp a b a.length = 0 ↔ a = b := by
  induction a generalizing b with
  | nil =>
      cases b with
      | nil => simp [memcmp]
      | cons y b => simp at h
  | cons x a ih =>
      cases b with
      | nil => simp at h
      | cons y b =>
          rw [List.length_cons, memcmp]
          by_cases hxy : x = y
          · subst hxy
            simp [ih (by simpa using h)]
          · by_cases hlt : unsignedCharLess x y <;> simp [hxy, hlt]

/-- The test with which a listing of the LevelDB backend skips the start key. -/
theorem exactMatch_iff (start key : Bulk) :
    start.length = key.length ∧ memcmp key start start.length = 0 ↔ key = start := by
  constructor
  · rintro ⟨hlength, hcmp⟩
    rw [hlength] at hcmp
    exact (memcmp_eq_zero_iff hlength.symm).1 hcmp
  · rintro rfl
    exact ⟨rfl, (memcmp_eq_zero_iff rfl).2 rfl⟩

theorem sliceCompare_cons (x y : UInt8) (a b : Bulk) :
    sliceCompare (x :: a) (y :: b) =
      if x = y then sliceCompare a b else if unsignedCharLess x y then -1 else 1 := by
  by_cases hxy : x = y
  · simp [sliceCompare, memcmp, hxy]
  · by_cases hlt : unsignedCharLess x y <;> simp [sliceCompare, memcmp, hxy, hlt]

/-- `leveldb::Slice::compare` is the lexicographic order of `unsigned char`. -/
theorem sliceCompare_neg_iff (a b : Bulk) : sliceCompare a b < 0 ↔ stringLess a b := by
  induction a generalizing b with
  | nil => cases b <;> simp [sliceCompare, memcmp, stringLess]
  | cons x a ih =>
      cases b with
      | nil => simp [sliceCompare, memcmp, stringLess]
      | cons y b =>
          rw [sliceCompare_cons, stringLess, List.cons_lex_cons_iff, ← stringLess, ← ih]
          by_cases hxy : x = y
          · have hirrefl : ¬ unsignedCharLess y y := irrefl_of unsignedCharLess y
            simp [hxy, hirrefl]
          · by_cases hlt : unsignedCharLess x y <;> simp [hxy, hlt]

theorem sliceCompare_swap (a b : Bulk) : sliceCompare b a = -sliceCompare a b := by
  induction a generalizing b with
  | nil => cases b <;> simp [sliceCompare, memcmp]
  | cons x a ih =>
      cases b with
      | nil => simp [sliceCompare, memcmp]
      | cons y b =>
          rw [sliceCompare_cons, sliceCompare_cons, ih b]
          by_cases hxy : x = y
          · simp [hxy]
          · have hswap : unsignedCharLess y x ↔ ¬ unsignedCharLess x y := by
              have hne : x.toNat ≠ y.toNat := fun h => hxy (UInt8.toNat_inj.1 h)
              unfold unsignedCharLess
              omega
            by_cases hlt : unsignedCharLess x y
            · simp [hxy, hlt, hswap, Ne.symm hxy]
            · simp [hxy, hlt, hswap, Ne.symm hxy]

theorem sliceCompare_pos_iff (a b : Bulk) : 0 < sliceCompare a b ↔ stringLess b a := by
  rw [← sliceCompare_neg_iff, sliceCompare_swap a b]
  exact Int.neg_neg_iff_pos.symm

theorem comparatorLess_compare_none :
    comparatorLess (LevelDBDataStoreComparator.compare none) = stringLess := by
  funext a b
  exact propext (sliceCompare_neg_iff a b)

/-- Without a function, `compkeys` compares as `leveldb::Slice::compare` does. -/
theorem compareDbts_none : compareDbts none = LevelDBDataStoreComparator.compare none := by
  funext a b
  have hmin : (if a.length > b.length then b.length else a.length) =
      min a.length b.length := by
    rw [min_def]
    split_ifs <;> omega
  simp only [compareDbts, LevelDBDataStoreComparator.compare, sliceCompare, hmin]
  split_ifs <;> simp_all

/-- The first bytes in which two keys differ, if there are any, are both characters of
non-negative value or both of negative value. -/
def SignsAgree : Bulk → Bulk → Prop
  | x :: a, y :: b => if x = y then SignsAgree a b else (x.toNat < 128 ↔ y.toNat < 128)
  | _, _ => True

instance SignsAgree.decidable : (a b : Bulk) → Decidable (SignsAgree a b)
  | [], _ => isTrue trivial
  | _ :: _, [] => isTrue trivial
  | x :: a, y :: b =>
      if h : x = y then
        have : Decidable (SignsAgree a b) := SignsAgree.decidable a b
        decidable_of_iff (SignsAgree a b) (by rw [SignsAgree, if_pos h])
      else
        decidable_of_iff (x.toNat < 128 ↔ y.toNat < 128) (by rw [SignsAgree, if_neg h])

theorem signedChar_eq (x : UInt8) :
    signedChar x = if x.toNat < 128 then (x.toNat : Int) else x.toNat - 256 := by
  have h := BitVec.toInt_eq_toNat_cond x.toBitVec
  rw [signedChar]
  change x.toBitVec.toInt = _
  rw [h]
  change (if 2 * x.toNat < 256 then (x.toNat : Int) else (x.toNat : Int) - 256) = _
  split_ifs <;> omega

theorem charLess_iff_unsignedCharLess {x y : UInt8} (h : x ≠ y) :
    (charLess x y ↔ unsignedCharLess x y) ↔ (x.toNat < 128 ↔ y.toNat < 128) := by
  have hne : x.toNat ≠ y.toNat := fun heq => h (UInt8.toNat_inj.1 heq)
  have hx : x.toNat < 256 := x.toNat_lt
  have hy : y.toNat < 256 := y.toNat_lt
  rw [charLess, unsignedCharLess, signedChar_eq, signedChar_eq]
  split_ifs <;> omega

/-- The default orders of the backends agree on two keys exactly when the signs do. -/
theorem vectorLess_iff_stringLess (a b : Bulk) :
    (vectorLess a b ↔ stringLess a b) ↔ SignsAgree a b := by
  induction a generalizing b with
  | nil => cases b <;> simp [vectorLess, stringLess, SignsAgree]
  | cons x a ih =>
      cases b with
      | nil => simp [vectorLess, stringLess, SignsAgree]
      | cons y b =>
          rw [vectorLess, stringLess, List.cons_lex_cons_iff, List.cons_lex_cons_iff,
            ← vectorLess, ← stringLess, SignsAgree]
          by_cases hxy : x = y
          · have hsigned : ¬ charLess y y := irrefl_of charLess y
            have hunsigned : ¬ unsignedCharLess y y := irrefl_of unsignedCharLess y
            simp [hxy, hsigned, hunsigned, ih b]
          · simp only [hxy, false_and, or_false, if_false]
            exact charLess_iff_unsignedCharLess hxy

end Orders

/-- For a start key that is not empty, a page begins at the first entry that is not before
the start key, and leaves out the start key itself. -/
theorem page_cons_start {lt : Bulk → Bulk → Prop} [DecidableRel lt]
    [IsStrictTotalOrder Bulk lt] {m : List (Bulk × Bulk)} (h : OrderedMap.Sorted lt m)
    {start : Bulk} (hstart : start ≠ []) (count : ℕ) :
    page lt m start count [] =
      (OrderedMap.skipKey start (m.filter fun p => decide (¬ lt p.1 start))).take count := by
  rw [← OrderedMap.filter_after_eq lt h start]
  simp [page, hstart]

namespace LevelDBDataStore

section Loop

variable {α : Type*} (push : Bulk × Bulk → α)

theorem scanLoop_nil (count : ℕ) (result : List α) (it : List (Bulk × Bulk)) :
    scanLoop push count [] result it =
      result ++ (it.take (count - result.length)).map push := by
  induction it generalizing result with
  | nil => simp [scanLoop]
  | cons p it ih =>
      by_cases hcount : result.length < count
      · have hsucc : count - result.length = count - (result.length + 1) + 1 := by omega
        simp [scanLoop, memcmp, hcount, ih, hsucc]
      · have hzero : count - result.length = 0 := by omega
        simp [scanLoop, hcount, hzero]

theorem prefix_scanLoop (count : ℕ) (keyPrefix : Bulk) (result : List α)
    (it : List (Bulk × Bulk)) : result <+: scanLoop push count keyPrefix result it := by
  induction it generalizing result with
  | nil => exact List.prefix_rfl
  | cons p it ih =>
      simp only [scanLoop]
      split_ifs
      · exact (List.prefix_append result [push p]).trans (ih _)
      · exact List.prefix_rfl
      · exact ih result
      · exact List.prefix_rfl

theorem scanLoop_take {count m : ℕ} {keyPrefix : Bulk} {result : List α}
    {it : List (Bulk × Bulk)} (hresult : result.length ≤ m)
    (hm : m ≤ (scanLoop push count keyPrefix result it).length) :
    scanLoop push m keyPrefix result it =
      (scanLoop push count keyPrefix result it).take m := by
  induction it generalizing result with
  | nil => rw [scanLoop, scanLoop, List.take_of_length_le hresult]
  | cons p it ih =>
      by_cases hlt : result.length < m
      · have hcount : result.length < count := by
          by_contra hcount
          rw [scanLoop, if_neg hcount] at hm
          omega
        simp only [scanLoop, if_pos hlt, if_pos hcount] at hm ⊢
        split_ifs at hm ⊢
        · exact ih (by rw [List.length_append]; exact hlt) hm
        · omega
        · exact ih hresult hm
      · obtain ⟨rest, hrest⟩ := prefix_scanLoop push count keyPrefix result (p :: it)
        rw [← hrest, scanLoop, if_neg hlt, List.take_left' (by omega)]

end Loop

variable {δ : Type*} {db : LevelDBIterators δ} {lt : Bulk → Bulk → Prop} [DecidableRel lt]
  [IsStrictTotalOrder Bulk lt]

/-- With the empty prefix, `vlist_keys` lists a page of the interface. -/
theorem vlistKeys_nil (S : db.Spec lt) (s : LevelDBDataStore δ) (start : Bulk) (count : ℕ) :
    s.vlistKeys db start count [] =
      (page lt (db.seekToFirst s.dbm) start count []).map Prod.fst := by
  simp only [vlistKeys, scanLoop_nil, scanFrom, exactMatch_iff]
  by_cases hstart : start = []
  · simp [hstart, page_nil]
  · have hpos : start.length > 0 := List.length_pos_iff.2 hstart
    rw [if_pos hpos, S.iterates.seek_eq, page_cons_start (S.iterates.sorted s.dbm) hstart]
    cases (db.seekToFirst s.dbm).filter fun p : Bulk × Bulk => decide (¬ lt p.1 start) with
    | nil => simp [OrderedMap.skipKey]
    | cons p it => simp [OrderedMap.skipKey]

end LevelDBDataStore

namespace BerkeleyDBDataStore

section Loop

variable {α : Type*} (push : Bulk × Bulk → α)

/-- As long as the last key was not beyond the prefix, the loop does what the loop of the
LevelDB backend does. -/
theorem scanLoop_eq (count : ℕ) (keyPrefix : Bulk) (result : List α) (c : Int)
    (it : List (Bulk × Bulk)) :
    scanLoop push count keyPrefix result c it =
      if c < 0 then result else LevelDBDataStore.scanLoop push count keyPrefix result it := by
  induction it generalizing result c with
  | nil => simp [scanLoop, LevelDBDataStore.scanLoop]
  | cons p it ih =>
      by_cases hc : c < 0
      · have hstop : ¬ (result.length < count ∧ c ≥ 0) := fun h => absurd hc (not_lt.2 h.2)
        rw [scanLoop, if_neg hstop, if_pos hc]
      · by_cases hcount : result.length < count
        · rw [scanLoop, if_pos ⟨hcount, not_lt.1 hc⟩, if_neg hc, ih,
            LevelDBDataStore.scanLoop, if_pos hcount]
          by_cases hzero : memcmp keyPrefix p.1 keyPrefix.length = 0
          · simp [hzero]
          · simp [hzero]
        · have hstop : ¬ (result.length < count ∧ c ≥ 0) := fun h => hcount h.1
          rw [scanLoop, if_neg hstop, if_neg hc, LevelDBDataStore.scanLoop, if_neg hcount]

theorem scanLoop_take {count m : ℕ} {keyPrefix : Bulk} {result : List α} {c : Int}
    {it : List (Bulk × Bulk)} (hresult : result.length ≤ m)
    (hm : m ≤ (scanLoop push count keyPrefix result c it).length) :
    scanLoop push m keyPrefix result c it =
      (scanLoop push count keyPrefix result c it).take m := by
  simp only [scanLoop_eq] at hm ⊢
  split_ifs at hm ⊢
  · exact (List.take_of_length_le hresult).symm
  · exact LevelDBDataStore.scanLoop_take push hresult hm

/-- With the empty prefix and a count that is not 0, a listing gives the first entries after
the start key: the first one is taken before the count is looked at. -/
theorem scan_nil {count : ℕ} (hcount : 1 ≤ count) (start : Bulk) (it : List (Bulk × Bulk)) :
    scan push count [] start it = ((OrderedMap.skipKey start it).take count).map push := by
  cases it with
  | nil => simp [scan, OrderedMap.skipKey]
  | cons p it =>
      obtain ⟨n, rfl⟩ : ∃ n, count = n + 1 := ⟨count - 1, by omega⟩
      by_cases hp : p.1 = start
      · simp [scan, OrderedMap.skipKey, hp, scanLoop_eq, LevelDBDataStore.scanLoop_nil]
      · simp [scan, OrderedMap.skipKey, memcmp, hp, scanLoop_eq, LevelDBDataStore.scanLoop_nil]

end Loop

end BerkeleyDBDataStore

section Agreement

/-- The keys of a database after the start key, in order. -/
def keysAfter (lt : Bulk → Bulk → Prop) [DecidableRel lt] (m : List (Bulk × Bulk))
    (start : Bulk) : List Bulk :=
  (m.filter fun p => decide (start = [] ∨ lt start p.1)).map Prod.fst

theorem map_fst_page (lt : Bulk → Bulk → Prop) [DecidableRel lt] (m : List (Bulk × Bulk))
    (start : Bulk) (count : ℕ) :
    (page lt m start count []).map Prod.fst = (keysAfter lt m start).take count := by
  simp [page, keysAfter]

section KeysAfter

variable {lt : Bulk → Bulk → Prop} [DecidableRel lt] {m : List (Bulk × Bulk)}
  (h : OrderedMap.Sorted lt m) (start : Bulk)
include h

theorem pairwise_keysAfter : (keysAfter lt m start).Pairwise lt :=
  List.Pairwise.map Prod.fst (fun _ _ hlt => hlt)
    (List.Pairwise.sublist List.filter_sublist h)

theorem mem_keysAfter [IsStrictTotalOrder Bulk lt] {keys : Finset Bulk}
    (hleast : ∀ k ∈ keys, lt [] k)
    (hkeys : ∀ k, (OrderedMap.lookup lt m k).isSome ↔ k ∈ keys) (k : Bulk) :
    k ∈ keysAfter lt m start ↔ k ∈ keys ∧ lt start k := by
  have hmem : k ∈ keys ↔ ∃ v, (k, v) ∈ m := by
    rw [← hkeys, Option.isSome_iff_exists]
    exact exists_congr fun v => OrderedMap.lookup_eq_some_iff lt h
  have hstart : k ∈ keys → (start = [] ∨ lt start k ↔ lt start k) := by
    intro hk
    constructor
    · rintro (rfl | hlt)
      · exact hleast k hk
      · exact hlt
    · exact Or.inr
  rw [keysAfter, List.mem_map]
  constructor
  · rintro ⟨⟨k', v⟩, hp, rfl⟩
    rw [List.mem_filter, decide_eq_true_iff] at hp
    have hk : k' ∈ keys := hmem.2 ⟨v, hp.1⟩
    exact ⟨hk, (hstart hk).1 hp.2⟩
  · rintro ⟨hk, hlt⟩
    obtain ⟨v, hv⟩ := hmem.1 hk
    exact ⟨(k, v), List.mem_filter.2 ⟨hv, by simp [hlt]⟩, rfl⟩

end KeysAfter

/-- The empty key comes before all others. -/
theorem lex_nil_of_ne {lt : UInt8 → UInt8 → Prop} {k : Bulk} (hk : k ≠ []) :
    List.Lex lt [] k := by
  obtain ⟨x, k, rfl⟩ := List.exists_cons_of_ne_nil hk
  exact List.Lex.nil

theorem lex_nil_of_mem {lt : UInt8 → UInt8 → Prop} {keys : Finset Bulk} (hne : [] ∉ keys)
    {k : Bulk} (hk : k ∈ keys) : List.Lex lt [] k :=
  lex_nil_of_ne fun heq => hne (heq ▸ hk)

section Iterated

variable {δ : Type*} {iterators : Iterators δ} {lt : Bulk → Bulk → Prop} [DecidableRel lt]
  {view : δ → Bulk → Option Bulk} (I : iterators.Spec lt view) (hlt : lt = stringLess)
  (d : δ) (start : Bulk)
include I hlt

theorem pairwise_iteratedKeys :
    (keysAfter lt (iterators.seekToFirst d) start).Pairwise stringLess :=
  hlt ▸ pairwise_keysAfter (I.sorted d) start

theorem mem_iteratedKeys {keys : Finset Bulk} (hne : [] ∉ keys)
    (hkeys : ∀ k, (view d k).isSome ↔ k ∈ keys) (k : Bulk) :
    k ∈ keysAfter lt (iterators.seekToFirst d) start ↔ k ∈ keys ∧ stringLess start k := by
  subst hlt
  apply mem_keysAfter (I.sorted d) start
  · intro k hk
    exact lex_nil_of_mem hne hk
  · intro k
    rw [I.lookup]
    exact hkeys k

end Iterated

section MapState

variable {less : Option ComparatorFn} {noOverwrite : Bool} (s : MapState less noOverwrite)
  (start : Bulk)

theorem pairwise_mapKeys : (keysAfter (keycmp less) s.1.map start).Pairwise (keycmp less) := by
  obtain ⟨s, rfl, -, hwf⟩ := s
  exact pairwise_keysAfter hwf start

theorem mapVlistKeys_nil [IsStrictWeakOrder Bulk (keycmp less)] (count : ℕ) :
    s.1.vlistKeys start count [] =
      some ((keysAfter (keycmp less) s.1.map start).take count) := by
  obtain ⟨s, rfl, -, hwf⟩ := s
  rw [MapDataStore.vlistKeys_nil hwf, map_fst_page]

end MapState

instance : IsStrictTotalOrder Bulk (comparatorLess (LevelDBDataStoreComparator.compare none)) :=
  comparatorLess_compare_none ▸ inferInstanceAs (IsStrictTotalOrder Bulk stringLess)

instance : IsStrictWeakOrder Bulk (comparatorLess (LevelDBDataStoreComparator.compare none)) :=
  OrderedMap.isStrictWeakOrder_of_isStrictTotalOrder _

section Callback

variable (code : ℕ → Option ComparatorFn) (memory : ℕ → ℕ) (db : ℕ)

/-- The order that the callback gives the keys of the `Db` at the address `db`. -/
def callbackLess (a b : Bulk) : Prop :=
  match (compkeysOfDb code memory db a b).answer with
  | some n => n < 0
  | none => False

instance : DecidableRel (callbackLess code memory db) := fun a b =>
  match h : (compkeysOfDb code memory db a b).answer with
  | some n => decidable_of_iff (n < 0) (by simp [callbackLess, h])
  | none => isFalse (by simp [callbackLess, h])

/-- When the word behind the `Db` is null, the callback compares the bytes. -/
theorem callbackLess_of_null {code : ℕ → Option ComparatorFn} {memory : ℕ → ℕ} {db : ℕ}
    (hnull : memory (db + offsetLess) = 0) : callbackLess code memory db = stringLess := by
  have hword : memory (db - offsetDb + offsetLess) = 0 := hnull
  funext a b
  simp only [callbackLess, compkeysOfDb, hword, ne_eq, not_true_eq_false, if_false,
    compareDbts_none]
  exact propext (sliceCompare_neg_iff a b)

/-- On the keys that are listed, the callback agrees with `memcmp` and then the size: the
cursor begins behind the start key, of which the `Dbt` holds the first bytes, and the keys
after it are in order. -/
structure CallbackAgrees (keys : Finset Bulk) (start : Bulk) : Prop where
  begins : ∀ k ∈ keys, (start = [] ∨ ¬ callbackLess code memory db k (dbt start) ∧ k ≠ start) ↔
    stringLess start k
  order : ∀ k ∈ keys, ∀ k' ∈ keys, stringLess start k → stringLess start k' →
    (stringLess k k' ↔ callbackLess code memory db k k')

/-- It does so whenever the word is null and the start key fits into a `Dbt`. -/
theorem callbackAgrees_of_null {code : ℕ → Option ComparatorFn} {memory : ℕ → ℕ} {db : ℕ}
    (hnull : memory (db + offsetLess) = 0) {keys : Finset Bulk} (hne : [] ∉ keys) {start : Bulk}
    (hstart : start.length < 2 ^ 32) : CallbackAgrees code memory db keys start := by
  constructor
  · intro k hk
    rw [callbackLess_of_null hnull, dbt_of_lt hstart]
    constructor
    · rintro (rfl | ⟨hnot, hkey⟩)
      · exact lex_nil_of_mem hne hk
      · rcases trichotomous_of stringLess k start with hless | heq | hless
        · exact absurd hless hnot
        · exact absurd heq hkey
        · exact hless
    · intro hless
      refine Or.inr ⟨asymm_of stringLess hless, ?_⟩
      rintro rfl
      exact irrefl_of stringLess k hless
  · intro k _ k' _ _ _
    rw [callbackLess_of_null hnull]

end Callback

namespace BerkeleyDBDataStore

variable {ε : Type*} {bdb : BerkeleyDbCursors ε} {lt : Bulk → Bulk → Prop} [DecidableRel lt]
  (B : bdb.Spec lt) (u : BerkeleyDBDataStore ε) (start : Bulk)

/-- The keys that a listing with the empty prefix gives, all pages together. -/
def listedKeys (bdb : BerkeleyDbCursors ε) (u : BerkeleyDBDataStore ε) (start : Bulk) :
    List Bulk :=
  (OrderedMap.skipKey start (u.cursorFrom bdb start)).map Prod.fst

theorem vlistKeys_eq_take {count : ℕ} (hcount : 1 ≤ count) :
    u.vlistKeys bdb start count [] = (listedKeys bdb u start).take count := by
  rw [vlistKeys, scan_nil _ hcount, listedKeys, List.map_take]

include B

theorem cursorFrom_onDbts :
    u.cursorFrom bdb.onDbts start =
      (bdb.seekToFirst u.dbm).filter fun p => decide (start = [] ∨ ¬ lt p.1 (dbt start)) := by
  by_cases hstart : start = []
  · simp [cursorFrom, hstart, BerkeleyDbCursors.onDbts]
  · have hpos : start.length > 0 := List.length_pos_iff.2 hstart
    simp [cursorFrom, hpos, hstart, BerkeleyDbCursors.onDbts, B.iterates.seek_eq]

theorem pairwise_listedKeys : (listedKeys bdb.onDbts u start).Pairwise lt := by
  rw [listedKeys, cursorFrom_onDbts B]
  refine List.Pairwise.map Prod.fst (fun _ _ hlt => hlt) ?_
  exact ((B.iterates.sorted u.dbm).sublist List.filter_sublist).sublist
    (OrderedMap.skipKey_sublist start _)

theorem mem_listedKeys [IsStrictTotalOrder Bulk lt] {keys : Finset Bulk} (hne : [] ∉ keys)
    (hfits : ∀ k ∈ keys, k.length < 2 ^ 32) (hkeys : ∀ k, (B.view u.dbm k).isSome ↔ k ∈ keys)
    (k : Bulk) :
    k ∈ listedKeys bdb.onDbts u start ↔
      k ∈ keys ∧ (start = [] ∨ ¬ lt k (dbt start) ∧ k ≠ start) := by
  have hsorted := B.iterates.sorted u.dbm
  have hmem : ∀ k, k ∈ keys ↔ ∃ v, (k, v) ∈ bdb.seekToFirst u.dbm := by
    intro k
    rw [← hkeys, ← B.iterates.lookup, Option.isSome_iff_exists]
    exact exists_congr fun v => OrderedMap.lookup_eq_some_iff lt hsorted
  -- a start key that is stored fits into the `Dbt`, and is the first key from there on
  have hleast : start ∈ ((bdb.seekToFirst u.dbm).filter fun p =>
        decide (start = [] ∨ ¬ lt p.1 (dbt start))).map Prod.fst →
      ∀ p ∈ (bdb.seekToFirst u.dbm).filter fun p =>
        decide (start = [] ∨ ¬ lt p.1 (dbt start)), ¬ lt p.1 start := by
    intro hstart p hp
    obtain ⟨q, hq, heq⟩ := List.mem_map.1 hstart
    have hkey : start ∈ keys := (hmem start).2 ⟨q.2, heq ▸ (List.mem_filter.1 hq).1⟩
    have hbegins := of_decide_eq_true (List.mem_filter.1 hp).2
    rw [dbt_of_lt (hfits start hkey)] at hbegins
    refine hbegins.resolve_left ?_
    rintro rfl
    exact hne hkey
  have hskip := OrderedMap.mem_skipKey lt (hsorted.sublist List.filter_sublist) hleast
  have hnil : k ∈ keys → start = [] → k ≠ start := by
    rintro hk rfl rfl
    exact hne hk
  simp only [listedKeys, List.mem_map, hskip, cursorFrom_onDbts B, List.mem_filter,
    decide_eq_true_eq]
  constructor
  · rintro ⟨⟨k, v⟩, ⟨⟨hp, hbegins⟩, hne⟩, rfl⟩
    exact ⟨(hmem k).2 ⟨v, hp⟩, hbegins.imp_right fun hnot => ⟨hnot, hne⟩⟩
  · rintro ⟨hk, hbegins⟩
    obtain ⟨v, hv⟩ := (hmem k).1 hk
    refine ⟨(k, v), ⟨⟨hv, hbegins.imp_right And.left⟩, ?_⟩, rfl⟩
    rcases hbegins with hstart | hbegins
    · exact hnil hk hstart
    · exact hbegins.2

end BerkeleyDBDataStore

variable {δ ε : Type*} {level : LevelDBIterators δ} {bdb : BerkeleyDbCursors ε}
  {code : ℕ → Option ComparatorFn} {memory : ℕ → ℕ} {db : ℕ}

/-- A database of each backend, all with the default comparator and with the keys `keys`,
none of them empty; BerkeleyDB has the keys of a `Db` at the address `db`, in the order of
its callback, and holds no key that does not fit into a `Dbt`. -/
structure HoldKeys (L : level.Spec (comparatorLess (LevelDBDataStoreComparator.compare none)))
    (B : bdb.Spec (callbackLess code memory db)) (keys : Finset Bulk)
    {noOverwrite : Bool} (s : MapState none noOverwrite) (t : LevelDBDataStore δ)
    (u : BerkeleyDBDataStore ε) : Prop where
  notEmpty : [] ∉ keys
  fits : ∀ k ∈ keys, k.length < 2 ^ 32
  map : ∀ k, (s.1.get k).isSome ↔ k ∈ keys
  levelDB : ∀ k, (L.view t.dbm k).isSome ↔ k ∈ keys
  berkeleyDB : ∀ k, (B.view u.dbm k).isSome ↔ k ∈ keys

/-- The three backends list the same keys in the same order, with the empty prefix. -/
def ListSameKeys (level : LevelDBIterators δ) (bdb : BerkeleyDbCursors ε) (s : MapDataStore)
    (t : LevelDBDataStore δ) (u : BerkeleyDBDataStore ε) (start : Bulk) (count : ℕ) : Prop :=
  s.vlistKeys start count [] = some (t.vlistKeys level start count []) ∧
    t.vlistKeys level start count [] = u.vlistKeys bdb start count []

variable {L : level.Spec (comparatorLess (LevelDBDataStoreComparator.compare none))}
  {B : bdb.Spec (callbackLess code memory db)} {keys : Finset Bulk} {noOverwrite : Bool}
  {s : MapState none noOverwrite} {t : LevelDBDataStore δ} {u : BerkeleyDBDataStore ε}

/-- The map backend lists the keys after the start key in the order of `char`. -/
theorem HoldKeys.mem_mapKeys (h : HoldKeys L B keys s t u) (start k : Bulk) :
    k ∈ keysAfter (keycmp none) s.1.map start ↔ k ∈ keys ∧ vectorLess start k := by
  obtain ⟨s, hless, hno, hwf⟩ := s
  have hget := h.map
  simp only [MapDataStore.get, hless] at hget
  rw [MapDataStore.WellFormed, hless] at hwf
  apply mem_keysAfter hwf start _ hget
  intro k hk
  exact lex_nil_of_mem h.notEmpty hk

theorem eq_of_forall_take_eq {α : Type*} {l l' : List α}
    (h : ∀ count, 1 ≤ count → l.take count = l'.take count) : l = l' := by
  have hall := h (l.length + l'.length + 1) (by omega)
  rwa [List.take_of_length_le (by omega), List.take_of_length_le (by omega)] at hall

/-- The pages are the same for every count when all the listed keys are. -/
theorem listSameKeys_iff
    (L : level.Spec (comparatorLess (LevelDBDataStoreComparator.compare none))) (start : Bulk) :
    (∀ count, 1 ≤ count → ListSameKeys level bdb.onDbts s.1 t u start count) ↔
      keysAfter (keycmp none) s.1.map start =
          keysAfter (comparatorLess (LevelDBDataStoreComparator.compare none))
            (level.seekToFirst t.dbm) start ∧
        keysAfter (comparatorLess (LevelDBDataStoreComparator.compare none))
            (level.seekToFirst t.dbm) start =
          BerkeleyDBDataStore.listedKeys bdb.onDbts u start := by
  simp only [ListSameKeys, mapVlistKeys_nil, LevelDBDataStore.vlistKeys_nil L, map_fst_page,
    Option.some_inj]
  constructor
  · intro h
    constructor
    · exact eq_of_forall_take_eq fun count hc => (h count hc).1
    · refine eq_of_forall_take_eq fun count hc => ?_
      rw [(h count hc).2, BerkeleyDBDataStore.vlistKeys_eq_take u start hc]
  · rintro ⟨hmap, hbdb⟩ count hc
    rw [BerkeleyDBDataStore.vlistKeys_eq_take u start hc, hmap, hbdb]
    exact ⟨rfl, rfl⟩

variable [IsStrictTotalOrder Bulk (callbackLess code memory db)]

/-- The LevelDB and the BerkeleyDB backend list the same keys in the same order exactly when
the callback agrees with `memcmp` and then the size. -/
theorem HoldKeys.levelDB_eq_berkeleyDB_iff (h : HoldKeys L B keys s t u) (start : Bulk) :
    keysAfter (comparatorLess (LevelDBDataStoreComparator.compare none))
        (level.seekToFirst t.dbm) start = BerkeleyDBDataStore.listedKeys bdb.onDbts u start ↔
      CallbackAgrees code memory db keys start := by
  have hlevel := mem_iteratedKeys L.iterates comparatorLess_compare_none t.dbm start h.notEmpty
    h.levelDB
  have hbdb := BerkeleyDBDataStore.mem_listedKeys B u start h.notEmpty h.fits h.berkeleyDB
  rw [OrderedMap.eq_iff_of_pairwise stringLess
    (pairwise_iteratedKeys L.iterates comparatorLess_compare_none t.dbm start)
    (BerkeleyDBDataStore.pairwise_listedKeys B u start)]
  simp only [hlevel, hbdb, and_congr_right_iff]
  constructor
  · rintro ⟨hmem, horder⟩
    exact ⟨fun k hk => (hmem k hk).symm,
      fun k hk k' hk' hlt hlt' => horder k ⟨hk, hlt⟩ k' ⟨hk', hlt'⟩⟩
  · intro hagrees
    exact ⟨fun k hk => (hagrees.begins k hk).symm,
      fun k hk k' hk' => hagrees.order k hk.1 k' hk'.1 hk.2 hk'.2⟩

/-- The three backends list the same keys in the same order exactly when the start key
agrees in sign with every key, and so do any two keys after the start key, and when the
callback of BerkeleyDB, through the word that it reads behind the `Db`, orders the listed
keys as the bytes do. -/
theorem vlistKeys_agree_iff (h : HoldKeys L B keys s t u) (start : Bulk) :
    (∀ count, 1 ≤ count → ListSameKeys level bdb.onDbts s.1 t u start count) ↔
      ((∀ k ∈ keys, SignsAgree start k) ∧
        ∀ k ∈ keys, ∀ k' ∈ keys, vectorLess start k → vectorLess start k' →
          SignsAgree k k') ∧
      CallbackAgrees code memory db keys start := by
  rw [listSameKeys_iff L, h.levelDB_eq_berkeleyDB_iff start]
  refine and_congr_left fun _ => ?_
  rw [OrderedMap.eq_iff_of_pairwise vectorLess (pairwise_mapKeys s start)
    (pairwise_iteratedKeys L.iterates comparatorLess_compare_none t.dbm start)]
  simp only [h.mem_mapKeys, vectorLess_iff_stringLess, mem_iteratedKeys L.iterates
    comparatorLess_compare_none t.dbm start h.notEmpty h.levelDB, and_congr_right_iff]
  intro _
  constructor
  · intro hpairs k hk k' hk' hlt hlt'
    exact hpairs k ⟨hk, hlt⟩ k' ⟨hk', hlt'⟩
  · intro hpairs k hk k' hk'
    exact hpairs k hk.1 k' hk'.1 hk.2 hk'.2

/-- Iterators over the entries of an ordered map. -/
def orderedIterators (lt : Bulk → Bulk → Prop) [DecidableRel lt] :
    Iterators (List (Bulk × Bulk)) where
  seekToFirst m := OrderedMap.ofEntries lt m
  seek m k := (OrderedMap.ofEntries lt m).filter fun p => decide (¬ lt p.1 k)

theorem orderedIterators_spec (lt : Bulk → Bulk → Prop) [DecidableRel lt]
    [IsStrictWeakOrder Bulk lt] : (orderedIterators lt).Spec lt (OrderedMap.lookup lt) where
  sorted m := OrderedMap.sorted_ofEntries lt m
  lookup m k := OrderedMap.lookup_ofEntries lt m k
  seek_eq _ _ := rfl

/-- LevelDB over an ordered map. -/
def orderedLevelDBIterators (lt : Bulk → Bulk → Prop) [DecidableRel lt] :
    LevelDBIterators (List (Bulk × Bulk)) :=
  { orderedLevelDB lt, orderedIterators lt with }

def orderedLevelDBIterators_spec (lt : Bulk → Bulk → Prop) [DecidableRel lt]
    [IsStrictWeakOrder Bulk lt] : (orderedLevelDBIterators lt).Spec lt :=
  { orderedLevelDB_spec lt with iterates := orderedIterators_spec lt }

/-- BerkeleyDB over an ordered map. -/
def orderedBerkeleyDbCursors (lt : Bulk → Bulk → Prop) [DecidableRel lt] :
    BerkeleyDbCursors (List (Bulk × Bulk)) :=
  { orderedBerkeleyDb lt, orderedIterators lt with }

def orderedBerkeleyDbCursors_spec (lt : Bulk → Bulk → Prop) [DecidableRel lt]
    [IsStrictWeakOrder Bulk lt] : (orderedBerkeleyDbCursors lt).Spec lt :=
  { orderedBerkeleyDb_spec lt with iterates := orderedIterators_spec lt }

/-- The map database with the default order and the given entries. -/
def mapOfEntries (m : List (Bulk × Bulk)) : MapState none false :=
  ⟨{ MapDataStore.new with map := OrderedMap.ofEntries vectorLess m }, rfl, rfl,
    OrderedMap.sorted_ofEntries vectorLess m⟩

/-- A memory in which every word is null. -/
def nullMemory : ℕ → ℕ := fun _ => 0

theorem callbackLess_nullMemory (code : ℕ → Option ComparatorFn) (db : ℕ) :
    callbackLess code nullMemory db = stringLess :=
  callbackLess_of_null rfl

instance (code : ℕ → Option ComparatorFn) (db : ℕ) :
    IsStrictTotalOrder Bulk (callbackLess code nullMemory db) :=
  callbackLess_nullMemory code db ▸ inferInstanceAs (IsStrictTotalOrder Bulk stringLess)

instance (code : ℕ → Option ComparatorFn) (db : ℕ) :
    IsStrictWeakOrder Bulk (callbackLess code nullMemory db) :=
  OrderedMap.isStrictWeakOrder_of_isStrictTotalOrder _

/-- LevelDB with the default comparator, over an ordered map. -/
def defaultLevelDB : LevelDBIterators (List (Bulk × Bulk)) :=
  orderedLevelDBIterators (comparatorLess (LevelDBDataStoreComparator.compare none))

/-- BerkeleyDB over an ordered map, in the order of the callback of a `Db` whose words are
null; the process has no comparison functions. -/
def defaultBerkeleyDB : BerkeleyDbCursors (List (Bulk × Bulk)) :=
  orderedBerkeleyDbCursors (callbackLess (fun _ => none) nullMemory 0x2000)

def defaultLevelDB_spec :
    defaultLevelDB.Spec (comparatorLess (LevelDBDataStoreComparator.compare none)) :=
  orderedLevelDBIterators_spec _

def defaultBerkeleyDB_spec :
    defaultBerkeleyDB.Spec (callbackLess (fun _ => none) nullMemory 0x2000) :=
  orderedBerkeleyDbCursors_spec _

/-- Every set of non-empty keys that fit into a `Dbt` is the key set of three databases. -/
theorem holdKeys_ofEntries (m : List (Bulk × Bulk)) (hne : [] ∉ m.map Prod.fst)
    (hfits : ∀ k ∈ m.map Prod.fst, k.length < 2 ^ 32) :
    HoldKeys defaultLevelDB_spec defaultBerkeleyDB_spec (m.map Prod.fst).toFinset
      (mapOfEntries m) { noOverwrite := false, dbm := m }
      { noOverwrite := false, dbm := m } where
  notEmpty := by rwa [List.mem_toFinset]
  fits k hk := hfits k (List.mem_toFinset.1 hk)
  map k := by
    rw [List.mem_toFinset, ← OrderedMap.lookup_isSome_iff vectorLess m k,
      ← OrderedMap.lookup_ofEntries vectorLess m k]
    rfl
  levelDB k := by
    rw [List.mem_toFinset]
    exact OrderedMap.lookup_isSome_iff _ m k
  berkeleyDB k := by
    rw [List.mem_toFinset]
    exact OrderedMap.lookup_isSome_iff _ m k

/-- The keys `a`, `bc` and `b`. -/
def asciiKeys : List (Bulk × Bulk) := [([0x61], []), ([0x62, 0x63], []), ([0x62], [])]

theorem vlistKeys_agree_ascii :
    (mapOfEntries asciiKeys).1.vlistKeys [0x61] 3 [] = some [[0x62], [0x62, 0x63]] ∧
      ListSameKeys defaultLevelDB defaultBerkeleyDB.onDbts (mapOfEntries asciiKeys).1
        { noOverwrite := false, dbm := asciiKeys } { noOverwrite := false, dbm := asciiKeys }
        [0x61] 3 := by
  refine ⟨by decide, ?_⟩
  have hholds := holdKeys_ofEntries asciiKeys (by decide) (by decide)
  refine (vlistKeys_agree_iff hholds [0x61]).2 ⟨by decide, ?_⟩ 3 (by decide)
  exact callbackAgrees_of_null rfl hholds.notEmpty (by decide)

/-- The keys `0x01` and `0x80`; the second is negative as a `char`. -/
def mixedSigns : List (Bulk × Bulk) := [([0x01], []), ([0x80], [])]

theorem vlistKeys_differ_mixedSigns :
    HoldKeys defaultLevelDB_spec defaultBerkeleyDB_spec
        (mixedSigns.map Prod.fst).toFinset (mapOfEntries mixedSigns)
        { noOverwrite := false, dbm := mixedSigns } { noOverwrite := false, dbm := mixedSigns } ∧
      (mapOfEntries mixedSigns).1.vlistKeys [] 2 [] = some [[0x80], [0x01]] ∧
      LevelDBDataStore.vlistKeys defaultLevelDB { noOverwrite := false, dbm := mixedSigns }
          [] 2 [] = [[0x01], [0x80]] :=
  ⟨holdKeys_ofEntries mixedSigns (by decide) (by decide), by decide, by decide⟩

end Agreement

end Sdskv
