import Sdskv.Datastore.ListKeys
import Sdskv.Datastore.Map.PrefixScan

/-!
# Listing by prefix in the LevelDB and the BerkeleyDB backend

The two backends have a copy each of the loop of the map backend, for the keys and for the
pairs. They compare the first bytes of a key with the prefix and do not look at the length of
the key first, so where the map backend spins on a key that is shorter than the prefix they
read beyond its end.

`vlistKeyvals_vlistKeys_eq_page` is what the listings return when no stored key is shorter
than the prefix: the pages of the interface. It rests on the order of the bytes, in which
the keys with a prefix stand together. The loops with a checked `memcmp` say which
comparisons stay within the key.
-/

namespace Sdskv

/-- `std::memcmp`, which must not be given more bytes than there are. -/
def memcmpChecked (a b : Bulk) (n : ℕ) : Option Int :=
  if n ≤ a.length ∧ n ≤ b.length then some (memcmp a b n) else none

namespace LevelDBDataStore

variable {δ : Type*}

/-- `vlist_keyvals`. -/
def vlistKeyvals (db : LevelDBIterators δ) (s : LevelDBDataStore δ) (start : Bulk)
    (count : ℕ) (keyPrefix : Bulk) : List (Bulk × Bulk) :=
  scanLoop (fun p => p) count keyPrefix [] (s.scanFrom db start)

/-- The loop with a checked comparison. -/
def checkedLoop {α : Type*} (push : Bulk × Bulk → α) (count : ℕ) (keyPrefix : Bulk) :
    List α → List (Bulk × Bulk) → Option (List α)
  | result, [] => some result
  | result, p :: it =>
      if result.length < count then
        match memcmpChecked keyPrefix p.1 keyPrefix.length with
        | none => none
        | some c =>
            if c = 0 then checkedLoop push count keyPrefix (result ++ [push p]) it
            else if c < 0 then some result
            else checkedLoop push count keyPrefix result it
      else some result

/-- `vlist_keys` with a checked comparison. -/
def vlistKeysChecked (db : LevelDBIterators δ) (s : LevelDBDataStore δ) (start : Bulk)
    (count : ℕ) (keyPrefix : Bulk) : Option (List Bulk) :=
  checkedLoop Prod.fst count keyPrefix [] (s.scanFrom db start)

/-- `vlist_keyvals` with a checked comparison. -/
def vlistKeyvalsChecked (db : LevelDBIterators δ) (s : LevelDBDataStore δ) (start : Bulk)
    (count : ℕ) (keyPrefix : Bulk) : Option (List (Bulk × Bulk)) :=
  checkedLoop (fun p => p) count keyPrefix [] (s.scanFrom db start)

end LevelDBDataStore

namespace BerkeleyDBDataStore

variable {δ : Type*}

/-- `vlist_keyvals`. -/
def vlistKeyvals (db : BerkeleyDbCursors δ) (s : BerkeleyDBDataStore δ) (start : Bulk)
    (count : ℕ) (keyPrefix : Bulk) : List (Bulk × Bulk) :=
  scan (fun p => p) count keyPrefix start (s.cursorFrom db start)

/-- The loop with a checked comparison. -/
def checkedLoop {α : Type*} (push : Bulk × Bulk → α) (count : ℕ) (keyPrefix : Bulk) :
    List α → Int → List (Bulk × Bulk) → Option (List α)
  | result, _, [] => some result
  | result, c, p :: it =>
      if result.length < count ∧ c ≥ 0 then
        match memcmpChecked keyPrefix p.1 keyPrefix.length with
        | none => none
        | some c' =>
            checkedLoop push count keyPrefix (if c' = 0 then result ++ [push p] else result) c' it
      else some result

/-- A listing with a checked comparison. -/
def checkedScan {α : Type*} (push : Bulk × Bulk → α) (count : ℕ) (keyPrefix start : Bulk) :
    List (Bulk × Bulk) → Option (List α)
  | [] => some []
  | p :: it =>
      if p.1 ≠ start then
        match memcmpChecked keyPrefix p.1 keyPrefix.length with
        | none => none
        | some c => checkedLoop push count keyPrefix (if c = 0 then [push p] else []) c it
      else checkedLoop push count keyPrefix [] 0 it

/-- `vlist_keys` with a checked comparison. -/
def vlistKeysChecked (db : BerkeleyDbCursors δ) (s : BerkeleyDBDataStore δ) (start : Bulk)
    (count : ℕ) (keyPrefix : Bulk) : Option (List Bulk) :=
  checkedScan Prod.fst count keyPrefix start (s.cursorFrom db start)

/-- `vlist_keyvals` with a checked comparison. -/
def vlistKeyvalsChecked (db : BerkeleyDbCursors δ) (s : BerkeleyDBDataStore δ) (start : Bulk)
    (count : ℕ) (keyPrefix : Bulk) : Option (List (Bulk × Bulk)) :=
  checkedScan (fun p => p) count keyPrefix start (s.cursorFrom db start)

end BerkeleyDBDataStore

section Order

/-- In the order of the bytes, what comes before a key with the prefix does not exceed the
prefix. -/
theorem not_exceeds_of_stringLess {keyPrefix key key' : Bulk} (hless : stringLess key' key)
    (hbegins : keyPrefix <+: key) : ¬ Exceeds keyPrefix key' := by
  rintro ⟨hlong, hexceeds⟩
  induction keyPrefix generalizing key key' with
  | nil => simp [stringLess] at hexceeds
  | cons a keyPrefix ih =>
      obtain ⟨rest, rfl⟩ := hbegins
      cases key' with
      | nil => simp at hlong
      | cons b key' =>
          rw [stringLess, List.cons_append, List.cons_lex_cons_iff, ← stringLess] at hless
          rw [List.length_cons, List.take_succ_cons, stringLess, List.cons_lex_cons_iff,
            ← stringLess] at hexceeds
          have hasymm : unsignedCharLess a b → ¬ unsignedCharLess b a := asymm_of unsignedCharLess
          have hirrefl : ¬ unsignedCharLess a a := irrefl_of unsignedCharLess a
          rcases hless with hba | ⟨rfl, hless⟩
          · rcases hexceeds with hab | ⟨rfl, -⟩
            · exact hasymm hab hba
            · exact hirrefl hba
          · rcases hexceeds with hab | ⟨-, hexceeds⟩
            · exact hirrefl hab
            · exact ih hless ⟨rest, rfl⟩ (by simpa using hlong) hexceeds

end Order

section Comparison

variable {keyPrefix key : Bulk}

theorem memcmpChecked_of_short (h : key.length < keyPrefix.length) :
    memcmpChecked keyPrefix key keyPrefix.length = none :=
  if_neg fun hle => Nat.not_le.2 h hle.2

theorem memcmpChecked_of_le (h : keyPrefix.length ≤ key.length) :
    memcmpChecked keyPrefix key keyPrefix.length =
      some (memcmp keyPrefix key keyPrefix.length) :=
  if_pos ⟨le_rfl, h⟩

theorem memcmp_of_memcmpChecked {c : Int}
    (h : memcmpChecked keyPrefix key keyPrefix.length = some c) :
    memcmp keyPrefix key keyPrefix.length = c := by
  rw [memcmpChecked] at h
  split_ifs at h
  exact Option.some.inj h

end Comparison

namespace LevelDBDataStore

variable {α : Type*} {push : Bulk × Bulk → α} {count : ℕ} {keyPrefix : Bulk} {result : List α}
  {p : Bulk × Bulk} {it : List (Bulk × Bulk)}

section Iterations

theorem checkedLoop_full (h : ¬ result.length < count) :
    checkedLoop push count keyPrefix result (p :: it) = some result := by
  rw [checkedLoop, if_neg h]

variable (hcount : result.length < count)
include hcount

theorem checkedLoop_short (h : p.1.length < keyPrefix.length) :
    checkedLoop push count keyPrefix result (p :: it) = none := by
  rw [checkedLoop, if_pos hcount, memcmpChecked_of_short h]

theorem checkedLoop_isPrefix (h : keyPrefix <+: p.1) :
    checkedLoop push count keyPrefix result (p :: it) =
      checkedLoop push count keyPrefix (result ++ [push p]) it := by
  have hzero := (memcmp_eq_zero_iff_isPrefix h.length_le).2 h
  simp [checkedLoop, hcount, memcmpChecked_of_le h.length_le, hzero]

theorem checkedLoop_exceeds (h : Exceeds keyPrefix p.1) :
    checkedLoop push count keyPrefix result (p :: it) = some result := by
  have hneg := (memcmp_neg_iff_exceeds h.1).2 h
  simp [checkedLoop, hcount, memcmpChecked_of_le h.1, hneg, hneg.ne]

theorem checkedLoop_skip (hlong : keyPrefix.length ≤ p.1.length) (hbegins : ¬ keyPrefix <+: p.1)
    (hexceeds : ¬ Exceeds keyPrefix p.1) :
    checkedLoop push count keyPrefix result (p :: it) =
      checkedLoop push count keyPrefix result it := by
  have hzero := mt (memcmp_eq_zero_iff_isPrefix hlong).1 hbegins
  have hneg := mt (memcmp_neg_iff_exceeds hlong).1 hexceeds
  simp [checkedLoop, hcount, memcmpChecked_of_le hlong, hzero, hneg]

end Iterations

/-- Every comparison of the loop stays within its key exactly when no key that is shorter
than the prefix is reached. -/
theorem checkedLoop_isSome_iff :
    (checkedLoop push count keyPrefix result it).isSome ↔
      MapDataStore.ShortKeysUnreached count keyPrefix result.length it := by
  induction it generalizing result with
  | nil =>
      refine iff_of_true rfl ?_
      intro before p after h
      simp at h
  | cons p it ih =>
      by_cases hcount : result.length < count
      · rw [MapDataStore.shortKeysUnreached_cons]
        by_cases hshort : p.1.length < keyPrefix.length
        · rw [checkedLoop_short hcount hshort]
          refine iff_of_false (by simp) ?_
          rintro ⟨hfound, -⟩
          exact absurd (hfound hshort) (Nat.not_le.2 hcount)
        · rw [and_iff_right fun h => absurd h hshort]
          by_cases hbegins : keyPrefix <+: p.1
          · rw [checkedLoop_isPrefix hcount hbegins, ih]
            simp [hbegins, not_exceeds_of_isPrefix hbegins]
          · by_cases hexceeds : Exceeds keyPrefix p.1
            · rw [checkedLoop_exceeds hcount hexceeds]
              exact iff_of_true rfl (Or.inl hexceeds)
            · rw [checkedLoop_skip hcount (Nat.not_lt.1 hshort) hbegins hexceeds, ih]
              simp [hbegins, hexceeds]
      · rw [checkedLoop_full hcount]
        exact iff_of_true rfl
          (MapDataStore.shortKeysUnreached_of_le (Nat.le_of_not_lt hcount) keyPrefix _)

/-- In the order of the bytes, the loop finds the first keys with the prefix. -/
theorem checkedLoop_of_sorted (hsorted : OrderedMap.Sorted stringLess it)
    (hlong : ∀ p ∈ it, keyPrefix.length ≤ p.1.length) :
    checkedLoop push count keyPrefix result it =
      some (result ++ ((it.filter fun p => decide (keyPrefix <+: p.1)).take
        (count - result.length)).map push) := by
  induction it generalizing result with
  | nil => simp [checkedLoop]
  | cons p it ih =>
      obtain ⟨hbefore, hsorted⟩ := List.pairwise_cons.1 hsorted
      obtain ⟨hp, hlong⟩ := List.forall_mem_cons.1 hlong
      by_cases hcount : result.length < count
      · by_cases hbegins : keyPrefix <+: p.1
        · have hsub : count - result.length = count - (result ++ [push p]).length + 1 := by
            simp
            omega
          rw [checkedLoop_isPrefix hcount hbegins, ih hsorted hlong, hsub,
            List.filter_cons_of_pos (by simpa using hbegins), List.take_succ_cons,
            List.map_cons, List.append_assoc, List.singleton_append]
        · rw [List.filter_cons_of_neg (by simpa using hbegins)]
          by_cases hexceeds : Exceeds keyPrefix p.1
          · have hnone : (it.filter fun p => decide (keyPrefix <+: p.1)) = [] := by
              rw [List.filter_eq_nil_iff]
              intro q hq hmatch
              exact not_exceeds_of_stringLess (hbefore q hq) (by simpa using hmatch) hexceeds
            rw [checkedLoop_exceeds hcount hexceeds, hnone]
            simp
          · rw [checkedLoop_skip hcount hp hbegins hexceeds, ih hsorted hlong]
      · have hzero : count - result.length = 0 := by omega
        rw [checkedLoop_full hcount, hzero]
        simp

/-- A loop whose comparisons stay within the keys does what the loop of the source does. -/
theorem scanLoop_of_checked {result' : List α}
    (h : checkedLoop push count keyPrefix result it = some result') :
    scanLoop push count keyPrefix result it = result' := by
  induction it generalizing result with
  | nil => exact Option.some.inj h
  | cons p it ih =>
      rw [checkedLoop] at h
      rw [scanLoop]
      split_ifs at h ⊢ with hcount
      · cases hcmp : memcmpChecked keyPrefix p.1 keyPrefix.length with
        | none =>
            rw [hcmp] at h
            cases h
        | some c =>
            simp only [hcmp] at h
            simp only [memcmp_of_memcmpChecked hcmp]
            split_ifs at h ⊢
            · exact ih h
            · exact Option.some.inj h
            · exact ih h
      · exact Option.some.inj h

end LevelDBDataStore

namespace BerkeleyDBDataStore

variable {α : Type*} {push : Bulk × Bulk → α} {count : ℕ} {keyPrefix start : Bulk}
  {it : List (Bulk × Bulk)}

/-- The checked loop is the one of the LevelDB backend, as long as the last key was not
beyond the prefix. -/
theorem checkedLoop_eq (result : List α) (c : Int) (it : List (Bulk × Bulk)) :
    checkedLoop push count keyPrefix result c it =
      if c < 0 then some result
      else LevelDBDataStore.checkedLoop push count keyPrefix result it := by
  induction it generalizing result c with
  | nil => simp [checkedLoop, LevelDBDataStore.checkedLoop]
  | cons p it ih =>
      by_cases hc : c < 0
      · have hstop : ¬ (result.length < count ∧ c ≥ 0) := fun h => absurd hc (not_lt.2 h.2)
        rw [checkedLoop, if_neg hstop, if_pos hc]
      · by_cases hcount : result.length < count
        · rw [checkedLoop, if_pos ⟨hcount, not_lt.1 hc⟩, if_neg hc,
            LevelDBDataStore.checkedLoop, if_pos hcount]
          cases memcmpChecked keyPrefix p.1 keyPrefix.length with
          | none => rfl
          | some c' =>
              simp only [ih]
              by_cases hzero : c' = 0
              · simp [hzero]
              · simp [hzero]
        · have hstop : ¬ (result.length < count ∧ c ≥ 0) := fun h => hcount h.1
          rw [checkedLoop, if_neg hstop, if_neg hc, LevelDBDataStore.checkedLoop,
            if_neg hcount]

/-- With a count that is not 0, a listing is a loop over the entries after the start key. -/
theorem checkedScan_eq (hcount : 1 ≤ count) (entries : List (Bulk × Bulk)) :
    checkedScan push count keyPrefix start entries =
      LevelDBDataStore.checkedLoop push count keyPrefix []
        (OrderedMap.skipKey start entries) := by
  cases entries with
  | nil => rfl
  | cons p it =>
      rw [checkedScan, OrderedMap.skipKey]
      by_cases hstart : p.1 = start
      · rw [if_neg (not_not.2 hstart), if_pos hstart, checkedLoop_eq, if_neg (lt_irrefl 0)]
      · rw [if_pos hstart, if_neg hstart, LevelDBDataStore.checkedLoop,
          if_pos (show ([] : List α).length < count from hcount)]
        cases memcmpChecked keyPrefix p.1 keyPrefix.length with
        | none => rfl
        | some c =>
            simp only [checkedLoop_eq]
            by_cases hzero : c = 0
            · simp [hzero]
            · simp [hzero]

/-- The first position of the cursor is compared before the count is looked at. -/
theorem checkedScan_isSome_iff (entries : List (Bulk × Bulk)) :
    (checkedScan push count keyPrefix start entries).isSome ↔
      (∀ p, entries.head? = some p → p.1 ≠ start → keyPrefix.length ≤ p.1.length) ∧
        MapDataStore.ShortKeysUnreached count keyPrefix 0 (OrderedMap.skipKey start entries) := by
  by_cases hcount : 1 ≤ count
  · rw [checkedScan_eq hcount, LevelDBDataStore.checkedLoop_isSome_iff]
    refine ⟨fun h => ⟨?_, h⟩, fun h => h.2⟩
    intro p hp hstart
    by_contra hshort
    cases entries with
    | nil => cases hp
    | cons q it =>
        cases hp
        rw [OrderedMap.skipKey, if_neg hstart] at h
        obtain ⟨q, hq, -⟩ | hfound := h [] p it rfl (Nat.not_le.1 hshort)
        · cases hq
        · simp only [List.filter_nil, List.length_nil] at hfound
          omega
  · obtain rfl : count = 0 := by omega
    rw [and_iff_left (MapDataStore.shortKeysUnreached_of_le le_rfl keyPrefix _)]
    have hends : ∀ (result : List α) (c : Int) (it : List (Bulk × Bulk)),
        (checkedLoop push 0 keyPrefix result c it).isSome := by
      intro result c it
      rw [checkedLoop_eq]
      split_ifs
      · rfl
      · exact LevelDBDataStore.checkedLoop_isSome_iff.2
          (MapDataStore.shortKeysUnreached_of_le (Nat.zero_le _) keyPrefix it)
    cases entries with
    | nil => exact iff_of_true rfl fun p hp => by cases hp
    | cons p it =>
        simp only [checkedScan, List.head?_cons, Option.some_inj, forall_eq']
        by_cases hstart : p.1 = start
        · simpa [hstart] using hends [] 0 it
        · by_cases hshort : p.1.length < keyPrefix.length
          · simp [hstart, memcmpChecked_of_short hshort, hshort]
          · have hlong := Nat.not_lt.1 hshort
            simpa [hstart, memcmpChecked_of_le hlong, hlong] using hends _ _ it

/-- A listing whose comparisons stay within the keys is the listing of the source. -/
theorem scanLoop_of_checked {result result' : List α} {c : Int}
    (h : checkedLoop push count keyPrefix result c it = some result') :
    scanLoop push count keyPrefix result c it = result' := by
  induction it generalizing result c with
  | nil => exact Option.some.inj h
  | cons p it ih =>
      rw [checkedLoop] at h
      rw [scanLoop]
      split_ifs at h ⊢ with hcount
      · cases hcmp : memcmpChecked keyPrefix p.1 keyPrefix.length with
        | none =>
            rw [hcmp] at h
            cases h
        | some c' =>
            rw [hcmp] at h
            rw [memcmp_of_memcmpChecked hcmp]
            exact ih h
      · exact Option.some.inj h

theorem scan_of_checked {entries : List (Bulk × Bulk)} {result' : List α}
    (h : checkedScan push count keyPrefix start entries = some result') :
    scan push count keyPrefix start entries = result' := by
  cases entries with
  | nil => exact Option.some.inj h
  | cons p it =>
      rw [checkedScan] at h
      rw [scan]
      split_ifs at h ⊢ with hstart
      · cases hcmp : memcmpChecked keyPrefix p.1 keyPrefix.length with
        | none =>
            rw [hcmp] at h
            cases h
        | some c =>
            rw [hcmp] at h
            rw [memcmp_of_memcmpChecked hcmp]
            exact scanLoop_of_checked h
      · exact scanLoop_of_checked h

end BerkeleyDBDataStore

section Listings

variable {δ ε : Type*} {level : LevelDBIterators δ} {bdb : BerkeleyDbCursors ε}
  {viewL : δ → Bulk → Option Bulk} {viewB : ε → Bulk → Option Bulk}

theorem levelDB_scanFrom_eq (I : level.toIterators.Spec stringLess viewL)
    (t : LevelDBDataStore δ) (start : Bulk) :
    t.scanFrom level start =
      (level.seekToFirst t.dbm).filter fun p => decide (start = [] ∨ stringLess start p.1) := by
  by_cases hstart : start = []
  · simp [LevelDBDataStore.scanFrom, hstart]
  · have hpos : start.length > 0 := List.length_pos_iff.2 hstart
    simp only [LevelDBDataStore.scanFrom, if_pos hpos, exactMatch_iff, I.seek_eq, hstart,
      false_or]
    rw [OrderedMap.filter_after_eq stringLess (I.sorted t.dbm) start]
    cases (level.seekToFirst t.dbm).filter fun p : Bulk × Bulk =>
      decide (¬ stringLess p.1 start) with
    | nil => rfl
    | cons p it => rfl

/-- The entries that a cursor listing can give: it takes an empty key for the start key. -/
def berkeleyDBListed (bdb : BerkeleyDbCursors ε) (u : BerkeleyDBDataStore ε) :
    List (Bulk × Bulk) :=
  (bdb.seekToFirst u.dbm).filter fun p => decide (p.1 ≠ [])

theorem ne_nil_of_stringLess {a b : Bulk} (h : stringLess a b) : b ≠ [] := by
  rintro rfl
  cases h

/-- Only the first entry can have the empty key. -/
theorem filter_ne_nil_eq_skipKey {m : List (Bulk × Bulk)}
    (hsorted : OrderedMap.Sorted stringLess m) :
    m.filter (fun p => decide (p.1 ≠ [])) = OrderedMap.skipKey [] m := by
  cases m with
  | nil => rfl
  | cons p it =>
      have hrest : it.filter (fun p => decide (p.1 ≠ [])) = it := by
        rw [List.filter_eq_self]
        intro q hq
        exact decide_eq_true (ne_nil_of_stringLess (List.rel_of_pairwise_cons hsorted hq))
      rw [OrderedMap.skipKey]
      by_cases hp : p.1 = []
      · rw [List.filter_cons_of_neg (by simp [hp]), hrest, if_pos hp]
      · rw [List.filter_cons_of_pos (by simp [hp]), hrest, if_neg hp]

theorem berkeleyDB_cursorFrom_eq (I : bdb.toIterators.Spec stringLess viewB)
    (u : BerkeleyDBDataStore ε) (start : Bulk) :
    OrderedMap.skipKey start (u.cursorFrom bdb start) =
      (berkeleyDBListed bdb u).filter fun p => decide (start = [] ∨ stringLess start p.1) := by
  by_cases hstart : start = []
  · subst hstart
    rw [berkeleyDBListed, filter_ne_nil_eq_skipKey (I.sorted u.dbm)]
    simp [BerkeleyDBDataStore.cursorFrom]
  · have hpos : start.length > 0 := List.length_pos_iff.2 hstart
    rw [BerkeleyDBDataStore.cursorFrom, if_pos hpos, I.seek_eq, berkeleyDBListed,
      List.filter_filter]
    simp only [hstart, false_or]
    rw [← OrderedMap.filter_after_eq stringLess (I.sorted u.dbm) start]
    apply List.filter_congr
    intro p _
    by_cases hless : stringLess start p.1
    · simp [hless, ne_nil_of_stringLess hless]
    · simp [hless]

/-- What a loop finds among the entries after the start key is a page of the interface. -/
theorem checkedLoop_eq_page {α : Type*} {push : Bulk × Bulk → α} {m : List (Bulk × Bulk)}
    (hsorted : OrderedMap.Sorted stringLess m) (start : Bulk) (count : ℕ) {keyPrefix : Bulk}
    (hlong : ∀ p ∈ m, keyPrefix.length ≤ p.1.length) :
    LevelDBDataStore.checkedLoop push count keyPrefix []
        (m.filter fun p => decide (start = [] ∨ stringLess start p.1)) =
      some ((page stringLess m start count keyPrefix).map push) := by
  have hsub : (m.filter fun p => decide (start = [] ∨ stringLess start p.1)).Sublist m :=
    List.filter_sublist
  rw [LevelDBDataStore.checkedLoop_of_sorted (hsorted.sublist hsub)
      fun p hp => hlong p (hsub.subset hp),
    page_eq_filter_filter, List.nil_append, List.length_nil, Nat.sub_zero]

theorem levelDB_scanLoop_eq_page (I : level.toIterators.Spec stringLess viewL)
    (t : LevelDBDataStore δ) (start : Bulk) (count : ℕ) {keyPrefix : Bulk}
    (hlong : ∀ p ∈ level.seekToFirst t.dbm, keyPrefix.length ≤ p.1.length) {α : Type}
    (push : Bulk × Bulk → α) :
    LevelDBDataStore.scanLoop push count keyPrefix [] (t.scanFrom level start) =
      (page stringLess (level.seekToFirst t.dbm) start count keyPrefix).map push := by
  apply LevelDBDataStore.scanLoop_of_checked
  rw [levelDB_scanFrom_eq I]
  exact checkedLoop_eq_page (I.sorted t.dbm) start count hlong

theorem berkeleyDB_scan_eq_page (I : bdb.toIterators.Spec stringLess viewB)
    (u : BerkeleyDBDataStore ε) (start : Bulk) {count : ℕ} (hcount : 1 ≤ count)
    {keyPrefix : Bulk} (hlong : ∀ p ∈ berkeleyDBListed bdb u, keyPrefix.length ≤ p.1.length)
    {α : Type} (push : Bulk × Bulk → α) :
    BerkeleyDBDataStore.scan push count keyPrefix start (u.cursorFrom bdb start) =
      (page stringLess (berkeleyDBListed bdb u) start count keyPrefix).map push := by
  apply BerkeleyDBDataStore.scan_of_checked
  rw [BerkeleyDBDataStore.checkedScan_eq hcount, berkeleyDB_cursorFrom_eq I u]
  exact checkedLoop_eq_page ((I.sorted u.dbm).sublist List.filter_sublist) start count hlong

/-- The listings of the two backends are the pages of the interface. -/
theorem vlistKeyvals_vlistKeys_eq_page (IL : level.toIterators.Spec stringLess viewL)
    (IB : bdb.toIterators.Spec stringLess viewB) (t : LevelDBDataStore δ)
    (u : BerkeleyDBDataStore ε) (hne : ∀ p ∈ bdb.seekToFirst u.dbm, p.1 ≠ []) (start : Bulk)
    {count : ℕ} (hcount : 1 ≤ count) {keyPrefix : Bulk}
    (hlongL : ∀ p ∈ level.seekToFirst t.dbm, keyPrefix.length ≤ p.1.length)
    (hlongB : ∀ p ∈ bdb.seekToFirst u.dbm, keyPrefix.length ≤ p.1.length) :
    (t.vlistKeyvals level start count keyPrefix =
          page stringLess (level.seekToFirst t.dbm) start count keyPrefix ∧
        t.vlistKeys level start count keyPrefix =
          (page stringLess (level.seekToFirst t.dbm) start count keyPrefix).map Prod.fst) ∧
      u.vlistKeyvals bdb start count keyPrefix =
          page stringLess (bdb.seekToFirst u.dbm) start count keyPrefix ∧
        u.vlistKeys bdb start count keyPrefix =
          (page stringLess (bdb.seekToFirst u.dbm) start count keyPrefix).map Prod.fst := by
  have hlisted : berkeleyDBListed bdb u = bdb.seekToFirst u.dbm := by
    rw [berkeleyDBListed, List.filter_eq_self]
    intro p hp
    exact decide_eq_true (hne p hp)
  rw [← hlisted] at hlongB ⊢
  refine ⟨⟨?_, ?_⟩, ?_, ?_⟩
  · exact (levelDB_scanLoop_eq_page IL t start count hlongL fun p => p).trans (List.map_id' _)
  · rw [LevelDBDataStore.vlistKeys, levelDB_scanLoop_eq_page IL t start count hlongL]
  · exact (berkeleyDB_scan_eq_page IB u start hcount hlongB fun p => p).trans (List.map_id' _)
  · rw [BerkeleyDBDataStore.vlistKeys, berkeleyDB_scan_eq_page IB u start hcount hlongB]

/-- Three keys, two of which begin with `a`. -/
def prefixKeys : List (Bulk × Bulk) :=
  [([0x61, 0x31], [1]), ([0x61, 0xff], [2]), ([0x62, 0x31], [3])]

theorem vlistKeyvals_vlistKeys_prefixKeys :
    (LevelDBDataStore.vlistKeyvals (orderedLevelDBIterators stringLess)
          { noOverwrite := false, dbm := prefixKeys } [0x61, 0x31] 5 [0x61] =
        [([0x61, 0xff], [2])] ∧
      LevelDBDataStore.vlistKeys (orderedLevelDBIterators stringLess)
          { noOverwrite := false, dbm := prefixKeys } [0x61, 0x31] 5 [0x61] =
        [[0x61, 0xff]]) ∧
    BerkeleyDBDataStore.vlistKeyvals (orderedBerkeleyDbCursors stringLess)
          { noOverwrite := false, dbm := prefixKeys } [0x61, 0x31] 5 [0x61] =
        [([0x61, 0xff], [2])] ∧
      BerkeleyDBDataStore.vlistKeys (orderedBerkeleyDbCursors stringLess)
          { noOverwrite := false, dbm := prefixKeys } [0x61, 0x31] 5 [0x61] =
        [[0x61, 0xff]] :=
  vlistKeyvals_vlistKeys_eq_page (orderedLevelDBIterators_spec stringLess).iterates
    (orderedBerkeleyDbCursors_spec stringLess).iterates _ _ (by decide) [0x61, 0x31]
    (by decide) (by decide) (by decide)

/-- The comparisons of the listings stay within the keys exactly when the scan reaches no
key that is shorter than the prefix; a cursor compares its first key also with a count
of 0. -/
theorem vlistChecked_isSome_iff (level : LevelDBIterators δ) (bdb : BerkeleyDbCursors ε)
    (t : LevelDBDataStore δ) (u : BerkeleyDBDataStore ε) (start : Bulk) (count : ℕ)
    (keyPrefix : Bulk) :
    ((t.vlistKeysChecked level start count keyPrefix).isSome ∧
        (t.vlistKeyvalsChecked level start count keyPrefix).isSome ↔
      MapDataStore.ShortKeysUnreached count keyPrefix 0 (t.scanFrom level start)) ∧
    ((u.vlistKeysChecked bdb start count keyPrefix).isSome ∧
        (u.vlistKeyvalsChecked bdb start count keyPrefix).isSome ↔
      (∀ p, (u.cursorFrom bdb start).head? = some p → p.1 ≠ start →
          keyPrefix.length ≤ p.1.length) ∧
        MapDataStore.ShortKeysUnreached count keyPrefix 0
          (OrderedMap.skipKey start (u.cursorFrom bdb start))) := by
  constructor
  · rw [LevelDBDataStore.vlistKeysChecked, LevelDBDataStore.vlistKeyvalsChecked,
      LevelDBDataStore.checkedLoop_isSome_iff, LevelDBDataStore.checkedLoop_isSome_iff]
    exact and_self_iff
  · rw [BerkeleyDBDataStore.vlistKeysChecked, BerkeleyDBDataStore.vlistKeyvalsChecked,
      BerkeleyDBDataStore.checkedScan_isSome_iff, BerkeleyDBDataStore.checkedScan_isSome_iff]
    exact and_self_iff

/-- A key of one byte and a prefix of two: the comparison is given two bytes of the key. -/
theorem vlistChecked_shortKey :
    LevelDBDataStore.vlistKeysChecked (orderedLevelDBIterators stringLess)
        { noOverwrite := false, dbm := [([1], [])] } [] 5 [1, 2] = none ∧
      LevelDBDataStore.vlistKeyvalsChecked (orderedLevelDBIterators stringLess)
        { noOverwrite := false, dbm := [([1], [])] } [] 5 [1, 2] = none ∧
      BerkeleyDBDataStore.vlistKeysChecked (orderedBerkeleyDbCursors stringLess)
        { noOverwrite := false, dbm := [([1], [])] } [] 5 [1, 2] = none ∧
      BerkeleyDBDataStore.vlistKeyvalsChecked (orderedBerkeleyDbCursors stringLess)
        { noOverwrite := false, dbm := [([1], [])] } [] 5 [1, 2] = none := by
  decide

end Listings

end Sdskv
