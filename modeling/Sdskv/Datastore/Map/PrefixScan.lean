import Sdskv.Datastore.Map.Listing
import Sdskv.Transition.Run

/-!
# Listing by prefix on the map backend

The loops of `vlist_keys` and `vlist_keyvals` walk over the entries after the start key
under the read lock. An iteration that meets a key shorter than the prefix changes
nothing, so the loop spins on it. An iteration that meets a key whose first bytes exceed
the prefix leaves the loop, which loses the matching keys behind it when the order of the
store is not that of the bytes.

`scanStep` is one iteration of the loop and `Returns` says that the call ends and gives
the lock back. `returns_iff` and `vlistKeyvals_eq_page_iff` say for which entries the call
returns, and for which it lists what the interface specifies.
-/

namespace Sdskv

open Transition

section Bytes

/-- The first bytes of the key exceed the prefix. -/
def Exceeds (keyPrefix key : Bulk) : Prop :=
  keyPrefix.length ≤ key.length ∧ stringLess keyPrefix (key.take keyPrefix.length)

instance (keyPrefix key : Bulk) : Decidable (Exceeds keyPrefix key) :=
  inferInstanceAs (Decidable (_ ∧ _))

theorem memcmp_eq_zero_iff_isPrefix {keyPrefix key : Bulk}
    (h : keyPrefix.length ≤ key.length) :
    memcmp keyPrefix key keyPrefix.length = 0 ↔ keyPrefix <+: key := by
  induction keyPrefix generalizing key with
  | nil => simp [memcmp]
  | cons a keyPrefix ih =>
      cases key with
      | nil => simp at h
      | cons b key =>
          rw [List.length_cons, memcmp, List.cons_prefix_cons, ← ih (by simpa using h)]
          by_cases hab : a = b
          · simp [hab]
          · by_cases hlt : unsignedCharLess a b <;> simp [hab, hlt]

theorem memcmp_neg_iff_exceeds {keyPrefix key : Bulk} (h : keyPrefix.length ≤ key.length) :
    memcmp keyPrefix key keyPrefix.length < 0 ↔ Exceeds keyPrefix key := by
  rw [Exceeds, and_iff_right h]
  induction keyPrefix generalizing key with
  | nil => simp [memcmp, stringLess]
  | cons a keyPrefix ih =>
      cases key with
      | nil => simp at h
      | cons b key =>
          rw [List.length_cons, memcmp, List.take_succ_cons, stringLess,
            List.cons_lex_cons_iff, ← stringLess, ← ih (by simpa using h)]
          by_cases hab : a = b
          · have hirrefl : ¬ unsignedCharLess b b := irrefl_of unsignedCharLess b
            simp [hab, hirrefl]
          · by_cases hlt : unsignedCharLess a b <;> simp [hab, hlt]

theorem not_exceeds_of_isPrefix {keyPrefix key : Bulk} (h : keyPrefix <+: key) :
    ¬ Exceeds keyPrefix key := by
  rintro ⟨-, hless⟩
  rw [← List.prefix_iff_eq_take.1 h] at hless
  exact irrefl_of stringLess keyPrefix hless

end Bytes

namespace MapDataStore

/-- The entries from the first position of the iterator on. -/
def scanFrom (s : MapDataStore) (startKey : Bulk) : List (Bulk × Bulk) :=
  if startKey.length > 0 then OrderedMap.upperBound (keycmp s.less) s.map startKey else s.map

/-- The local variables of a listing, and whether it holds the read lock. -/
structure Scanning (α : Type*) where
  result : List α
  it : List (Bulk × Bulk)
  readLocked : Bool

section Loop

variable {α : Type*} (push : Bulk × Bulk → α) (count : ℕ) (keyPrefix : Bulk)

/-- One iteration of the loop, or the unlock after it; `push` is what is added to the
result. -/
def scanStep (s : Scanning α) (_ : Unit) : Option (Scanning α) :=
  if ¬ s.readLocked then none
  else
    match s.it with
    | [] => some { s with readLocked := false }
    | p :: it =>
        if s.result.length < count then
          -- `continue` without `it++`
          if keyPrefix.length > p.1.length then some s
          else
            let c := memcmp keyPrefix p.1 keyPrefix.length
            if c = 0 then some { s with result := s.result ++ [push p], it := it }
            else if c < 0 then some { s with readLocked := false }
            else some { s with it := it }
        else some { s with readLocked := false }

/-- One iteration of `vlist_keys`. -/
def vlistKeysStep : Scanning Bulk → Unit → Option (Scanning Bulk) :=
  scanStep Prod.fst count keyPrefix

/-- One iteration of `vlist_keyvals`. -/
def vlistKeyvalsStep : Scanning (Bulk × Bulk) → Unit → Option (Scanning (Bulk × Bulk)) :=
  scanStep (fun p => p) count keyPrefix

end Loop

/-- The state of a listing once the lock is taken. -/
def startScan (α : Type*) (s : MapDataStore) (startKey : Bulk) : Scanning α :=
  { result := [], it := s.scanFrom startKey, readLocked := true }

/-- The call ends, and gives the read lock back. -/
def Returns {α : Type*} (step : Scanning α → Unit → Option (Scanning α)) (s : Scanning α) :
    Prop :=
  ∃ t, Reaches step () s t ∧ t.readLocked = false

/-- In front of every key that is shorter than the prefix stands a key whose first bytes
exceed the prefix, or as many keys with the prefix as the listing still has to find. -/
def ShortKeysUnreached (count : ℕ) (keyPrefix : Bulk) (found : ℕ)
    (it : List (Bulk × Bulk)) : Prop :=
  ∀ before p after, it = before ++ p :: after → p.1.length < keyPrefix.length →
    (∃ q ∈ before, Exceeds keyPrefix q.1) ∨
      count ≤ found + (before.filter fun q => decide (keyPrefix <+: q.1)).length

section Termination

theorem returns_of_unlocked {α : Type*} (step : Scanning α → Unit → Option (Scanning α))
    {s : Scanning α} (h : s.readLocked = false) : Returns step s :=
  ⟨s, Reaches.refl step () s, h⟩

theorem returns_iff_of_step {α : Type*} {step : Scanning α → Unit → Option (Scanning α)}
    {s t : Scanning α} (hlocked : s.readLocked = true) (hstep : step s () = some t) :
    Returns step s ↔ Returns step t := by
  constructor
  · rintro ⟨u, hu, hunlocked⟩
    obtain rfl | hu := (Reaches.step_iff hstep).1 hu
    · rw [hlocked] at hunlocked
      cases hunlocked
    · exact ⟨u, hu, hunlocked⟩
  · rintro ⟨u, hu, hunlocked⟩
    exact ⟨u, hu.head hstep, hunlocked⟩

theorem not_returns_of_fixed {α : Type*} {step : Scanning α → Unit → Option (Scanning α)}
    {s : Scanning α} (hlocked : s.readLocked = true) (hstep : step s () = some s) :
    ¬ Returns step s := by
  rintro ⟨u, hu, hunlocked⟩
  rw [Reaches.eq_of_fixed hstep hu, hlocked] at hunlocked
  cases hunlocked

theorem shortKeysUnreached_cons (count : ℕ) (keyPrefix : Bulk) (found : ℕ) (p : Bulk × Bulk)
    (it : List (Bulk × Bulk)) :
    ShortKeysUnreached count keyPrefix found (p :: it) ↔
      (p.1.length < keyPrefix.length → count ≤ found) ∧
        (Exceeds keyPrefix p.1 ∨
          ShortKeysUnreached count keyPrefix (found + if keyPrefix <+: p.1 then 1 else 0)
            it) := by
  constructor
  · intro h
    refine ⟨fun hshort => ?_, ?_⟩
    · simpa using h [] p it rfl hshort
    · by_cases hexceeds : Exceeds keyPrefix p.1
      · exact Or.inl hexceeds
      · right
        intro before q after hit hshort
        obtain ⟨r, hr, hr'⟩ | hfound := h (p :: before) q after (by rw [hit]; rfl) hshort
        · obtain rfl | hr := List.mem_cons.1 hr
          · exact absurd hr' hexceeds
          · exact Or.inl ⟨r, hr, hr'⟩
        · right
          by_cases hmatch : keyPrefix <+: p.1
          · simp only [hmatch, decide_true, List.filter_cons_of_pos, List.length_cons] at hfound
            simp only [hmatch, if_true]
            omega
          · simpa [List.filter_cons, hmatch] using hfound
  · rintro ⟨hhead, htail⟩ before q after hit hshort
    cases before with
    | nil =>
        obtain ⟨rfl, -⟩ := List.cons.inj hit
        exact Or.inr (by simpa using hhead hshort)
    | cons r before =>
        obtain ⟨rfl, rfl⟩ := List.cons.inj hit
        obtain hexceeds | htail := htail
        · exact Or.inl ⟨p, List.mem_cons_self, hexceeds⟩
        · obtain ⟨r, hr, hr'⟩ | hfound := htail before q after rfl hshort
          · exact Or.inl ⟨r, List.mem_cons_of_mem p hr, hr'⟩
          · right
            by_cases hmatch : keyPrefix <+: p.1
            · simp only [hmatch, if_true] at hfound
              simp only [hmatch, decide_true, List.filter_cons_of_pos, List.length_cons]
              omega
            · simpa [List.filter_cons, hmatch] using hfound

section Iterations

variable {α : Type*} {push : Bulk × Bulk → α} {count : ℕ} {keyPrefix : Bulk} {result : List α}
  {p : Bulk × Bulk} {it : List (Bulk × Bulk)}

theorem scanStep_full (h : ¬ result.length < count) :
    scanStep push count keyPrefix { result := result, it := p :: it, readLocked := true } () =
      some { result := result, it := p :: it, readLocked := false } := by
  simp [scanStep, h]

variable (hcount : result.length < count)
include hcount

theorem scanStep_short (h : p.1.length < keyPrefix.length) :
    scanStep push count keyPrefix { result := result, it := p :: it, readLocked := true } () =
      some { result := result, it := p :: it, readLocked := true } := by
  simp [scanStep, hcount, h]

theorem scanStep_isPrefix (h : keyPrefix <+: p.1) :
    scanStep push count keyPrefix { result := result, it := p :: it, readLocked := true } () =
      some { result := result ++ [push p], it := it, readLocked := true } := by
  have hlong : ¬ p.1.length < keyPrefix.length := Nat.not_lt.2 h.length_le
  have hzero := (memcmp_eq_zero_iff_isPrefix h.length_le).2 h
  simp [scanStep, hcount, hlong, hzero]

theorem scanStep_exceeds (h : Exceeds keyPrefix p.1) :
    scanStep push count keyPrefix { result := result, it := p :: it, readLocked := true } () =
      some { result := result, it := p :: it, readLocked := false } := by
  have hlong : ¬ p.1.length < keyPrefix.length := Nat.not_lt.2 h.1
  have hneg := (memcmp_neg_iff_exceeds h.1).2 h
  simp [scanStep, hcount, hlong, hneg, hneg.ne]

theorem scanStep_skip (hlong : ¬ p.1.length < keyPrefix.length) (hbegins : ¬ keyPrefix <+: p.1)
    (hexceeds : ¬ Exceeds keyPrefix p.1) :
    scanStep push count keyPrefix { result := result, it := p :: it, readLocked := true } () =
      some { result := result, it := it, readLocked := true } := by
  have hle := Nat.le_of_not_lt hlong
  have hzero := mt (memcmp_eq_zero_iff_isPrefix hle).1 hbegins
  have hneg := mt (memcmp_neg_iff_exceeds hle).1 hexceeds
  simp [scanStep, hcount, hlong, hzero, hneg]

end Iterations

theorem shortKeysUnreached_of_le {count found : ℕ} (h : count ≤ found) (keyPrefix : Bulk)
    (it : List (Bulk × Bulk)) : ShortKeysUnreached count keyPrefix found it :=
  fun _ _ _ _ _ => Or.inr (h.trans (Nat.le_add_right _ _))

/-- The loop ends exactly when it does not reach a key that is shorter than the prefix. -/
theorem returns_scanStep_iff {α : Type*} (push : Bulk × Bulk → α) (count : ℕ)
    (keyPrefix : Bulk) (result : List α) (it : List (Bulk × Bulk)) :
    Returns (scanStep push count keyPrefix)
        { result := result, it := it, readLocked := true } ↔
      ShortKeysUnreached count keyPrefix result.length it := by
  induction it generalizing result with
  | nil =>
      refine iff_of_true ⟨{ result := result, it := [], readLocked := false }, ?_, rfl⟩ ?_
      · exact (Reaches.refl _ _ _).head rfl
      · intro before p after h
        simp at h
  | cons p it ih =>
      by_cases hcount : result.length < count
      · rw [shortKeysUnreached_cons]
        by_cases hshort : p.1.length < keyPrefix.length
        · refine iff_of_false (not_returns_of_fixed rfl (scanStep_short hcount hshort)) ?_
          rintro ⟨hfound, -⟩
          exact absurd (hfound hshort) (Nat.not_le.2 hcount)
        · rw [and_iff_right fun h => absurd h hshort]
          by_cases hbegins : keyPrefix <+: p.1
          · rw [returns_iff_of_step rfl (scanStep_isPrefix hcount hbegins), ih]
            simp [hbegins, not_exceeds_of_isPrefix hbegins]
          · by_cases hexceeds : Exceeds keyPrefix p.1
            · refine iff_of_true ?_ (Or.inl hexceeds)
              exact (returns_iff_of_step rfl (scanStep_exceeds hcount hexceeds)).2
                (returns_of_unlocked _ rfl)
            · rw [returns_iff_of_step rfl (scanStep_skip hcount hshort hbegins hexceeds), ih]
              simp [hbegins, hexceeds]
      · refine iff_of_true ?_ (shortKeysUnreached_of_le (Nat.le_of_not_lt hcount) keyPrefix _)
        exact (returns_iff_of_step rfl (scanStep_full hcount)).2 (returns_of_unlocked _ rfl)

/-- The calls of `vlist_keys` and `vlist_keyvals` return exactly when no key that is
shorter than the prefix is reached. -/
theorem vlistKeys_vlistKeyvals_returns_iff (s : MapDataStore) (startKey : Bulk) (count : ℕ)
    (keyPrefix : Bulk) :
    (Returns (vlistKeysStep count keyPrefix) (startScan Bulk s startKey) ↔
        ShortKeysUnreached count keyPrefix 0 (s.scanFrom startKey)) ∧
      (Returns (vlistKeyvalsStep count keyPrefix) (startScan (Bulk × Bulk) s startKey) ↔
        ShortKeysUnreached count keyPrefix 0 (s.scanFrom startKey)) :=
  ⟨returns_scanStep_iff Prod.fst count keyPrefix [] _,
    returns_scanStep_iff (fun p => p) count keyPrefix [] _⟩

/-- A key of one byte and a prefix of two. -/
theorem vlistKeys_spins_shortKey :
    ¬ Returns (vlistKeysStep 5 [1, 2]) (startScan Bulk (singleEntry false [1] []).1 []) := by
  have hshort : [(1 : UInt8)].length < [(1 : UInt8), 2].length := by decide
  exact not_returns_of_fixed rfl (scanStep_short (by decide) hshort)

end Termination

section Results

variable {count : ℕ} {keyPrefix : Bulk} {result : List (Bulk × Bulk)} {p : Bulk × Bulk}
  {it : List (Bulk × Bulk)}

theorem vlistKeyvalsLoop_full (h : ¬ result.length < count) :
    vlistKeyvalsLoop count keyPrefix result (p :: it) = .pairs result := by
  simp [vlistKeyvalsLoop, h]

section Iterations

variable (hcount : result.length < count)
include hcount

theorem vlistKeyvalsLoop_short (h : p.1.length < keyPrefix.length) :
    vlistKeyvalsLoop count keyPrefix result (p :: it) = .diverges := by
  simp [vlistKeyvalsLoop, hcount, h]

theorem vlistKeyvalsLoop_isPrefix (h : keyPrefix <+: p.1) :
    vlistKeyvalsLoop count keyPrefix result (p :: it) =
      vlistKeyvalsLoop count keyPrefix (result ++ [p]) it := by
  have hlong : ¬ p.1.length < keyPrefix.length := Nat.not_lt.2 h.length_le
  have hzero := (memcmp_eq_zero_iff_isPrefix h.length_le).2 h
  simp [vlistKeyvalsLoop, hcount, hlong, hzero]

theorem vlistKeyvalsLoop_exceeds (h : Exceeds keyPrefix p.1) :
    vlistKeyvalsLoop count keyPrefix result (p :: it) = .pairs result := by
  have hlong : ¬ p.1.length < keyPrefix.length := Nat.not_lt.2 h.1
  have hneg := (memcmp_neg_iff_exceeds h.1).2 h
  simp [vlistKeyvalsLoop, hcount, hlong, hneg, hneg.ne]

theorem vlistKeyvalsLoop_skip (hlong : ¬ p.1.length < keyPrefix.length)
    (hbegins : ¬ keyPrefix <+: p.1) (hexceeds : ¬ Exceeds keyPrefix p.1) :
    vlistKeyvalsLoop count keyPrefix result (p :: it) =
      vlistKeyvalsLoop count keyPrefix result it := by
  have hle := Nat.le_of_not_lt hlong
  have hzero := mt (memcmp_eq_zero_iff_isPrefix hle).1 hbegins
  have hneg := mt (memcmp_neg_iff_exceeds hle).1 hexceeds
  simp [vlistKeyvalsLoop, hcount, hlong, hzero, hneg]

end Iterations

/-- A listing that returns has left the loop with its result. -/
theorem reaches_of_vlistKeyvalsLoop {batch : List (Bulk × Bulk)}
    (h : vlistKeyvalsLoop count keyPrefix result it = .pairs batch) :
    ∃ rest, Reaches (vlistKeyvalsStep count keyPrefix) ()
      { result := result, it := it, readLocked := true }
      { result := batch, it := rest, readLocked := false } := by
  induction it generalizing result with
  | nil =>
      cases h
      exact ⟨[], (Reaches.refl _ _ _).head rfl⟩
  | cons p it ih =>
      by_cases hcount : result.length < count
      · by_cases hshort : p.1.length < keyPrefix.length
        · rw [vlistKeyvalsLoop_short hcount hshort] at h
          cases h
        · by_cases hbegins : keyPrefix <+: p.1
          · rw [vlistKeyvalsLoop_isPrefix hcount hbegins] at h
            obtain ⟨rest, hrest⟩ := ih h
            exact ⟨rest, hrest.head (scanStep_isPrefix hcount hbegins)⟩
          · by_cases hexceeds : Exceeds keyPrefix p.1
            · rw [vlistKeyvalsLoop_exceeds hcount hexceeds] at h
              cases h
              exact ⟨_, (Reaches.refl _ _ _).head (scanStep_exceeds hcount hexceeds)⟩
            · rw [vlistKeyvalsLoop_skip hcount hshort hbegins hexceeds] at h
              obtain ⟨rest, hrest⟩ := ih h
              exact ⟨rest, hrest.head (scanStep_skip hcount hshort hbegins hexceeds)⟩
      · rw [vlistKeyvalsLoop_full hcount] at h
        cases h
        exact ⟨_, (Reaches.refl _ _ _).head (scanStep_full hcount)⟩

theorem not_returns_of_vlistKeyvalsLoop
    (h : ∀ batch, vlistKeyvalsLoop count keyPrefix result it ≠ .pairs batch) :
    ¬ Returns (vlistKeyvalsStep count keyPrefix)
      { result := result, it := it, readLocked := true } := by
  induction it generalizing result with
  | nil => exact absurd rfl (h result)
  | cons p it ih =>
      by_cases hcount : result.length < count
      · by_cases hshort : p.1.length < keyPrefix.length
        · exact not_returns_of_fixed rfl (scanStep_short hcount hshort)
        · by_cases hbegins : keyPrefix <+: p.1
          · rw [vlistKeyvalsLoop_isPrefix hcount hbegins] at h
            intro hreturns
            exact ih h ((returns_iff_of_step rfl (scanStep_isPrefix hcount hbegins)).1 hreturns)
          · by_cases hexceeds : Exceeds keyPrefix p.1
            · exact absurd (vlistKeyvalsLoop_exceeds hcount hexceeds) (h result)
            · rw [vlistKeyvalsLoop_skip hcount hshort hbegins hexceeds] at h
              intro hreturns
              exact ih h ((returns_iff_of_step rfl
                (scanStep_skip hcount hshort hbegins hexceeds)).1 hreturns)
      · exact absurd (vlistKeyvalsLoop_full hcount) (h result)

/-- The call of `vlist_keyvals` returns exactly when it has a list of pairs to return. -/
theorem returns_iff_vlistKeyvals (s : MapDataStore) (startKey : Bulk) :
    Returns (vlistKeyvalsStep count keyPrefix) (startScan (Bulk × Bulk) s startKey) ↔
      ∃ batch, s.vlistKeyvals startKey count keyPrefix = .pairs batch := by
  constructor
  · intro hreturns
    by_contra hnone
    exact not_returns_of_vlistKeyvalsLoop (fun batch h => hnone ⟨batch, h⟩) hreturns
  · rintro ⟨batch, h⟩
    obtain ⟨rest, hrest⟩ := reaches_of_vlistKeyvalsLoop h
    exact ⟨_, hrest, rfl⟩

/-- Every key with the prefix stands behind as many others as the listing still has to
find, or behind no key whose first bytes exceed the prefix. -/
def MatchesUnhidden (count : ℕ) (keyPrefix : Bulk) (found : ℕ)
    (it : List (Bulk × Bulk)) : Prop :=
  ∀ before p after, it = before ++ p :: after → keyPrefix <+: p.1 →
    count ≤ found + (before.filter fun q => decide (keyPrefix <+: q.1)).length ∨
      ∀ q ∈ before, ¬ Exceeds keyPrefix q.1

/-- A list with a match splits at the first one. -/
theorem exists_first_match {it : List (Bulk × Bulk)} (h : ∃ p ∈ it, keyPrefix <+: p.1) :
    ∃ before p after, it = before ++ p :: after ∧ keyPrefix <+: p.1 ∧
      (before.filter fun q => decide (keyPrefix <+: q.1)) = [] := by
  induction it with
  | nil =>
      obtain ⟨p, hp, -⟩ := h
      cases hp
  | cons q it ih =>
      by_cases hq : keyPrefix <+: q.1
      · exact ⟨[], q, it, rfl, hq, rfl⟩
      · obtain ⟨p, hp, hmatch⟩ := h
        have hit : p ∈ it := by
          obtain rfl | hit := List.mem_cons.1 hp
          · exact absurd hmatch hq
          · exact hit
        obtain ⟨before, p', after, rfl, hp', hbefore⟩ := ih ⟨p, hit, hmatch⟩
        exact ⟨q :: before, p', after, rfl, hp', by simp [hq, hbefore]⟩

theorem matchesUnhidden_cons_of_exceeds {found : ℕ} (hfound : found < count)
    (h : Exceeds keyPrefix p.1) :
    MatchesUnhidden count keyPrefix found (p :: it) ↔ ∀ q ∈ it, ¬ keyPrefix <+: q.1 := by
  have hp : ¬ keyPrefix <+: p.1 := fun hbegins => not_exceeds_of_isPrefix hbegins h
  constructor
  · intro hunhidden q hq hmatch
    obtain ⟨before, p', after, rfl, hp', hbefore⟩ := exists_first_match ⟨q, hq, hmatch⟩
    obtain hle | hnone := hunhidden (p :: before) p' after rfl hp'
    · simp [hp, hbefore] at hle
      omega
    · exact hnone p List.mem_cons_self h
  · intro hnone before q after hit hmatch
    cases before with
    | nil =>
        obtain ⟨rfl, -⟩ := List.cons.inj hit
        exact absurd hmatch hp
    | cons r before =>
        obtain ⟨-, rfl⟩ := List.cons.inj hit
        exact absurd hmatch (hnone q (by simp))

theorem matchesUnhidden_cons_of_not_exceeds {found : ℕ} (h : ¬ Exceeds keyPrefix p.1) :
    MatchesUnhidden count keyPrefix found (p :: it) ↔
      MatchesUnhidden count keyPrefix (found + if keyPrefix <+: p.1 then 1 else 0) it := by
  have hcounted : ∀ before : List (Bulk × Bulk),
      found + ((p :: before).filter fun q => decide (keyPrefix <+: q.1)).length =
        (found + if keyPrefix <+: p.1 then 1 else 0) +
          (before.filter fun q => decide (keyPrefix <+: q.1)).length := by
    intro before
    by_cases hmatch : keyPrefix <+: p.1
    · simp only [hmatch, decide_true, List.filter_cons_of_pos, List.length_cons, if_true]
      omega
    · simp [hmatch]
  constructor
  · intro hunhidden before q after hit hmatch
    have hq := hunhidden (p :: before) q after (by rw [hit]; rfl) hmatch
    rw [hcounted, List.forall_mem_cons, and_iff_right h] at hq
    exact hq
  · intro hunhidden before q after hit hmatch
    cases before with
    | nil => exact Or.inr fun r hr => by cases hr
    | cons r before =>
        obtain ⟨rfl, rfl⟩ := List.cons.inj hit
        rw [hcounted, List.forall_mem_cons, and_iff_right h]
        exact hunhidden before q after rfl hmatch

/-- The loop collects the keys with the prefix exactly when none of them is hidden behind
a key that exceeds the prefix. -/
theorem vlistKeyvalsLoop_eq_iff (hlong : ∀ p ∈ it, keyPrefix.length ≤ p.1.length) :
    vlistKeyvalsLoop count keyPrefix result it =
        .pairs (result ++
          (it.filter fun p => decide (keyPrefix <+: p.1)).take (count - result.length)) ↔
      MatchesUnhidden count keyPrefix result.length it := by
  induction it generalizing result with
  | nil =>
      refine iff_of_true (by simp [vlistKeyvalsLoop]) ?_
      intro before p after h
      simp at h
  | cons p it ih =>
      obtain ⟨hp, hit⟩ := List.forall_mem_cons.1 hlong
      by_cases hcount : result.length < count
      · have hshort : ¬ p.1.length < keyPrefix.length := Nat.not_lt.2 hp
        by_cases hbegins : keyPrefix <+: p.1
        · have hsub : count - result.length = count - (result ++ [p]).length + 1 := by
            simp
            omega
          have htake : result ++ ((p :: it).filter fun p => decide (keyPrefix <+: p.1)).take
              (count - result.length) = (result ++ [p]) ++ (it.filter fun p =>
                decide (keyPrefix <+: p.1)).take (count - (result ++ [p]).length) := by
            rw [hsub, List.filter_cons_of_pos (by simpa using hbegins), List.take_succ_cons,
              List.append_cons]
          rw [vlistKeyvalsLoop_isPrefix hcount hbegins, htake, ih hit,
            matchesUnhidden_cons_of_not_exceeds (not_exceeds_of_isPrefix hbegins)]
          simp [hbegins]
        · have hfilter : ((p :: it).filter fun p => decide (keyPrefix <+: p.1)) =
              it.filter fun p => decide (keyPrefix <+: p.1) :=
            List.filter_cons_of_neg (by simpa using hbegins)
          rw [hfilter]
          by_cases hexceeds : Exceeds keyPrefix p.1
          · rw [vlistKeyvalsLoop_exceeds hcount hexceeds,
              matchesUnhidden_cons_of_exceeds hcount hexceeds]
            have hpos : count - result.length ≠ 0 := by omega
            simp [List.filter_eq_nil_iff, hpos]
          · rw [vlistKeyvalsLoop_skip hcount hshort hbegins hexceeds, ih hit,
              matchesUnhidden_cons_of_not_exceeds hexceeds]
            simp [hbegins]
      · have hzero : count - result.length = 0 := by omega
        refine iff_of_true (by simp [vlistKeyvalsLoop_full hcount, hzero]) ?_
        intro before q after _ _
        exact Or.inl (by omega)

/-- `vlist_keyvals` lists the page that the interface specifies exactly when no key with the
prefix is hidden behind a key that exceeds the prefix. -/
theorem vlistKeyvals_eq_page_iff {s : MapDataStore} [IsStrictWeakOrder Bulk (keycmp s.less)]
    (hs : s.WellFormed) (startKey : Bulk) (hlong : ∀ p ∈ s.map, keyPrefix.length ≤ p.1.length) :
    s.vlistKeyvals startKey count keyPrefix =
        .pairs (page (keycmp s.less) s.map startKey count keyPrefix) ↔
      MatchesUnhidden count keyPrefix 0 (s.scanFrom startKey) := by
  have hfrom : s.scanFrom startKey =
      s.map.filter fun p => decide (startKey = [] ∨ keycmp s.less startKey p.1) := by
    rw [scanFrom]
    cases startKey with
    | nil => simp
    | cons b bs => simp [OrderedMap.upperBound_eq_filter _ hs]
  have hpage : page (keycmp s.less) s.map startKey count keyPrefix =
      ((s.scanFrom startKey).filter fun p => decide (keyPrefix <+: p.1)).take count := by
    rw [page_eq_filter_filter, hfrom]
  have hscan : ∀ p ∈ s.scanFrom startKey, keyPrefix.length ≤ p.1.length := by
    intro p hp
    rw [hfrom] at hp
    exact hlong p (List.mem_filter.1 hp).1
  rw [hpage, ← List.nil_append (List.take _ _)]
  exact vlistKeyvalsLoop_eq_iff hscan

/-- The listings are the pages that the interface specifies exactly when no key with the
prefix is hidden behind a key that exceeds the prefix. -/
theorem vlistKeys_vlistKeyvals_eq_page_iff (s : MapDataStore)
    [IsStrictWeakOrder Bulk (keycmp s.less)] (hs : s.WellFormed) (startKey : Bulk)
    (count : ℕ) (keyPrefix : Bulk) (hlong : ∀ p ∈ s.map, keyPrefix.length ≤ p.1.length) :
    (s.vlistKeys startKey count keyPrefix =
          some ((page (keycmp s.less) s.map startKey count keyPrefix).map Prod.fst) ∧
        s.vlistKeyvals startKey count keyPrefix =
          .pairs (page (keycmp s.less) s.map startKey count keyPrefix)) ↔
      MatchesUnhidden count keyPrefix 0 (s.scanFrom startKey) := by
  rw [← vlistKeyvals_eq_page_iff hs startKey hlong, vlistKeys_eq]
  constructor
  · intro h
    exact h.2
  · intro h
    rw [h]
    exact ⟨rfl, rfl⟩

/-- The keys `a` and `b`, in the order of their bytes. -/
def letterKeys : MapDataStore :=
  { MapDataStore.new with map := [([0x61], [1]), ([0x62], [2])] }

theorem vlistKeys_vlistKeyvals_eq_page_letters :
    letterKeys.vlistKeys [] 5 [0x62] =
        some ((page (keycmp none) letterKeys.map [] 5 [0x62]).map Prod.fst) ∧
      letterKeys.vlistKeyvals [] 5 [0x62] =
        .pairs (page (keycmp none) letterKeys.map [] 5 [0x62]) := by
  have hs : letterKeys.WellFormed := by
    rw [WellFormed, OrderedMap.Sorted]
    decide
  have hunhidden : MatchesUnhidden 5 [0x62] 0 [([0x61], [1]), ([0x62], [2])] := by
    rw [matchesUnhidden_cons_of_not_exceeds (by decide),
      matchesUnhidden_cons_of_not_exceeds (by decide)]
    intro before p after h
    simp at h
  have : IsStrictWeakOrder Bulk (keycmp letterKeys.less) :=
    inferInstanceAs (IsStrictWeakOrder Bulk (keycmp none))
  exact (vlistKeys_vlistKeyvals_eq_page_iff letterKeys hs [] 5 [0x62] (by decide)).2 hunhidden

/-- The keys `0x80` and `0x01`, in the order of `char`. -/
def signedKeys : MapDataStore :=
  { MapDataStore.new with map := [([0x80], [1]), ([0x01], [2])] }

/-- The key `0x80` ends the listing of the prefix `0x01` before its key is reached. -/
theorem vlistKeyvals_ne_page_signedKeys :
    signedKeys.WellFormed ∧ (∀ p ∈ signedKeys.map, [(0x01 : UInt8)].length ≤ p.1.length) ∧
      signedKeys.vlistKeyvals [] 5 [0x01] = .pairs [] ∧
      page (keycmp none) signedKeys.map [] 5 [0x01] = [([0x01], [2])] ∧
      ¬ (signedKeys.vlistKeys [] 5 [0x01] =
            some ((page (keycmp none) signedKeys.map [] 5 [0x01]).map Prod.fst) ∧
          signedKeys.vlistKeyvals [] 5 [0x01] =
            .pairs (page (keycmp none) signedKeys.map [] 5 [0x01])) := by
  refine ⟨?_, by decide, by decide, by decide, by decide⟩
  rw [WellFormed, OrderedMap.Sorted]
  decide

end Results

end MapDataStore

end Sdskv
