import Sdskv.Datastore.Map.Listing

/-!
# Range listings of the map backend

`vlist_key_range` and `vlist_keyval_range` are one loop from the first entry after the
lower bound to an iterator `ub`. An iterator is the part of the map from its entry on;
two iterators of one map are equal exactly when equally many entries are left. Reading
the entry of the end iterator is `none`.

The loop stops at `ub` only if it does not start after it. `ub` is the entry of the upper
bound when that key is stored, and otherwise the entry after the first key that follows
it, so that key is listed too; when no key follows, the end iterator is read. On top of
this `vlist_key_range` collects the values of the entries and not their keys.
`RangeInReach` are the bounds for which the visited entries are the right ones
nevertheless.
-/

namespace Sdskv

namespace MapDataStore

section Loop

variable {α : Type*} (push : Bulk × Bulk → α) (maxKeys : ℕ)

/-- The loop of the range listings: `push` is what is taken from an entry, `ub` the
iterator to stop at. -/
def vlistRangeLoop (ub : List (Bulk × Bulk)) : List α → List (Bulk × Bulk) →
    Option (List α)
  | result, [] => if ub.length = 0 then some result else none
  | result, p :: it =>
      if it.length + 1 = ub.length then some result
      else if maxKeys ≠ 0 ∧ (result ++ [push p]).length = maxKeys then
        some (result ++ [push p])
      else vlistRangeLoop ub (result ++ [push p]) it

/-- The body of the range listings. The early return for a lower bound with nothing after
it is before the upper bound is looked up. -/
def vlistRange (s : MapDataStore) (lowerBound upperBound : Bulk) : Option (List α) :=
  match OrderedMap.upperBound (keycmp s.less) s.map lowerBound with
  | [] => some []
  | p :: it =>
      match OrderedMap.lowerBound (keycmp s.less) s.map upperBound with
      | [] => none
      | q :: rest =>
          let ub := if q.1 ≠ upperBound then rest else q :: rest
          vlistRangeLoop push maxKeys ub [] (p :: it)

end Loop

/-- `vlist_key_range`: it collects `it->second`. -/
def vlistKeyRange (s : MapDataStore) (lowerBound upperBound : Bulk) (maxKeys : ℕ) :
    Option (List Bulk) :=
  vlistRange Prod.snd maxKeys s lowerBound upperBound

/-- `vlist_keyval_range`. -/
def vlistKeyvalRange (s : MapDataStore) (lowerBound upperBound : Bulk) (maxKeys : ℕ) :
    Option (List (Bulk × Bulk)) :=
  vlistRange id maxKeys s lowerBound upperBound

end MapDataStore

/-- The first `maxKeys` elements, or all for the limit 0. -/
def cutTo {α : Type*} (maxKeys : ℕ) (xs : List α) : List α :=
  if maxKeys = 0 then xs else xs.take maxKeys

theorem map_cutTo {α β : Type*} (f : α → β) (maxKeys : ℕ) (xs : List α) :
    (cutTo maxKeys xs).map f = cutTo maxKeys (xs.map f) := by
  unfold cutTo
  split_ifs
  · rfl
  · exact List.map_take

theorem length_cutTo_append_singleton {α : Type*} (maxKeys : ℕ) (xs : List α) (x : α) :
    (cutTo maxKeys (xs ++ [x])).length = (cutTo maxKeys xs).length ↔
      maxKeys ≠ 0 ∧ maxKeys ≤ xs.length := by
  unfold cutTo
  split_ifs with h
  · simp [h]
  · simp only [List.length_take, List.length_append, List.length_singleton]
    omega

theorem cutTo_of_le {α : Type*} {maxKeys : ℕ} {xs : List α} (h : maxKeys ≠ 0)
    (hle : maxKeys ≤ xs.length) (ys : List α) : cutTo maxKeys (xs ++ ys) = cutTo maxKeys xs := by
  rw [cutTo, cutTo, if_neg h, if_neg h, List.take_append_of_le_length hle]

namespace MapDataStore

section Loop

variable {α : Type*} (push : Bulk × Bulk → α) (maxKeys : ℕ)

/-- The loop reaches an iterator that is ahead of it, or its limit. -/
theorem vlistRangeLoop_append (ub : List (Bulk × Bulk)) (pre : List (Bulk × Bulk))
    (result : List α) (hresult : maxKeys ≠ 0 → result.length < maxKeys) :
    vlistRangeLoop push maxKeys ub result (pre ++ ub) =
      some (cutTo maxKeys (result ++ pre.map push)) := by
  have hcut : cutTo maxKeys result = result := by
    unfold cutTo
    split_ifs with h
    · rfl
    · exact List.take_of_length_le (hresult h).le
  induction pre generalizing result with
  | nil =>
      cases ub with
      | nil => simp [vlistRangeLoop, hcut]
      | cons q rest => simp [vlistRangeLoop, hcut]
  | cons p pre ih =>
      have hne : ¬ (pre ++ ub).length + 1 = ub.length := by
        rw [List.length_append]
        omega
      have hassoc : result ++ (p :: pre).map push = (result ++ [push p]) ++ pre.map push := by
        simp
      rw [List.cons_append, vlistRangeLoop, if_neg hne, hassoc]
      split_ifs with hlim
      · rw [cutTo, if_neg hlim.1, List.take_left' hlim.2]
      · have hlt : maxKeys ≠ 0 → (result ++ [push p]).length < maxKeys := by
          intro h
          have hle := hresult h
          have hneq : ¬ (result ++ [push p]).length = maxKeys := fun heq => hlim ⟨h, heq⟩
          rw [List.length_append, List.length_singleton] at hneq ⊢
          omega
        refine ih _ hlt ?_
        unfold cutTo
        split_ifs with h
        · rfl
        · exact List.take_of_length_le (hlt h).le

/-- A loop that starts after the iterator to stop at runs on to the end of the map; if its
limit stops it before, it has listed something. -/
theorem length_lt_of_vlistRangeLoop {ub it : List (Bulk × Bulk)} {result xs : List α}
    (hlen : it.length < ub.length)
    (h : vlistRangeLoop push maxKeys ub result it = some xs) : result.length < xs.length := by
  induction it generalizing result with
  | nil =>
      have hne : ¬ ub.length = 0 := by
        rw [List.length_nil] at hlen
        omega
      rw [vlistRangeLoop, if_neg hne] at h
      cases h
  | cons p it ih =>
      rw [List.length_cons] at hlen
      rw [vlistRangeLoop, if_neg (by omega)] at h
      split_ifs at h with hlim
      · cases h
        simp
      · have hstep := ih (by omega) h
        rw [List.length_append, List.length_singleton] at hstep
        omega

end Loop

/-- The entries a range listing should return, as `push` takes them. -/
def rangeOf {α : Type*} (push : Bulk × Bulk → α) (maxKeys : ℕ) (s : MapDataStore)
    (lowerBound upperBound : Bulk) : List α :=
  cutTo maxKeys ((OrderedMap.between (keycmp s.less) s.map lowerBound upperBound).map push)

/-- The stored keys from `upperBound` to `lowerBound`, both included. -/
def inverted (s : MapDataStore) (lowerBound upperBound : Bulk) : List (Bulk × Bulk) :=
  s.map.filter fun p =>
    decide (¬ keycmp s.less p.1 upperBound ∧ ¬ keycmp s.less lowerBound p.1)

/-- The bounds for which the loop visits the entries between them and no others: nothing is
after the lower bound; the upper bound is stored and after the lower one; it is not stored
but the limit stops the loop before the next key; or the bounds are in the wrong order and
`ub` is where the loop starts. -/
def RangeInReach (s : MapDataStore) (lowerBound upperBound : Bulk) (maxKeys : ℕ) : Prop :=
  (∀ p ∈ s.map, ¬ keycmp s.less lowerBound p.1) ∨
  (upperBound ∈ s.map.map Prod.fst ∧ keycmp s.less lowerBound upperBound) ∨
  (upperBound ∉ s.map.map Prod.fst ∧ (∃ p ∈ s.map, ¬ keycmp s.less p.1 upperBound) ∧
    maxKeys ≠ 0 ∧
    maxKeys ≤ (OrderedMap.between (keycmp s.less) s.map lowerBound upperBound).length) ∨
  (upperBound ∉ s.map.map Prod.fst ∧ (s.inverted lowerBound upperBound).length = 1)

section Range

variable {s : MapDataStore} [IsStrictWeakOrder Bulk (keycmp s.less)]
  {lowerBound upperBound : Bulk} {q : Bulk × Bulk} {rest : List (Bulk × Bulk)}

theorem mem_keys_iff_of_lowerBound (h : s.WellFormed)
    (hq : OrderedMap.lowerBound (keycmp s.less) s.map upperBound = q :: rest) :
    upperBound ∈ s.map.map Prod.fst ↔ q.1 = upperBound := by
  have hmem := OrderedMap.mem_iff_of_lowerBound _ h hq
  constructor
  · intro hkey
    obtain ⟨p, hp, rfl⟩ := List.mem_map.1 hkey
    rcases List.mem_cons.1 ((hmem p).2 ⟨hp, irrefl_of _ p.1⟩) with rfl | hp
    · rfl
    · have hlt := (List.pairwise_cons.1 (OrderedMap.sorted_of_lowerBound _ h hq)).1 p hp
      exact absurd hlt ((hmem q).1 List.mem_cons_self).2
  · rintro rfl
    exact List.mem_map_of_mem ((hmem q).1 List.mem_cons_self).1

/-- With the bounds in the wrong order, `ub` is where the loop starts exactly when one key
is stored from the upper to the lower bound. -/
theorem length_inverted_eq_one_iff (h : s.WellFormed)
    (hq : OrderedMap.lowerBound (keycmp s.less) s.map upperBound = q :: rest)
    (hlt : ¬ keycmp s.less lowerBound q.1) :
    (s.inverted lowerBound upperBound).length = 1 ↔
      OrderedMap.upperBound (keycmp s.less) s.map lowerBound = rest := by
  have hinv : s.inverted lowerBound upperBound =
      q :: rest.filter fun p => decide (¬ keycmp s.less lowerBound p.1) := by
    rw [← List.filter_cons_of_pos (by simpa using hlt), ← hq,
      OrderedMap.lowerBound_eq_filter _ h, List.filter_filter, inverted]
    refine List.filter_congr fun p _ => ?_
    rw [Bool.decide_and, Bool.and_comm]
  rw [hinv, OrderedMap.upperBound_of_not_lt _ h hq hlt, List.length_cons, List.filter_eq_self,
    Nat.add_eq_right, List.length_eq_zero_iff, List.filter_eq_nil_iff]
  simp

/-- No key is stored from the upper to the lower bound when the first one that is not before
the upper bound is after the lower one. -/
theorem inverted_eq_nil (h : s.WellFormed)
    (hq : OrderedMap.lowerBound (keycmp s.less) s.map upperBound = q :: rest)
    (hlt : keycmp s.less lowerBound q.1) : s.inverted lowerBound upperBound = [] := by
  have hsorted := List.pairwise_cons.1 (OrderedMap.sorted_of_lowerBound _ h hq)
  refine List.filter_eq_nil_iff.2 fun p hp hdec => ?_
  rcases of_decide_eq_true hdec with ⟨hup, hlow⟩
  rcases List.mem_cons.1 ((OrderedMap.mem_iff_of_lowerBound _ h hq p).2 ⟨hp, hup⟩) with rfl | hp
  · exact hlow hlt
  · exact hlow (trans_of _ hlt (hsorted.1 p hp))

omit [IsStrictWeakOrder Bulk (keycmp s.less)] in
/-- What the listing does once both iterators are placed. -/
theorem vlistRange_eq {α : Type*} (push : Bulk × Bulk → α) (maxKeys : ℕ)
    (hne : OrderedMap.upperBound (keycmp s.less) s.map lowerBound ≠ [])
    (hq : OrderedMap.lowerBound (keycmp s.less) s.map upperBound = q :: rest) :
    vlistRange push maxKeys s lowerBound upperBound =
      vlistRangeLoop push maxKeys (if q.1 ≠ upperBound then rest else q :: rest) []
        (OrderedMap.upperBound (keycmp s.less) s.map lowerBound) := by
  unfold vlistRange
  cases hit : OrderedMap.upperBound (keycmp s.less) s.map lowerBound with
  | nil => exact absurd hit hne
  | cons p it => rw [hq]

/-- The listing of bounds in the right order: the key after an upper bound that is not
stored is listed too, unless the limit cuts it off. -/
theorem vlistRange_of_lt {α : Type*} (push : Bulk × Bulk → α) (maxKeys : ℕ)
    (h : s.WellFormed)
    (hq : OrderedMap.lowerBound (keycmp s.less) s.map upperBound = q :: rest)
    (hlt : keycmp s.less lowerBound q.1) :
    vlistRange push maxKeys s lowerBound upperBound =
      some (cutTo maxKeys
        ((OrderedMap.between (keycmp s.less) s.map lowerBound upperBound ++
          if q.1 ≠ upperBound then [q] else []).map push)) := by
  have hit := OrderedMap.upperBound_of_lt _ h hq hlt
  rw [vlistRange_eq push maxKeys (by rw [hit]; simp) hq, hit]
  split_ifs with heq
  · rw [List.append_cons]
    exact vlistRangeLoop_append push maxKeys rest _ [] Nat.pos_of_ne_zero
  · rw [List.append_nil]
    exact vlistRangeLoop_append push maxKeys (q :: rest) _ [] Nat.pos_of_ne_zero

/-- With the bounds in the wrong order the loop returns nothing only if it starts at `ub`. -/
theorem vlistRange_of_not_lt {α : Type*} (push : Bulk × Bulk → α) (maxKeys : ℕ)
    (h : s.WellFormed) (hne : OrderedMap.upperBound (keycmp s.less) s.map lowerBound ≠ [])
    (hq : OrderedMap.lowerBound (keycmp s.less) s.map upperBound = q :: rest)
    (hlt : ¬ keycmp s.less lowerBound q.1) :
    vlistRange push maxKeys s lowerBound upperBound = some [] ↔
      q.1 ≠ upperBound ∧ (s.inverted lowerBound upperBound).length = 1 := by
  rw [length_inverted_eq_one_iff h hq hlt, vlistRange_eq push maxKeys hne hq,
    OrderedMap.upperBound_of_not_lt _ h hq hlt]
  have hle := List.length_filter_le (fun p => decide (keycmp s.less lowerBound p.1)) rest
  have hpast : ∀ {ub it : List (Bulk × Bulk)}, it.length < ub.length →
      vlistRangeLoop push maxKeys ub [] it ≠ some [] := by
    intro ub it hlen hloop
    exact absurd (length_lt_of_vlistRangeLoop push maxKeys hlen hloop) (lt_irrefl 0)
  constructor
  · intro hloop
    split_ifs at hloop with heq
    · refine ⟨heq, ?_⟩
      by_contra hrest
      have hlen := lt_of_le_of_ne hle fun hlen => hrest (List.filter_eq_self.2
        (List.length_filter_eq_length_iff.1 hlen))
      exact hpast hlen hloop
    · exact absurd hloop (hpast (by rw [List.length_cons]; omega))
  · rintro ⟨heq, hrest⟩
    rw [if_pos heq, hrest]
    have hloop := vlistRangeLoop_append push maxKeys rest [] [] Nat.pos_of_ne_zero
    simpa [cutTo] using hloop

theorem not_rangeInReach_of_lowerBound_eq_nil {maxKeys : ℕ}
    (hne : OrderedMap.upperBound (keycmp s.less) s.map lowerBound ≠ [])
    (hnil : OrderedMap.lowerBound (keycmp s.less) s.map upperBound = []) :
    ¬ s.RangeInReach lowerBound upperBound maxKeys := by
  have hall := (OrderedMap.lowerBound_eq_nil_iff _ _ _).1 hnil
  rintro (hafter | ⟨hmem, -⟩ | ⟨-, ⟨p, hp, hup⟩, -⟩ | ⟨-, hone⟩)
  · exact hne ((OrderedMap.upperBound_eq_nil_iff _ _ _).2 hafter)
  · obtain ⟨p, hp, rfl⟩ := List.mem_map.1 hmem
    exact irrefl_of _ p.1 (hall p hp)
  · exact hup (hall p hp)
  · obtain ⟨p, hp⟩ := List.length_pos_iff_exists_mem.1 (hone ▸ Nat.one_pos)
    rcases List.mem_filter.1 hp with ⟨hp, hdec⟩
    exact (of_decide_eq_true hdec).1 (hall p hp)

theorem rangeInReach_iff_of_lt {maxKeys : ℕ} (h : s.WellFormed)
    (hq : OrderedMap.lowerBound (keycmp s.less) s.map upperBound = q :: rest)
    (hlt : keycmp s.less lowerBound q.1) :
    s.RangeInReach lowerBound upperBound maxKeys ↔ q.1 = upperBound ∨ maxKeys ≠ 0 ∧
      maxKeys ≤ (OrderedMap.between (keycmp s.less) s.map lowerBound upperBound).length := by
  have hkey := mem_keys_iff_of_lowerBound h hq
  have hmem := (OrderedMap.mem_iff_of_lowerBound _ h hq q).1 List.mem_cons_self
  constructor
  · rintro (hafter | ⟨hup, -⟩ | ⟨-, -, hlim⟩ | ⟨-, hone⟩)
    · exact absurd hlt (hafter q hmem.1)
    · exact Or.inl (hkey.1 hup)
    · exact Or.inr hlim
    · rw [inverted_eq_nil h hq hlt] at hone
      cases hone
  · intro hor
    by_cases heq : q.1 = upperBound
    · exact Or.inr (Or.inl ⟨hkey.2 heq, heq ▸ hlt⟩)
    · have hlim := hor.resolve_left heq
      exact Or.inr (Or.inr (Or.inl ⟨fun hup => heq (hkey.1 hup), ⟨q, hmem⟩, hlim⟩))

theorem rangeInReach_iff_of_not_lt {maxKeys : ℕ} (h : s.WellFormed)
    (hne : OrderedMap.upperBound (keycmp s.less) s.map lowerBound ≠ [])
    (hq : OrderedMap.lowerBound (keycmp s.less) s.map upperBound = q :: rest)
    (hlt : ¬ keycmp s.less lowerBound q.1) :
    s.RangeInReach lowerBound upperBound maxKeys ↔
      q.1 ≠ upperBound ∧ (s.inverted lowerBound upperBound).length = 1 := by
  have hkey := mem_keys_iff_of_lowerBound h hq
  constructor
  · rintro (hafter | ⟨hup, hlow⟩ | ⟨-, -, hpos, hlim⟩ | ⟨hup, hone⟩)
    · exact absurd ((OrderedMap.upperBound_eq_nil_iff _ _ _).2 hafter) hne
    · exact absurd ((hkey.1 hup).symm ▸ hlow) hlt
    · rw [OrderedMap.between_eq_nil_of_not_lt _ h hq hlt] at hlim
      exact absurd (Nat.le_zero.1 hlim) hpos
    · exact ⟨fun heq => hup (hkey.2 heq), hone⟩
  · rintro ⟨hup, hone⟩
    exact Or.inr (Or.inr (Or.inr ⟨fun hmem => hup (hkey.1 hmem), hone⟩))

omit [IsStrictWeakOrder Bulk (keycmp s.less)] in
theorem rangeOf_eq_nil {α : Type*} (push : Bulk × Bulk → α) (maxKeys : ℕ)
    (hnil : OrderedMap.between (keycmp s.less) s.map lowerBound upperBound = []) :
    rangeOf push maxKeys s lowerBound upperBound = [] := by
  simp [rangeOf, cutTo, hnil]

theorem between_eq_nil_of_upperBound_eq_nil (h : s.WellFormed)
    (hnil : OrderedMap.upperBound (keycmp s.less) s.map lowerBound = []) :
    OrderedMap.between (keycmp s.less) s.map lowerBound upperBound = [] := by
  rw [OrderedMap.upperBound_eq_between_append _ h lowerBound upperBound] at hnil
  exact (List.append_eq_nil_iff.1 hnil).1

/-- For the bounds in reach the listing is the right one. -/
theorem vlistRange_of_rangeInReach {α : Type*} (push : Bulk × Bulk → α) {maxKeys : ℕ}
    (h : s.WellFormed) (hreach : s.RangeInReach lowerBound upperBound maxKeys) :
    vlistRange push maxKeys s lowerBound upperBound =
      some (rangeOf push maxKeys s lowerBound upperBound) := by
  by_cases hnil : OrderedMap.upperBound (keycmp s.less) s.map lowerBound = []
  · rw [rangeOf_eq_nil push maxKeys (between_eq_nil_of_upperBound_eq_nil h hnil), vlistRange,
      hnil]
  cases hq : OrderedMap.lowerBound (keycmp s.less) s.map upperBound with
  | nil => exact absurd hreach (not_rangeInReach_of_lowerBound_eq_nil hnil hq)
  | cons q rest =>
      by_cases hlt : keycmp s.less lowerBound q.1
      · rw [vlistRange_of_lt push maxKeys h hq hlt, rangeOf]
        rcases (rangeInReach_iff_of_lt h hq hlt).1 hreach with heq | ⟨hpos, hlim⟩
        · rw [if_neg (not_not.2 heq), List.append_nil]
        · rw [List.map_append, cutTo_of_le hpos (by rwa [List.length_map])]
      · rw [rangeOf_eq_nil push maxKeys (OrderedMap.between_eq_nil_of_not_lt _ h hq hlt)]
        exact (vlistRange_of_not_lt push maxKeys h hnil hq hlt).2
          ((rangeInReach_iff_of_not_lt h hnil hq hlt).1 hreach)

/-- A listing of the right length is for bounds in reach, whatever is taken from the
entries. -/
theorem rangeInReach_of_length {α : Type*} {push : Bulk × Bulk → α} {maxKeys : ℕ}
    {xs : List α} (h : s.WellFormed)
    (hlist : vlistRange push maxKeys s lowerBound upperBound = some xs)
    (hlen : xs.length = (rangeOf push maxKeys s lowerBound upperBound).length) :
    s.RangeInReach lowerBound upperBound maxKeys := by
  by_cases hnil : OrderedMap.upperBound (keycmp s.less) s.map lowerBound = []
  · exact Or.inl ((OrderedMap.upperBound_eq_nil_iff _ _ _).1 hnil)
  cases hq : OrderedMap.lowerBound (keycmp s.less) s.map upperBound with
  | nil =>
      unfold vlistRange at hlist
      cases hit : OrderedMap.upperBound (keycmp s.less) s.map lowerBound with
      | nil => exact absurd hit hnil
      | cons p it =>
          rw [hit, hq] at hlist
          cases hlist
  | cons q rest =>
      by_cases hlt : keycmp s.less lowerBound q.1
      · rw [vlistRange_of_lt push maxKeys h hq hlt] at hlist
        cases hlist
        rw [rangeInReach_iff_of_lt h hq hlt]
        by_cases heq : q.1 = upperBound
        · exact Or.inl heq
        · rw [if_pos heq, List.map_append, List.map_singleton, rangeOf,
            length_cutTo_append_singleton, List.length_map] at hlen
          exact Or.inr hlen
      · rw [rangeOf_eq_nil push maxKeys (OrderedMap.between_eq_nil_of_not_lt _ h hq hlt),
          List.length_nil, List.length_eq_zero_iff] at hlen
        rw [rangeInReach_iff_of_not_lt h hnil hq hlt,
          ← vlistRange_of_not_lt push maxKeys h hnil hq hlt, hlist, hlen]

end Range

end MapDataStore

/-- Both listings return the entries between the bounds, the first one their keys. -/
def RangeListed (s : MapDataStore) (lowerBound upperBound : Bulk) (maxKeys : ℕ) : Prop :=
  s.vlistKeyRange lowerBound upperBound maxKeys =
      some (MapDataStore.rangeOf Prod.fst maxKeys s lowerBound upperBound) ∧
    s.vlistKeyvalRange lowerBound upperBound maxKeys =
      some (MapDataStore.rangeOf id maxKeys s lowerBound upperBound)

/-- The range listings of a map database are right exactly for the bounds in reach and when
every entry to list has its key as its value. -/
theorem mapDataStore_rangeListed_iff (s : MapDataStore)
    [IsStrictWeakOrder Bulk (keycmp s.less)] (h : s.WellFormed) (lowerBound upperBound : Bulk)
    (maxKeys : ℕ) :
    RangeListed s lowerBound upperBound maxKeys ↔
      s.RangeInReach lowerBound upperBound maxKeys ∧
      ∀ p ∈ cutTo maxKeys (OrderedMap.between (keycmp s.less) s.map lowerBound upperBound),
        p.2 = p.1 := by
  have hmap : ∀ push : Bulk × Bulk → Bulk,
      MapDataStore.rangeOf push maxKeys s lowerBound upperBound =
        (cutTo maxKeys (OrderedMap.between (keycmp s.less) s.map lowerBound upperBound)).map
          push := fun push => (map_cutTo push maxKeys _).symm
  constructor
  · rintro ⟨hkeys, hpairs⟩
    have hreach := MapDataStore.rangeInReach_of_length h hpairs rfl
    rw [MapDataStore.vlistKeyRange, MapDataStore.vlistRange_of_rangeInReach _ h hreach,
      hmap, hmap, Option.some_inj, List.map_inj_left] at hkeys
    exact ⟨hreach, hkeys⟩
  · rintro ⟨hreach, hsame⟩
    refine ⟨?_, MapDataStore.vlistRange_of_rangeInReach id h hreach⟩
    rw [MapDataStore.vlistKeyRange, MapDataStore.vlistRange_of_rangeInReach _ h hreach,
      hmap, hmap, List.map_inj_left.2 hsame]

/-- A map database with the keys 1, 2 and 3, and the values `f` gives them. -/
def threeEntries (f : UInt8 → UInt8) : MapDataStore :=
  { MapDataStore.new with map := [([1], [f 1]), ([2], [f 2]), ([3], [f 3])] }

theorem wellFormed_threeEntries (f : UInt8 → UInt8) : (threeEntries f).WellFormed := by
  have hkeys : ((threeEntries f).map.map Prod.fst).Pairwise (keycmp none) :=
    (show ([[1], [2], [3]] : List Bulk).Pairwise vectorLess by decide)
  exact List.pairwise_map.1 hkeys

instance (f : UInt8 → UInt8) : IsStrictWeakOrder Bulk (keycmp (threeEntries f).less) :=
  inferInstanceAs (IsStrictWeakOrder Bulk (keycmp none))

theorem mapDataStore_rangeListed_iff_threeEntries :
    RangeListed (threeEntries id) [1] [3] 0 :=
  (mapDataStore_rangeListed_iff (threeEntries id) (wellFormed_threeEntries id) [1] [3] 0).2
    ⟨Or.inr (Or.inl (by decide)), by decide⟩

/-- Between two stored bounds `vlist_key_range` returns the values, and for an upper bound
after all keys both listings read the end iterator. -/
theorem not_rangeListed_threeEntries :
    (threeEntries (· + 10)).vlistKeyRange [1] [3] 0 = some [[12]] ∧
      (threeEntries (· + 10)).vlistKeyRange [1] [4] 0 = none ∧
      (threeEntries (· + 10)).vlistKeyvalRange [1] [4] 0 = none ∧
      ¬ RangeListed (threeEntries (· + 10)) [1] [3] 0 := by
  have hkeys : (threeEntries (· + 10)).vlistKeyRange [1] [3] 0 = some [[12]] := by decide
  refine ⟨hkeys, by decide, by decide, fun h => ?_⟩
  have hright := hkeys.symm.trans h.1
  revert hright
  decide

end Sdskv
