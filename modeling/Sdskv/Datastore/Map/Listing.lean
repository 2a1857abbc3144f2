import Sdskv.Datastore.Map.Basic

/-!
# Listing the map backend

`vlist_keyvals` walks over the entries after the start key. A key shorter than the
prefix makes its loop start over without advancing the iterator, so the call does not
return. Whatever it returns is a part of the entries in order, and for the empty
prefix it is the page that the interface specifies. `vlist_keys` has the same loop and
lists the keys of the same entries.

`MapState` are the well-formed states of a map database, and `mapStore` is the backend
over them: it is a `LawfulStore`.
-/

namespace Sdskv

/-- `std::memcmp` on the first `n` bytes. -/
def memcmp : Bulk → Bulk → ℕ → Int
  | a :: as, b :: bs, n + 1 =>
      if a = b then memcmp as bs n else if unsignedCharLess a b then -1 else 1
  | _, _, _ => 0

namespace MapDataStore

/-- The loop of `vlist_keyvals`; the list is the iterator up to the end of the map,
and a `continue` that does not advance it is a loop that does not end. -/
def vlistKeyvalsLoop (count : ℕ) (keyPrefix : Bulk) : List (Bulk × Bulk) →
    List (Bulk × Bulk) → Listing
  | result, [] => .pairs result
  | result, p :: it =>
      if result.length < count then
        if keyPrefix.length > p.1.length then .diverges
        else
          let c := memcmp keyPrefix p.1 keyPrefix.length
          if c = 0 then vlistKeyvalsLoop count keyPrefix (result ++ [p]) it
          else if c < 0 then .pairs result
          else vlistKeyvalsLoop count keyPrefix result it
      else .pairs result

/-- `vlist_keyvals`. -/
def vlistKeyvals (s : MapDataStore) (startKey : Bulk) (count : ℕ) (keyPrefix : Bulk) :
    Listing :=
  let it := if startKey.length > 0 then OrderedMap.upperBound (keycmp s.less) s.map startKey
    else s.map
  vlistKeyvalsLoop count keyPrefix [] it

/-- The loop of `vlist_keys`; a loop that does not end is `none`. -/
def vlistKeysLoop (count : ℕ) (keyPrefix : Bulk) : List Bulk → List (Bulk × Bulk) →
    Option (List Bulk)
  | result, [] => some result
  | result, p :: it =>
      if result.length < count then
        if keyPrefix.length > p.1.length then none
        else
          let c := memcmp keyPrefix p.1 keyPrefix.length
          if c = 0 then vlistKeysLoop count keyPrefix (result ++ [p.1]) it
          else if c < 0 then some result
          else vlistKeysLoop count keyPrefix result it
      else some result

/-- `vlist_keys`. -/
def vlistKeys (s : MapDataStore) (startKey : Bulk) (count : ℕ) (keyPrefix : Bulk) :
    Option (List Bulk) :=
  let it := if startKey.length > 0 then OrderedMap.upperBound (keycmp s.less) s.map startKey
    else s.map
  vlistKeysLoop count keyPrefix [] it

theorem vlistKeysLoop_eq (count : ℕ) (keyPrefix : Bulk) (result it : List (Bulk × Bulk)) :
    vlistKeysLoop count keyPrefix (result.map Prod.fst) it =
      (vlistKeyvalsLoop count keyPrefix result it).keys := by
  induction it generalizing result with
  | nil => rfl
  | cons p it ih =>
      simp only [vlistKeysLoop, vlistKeyvalsLoop, List.length_map]
      have hpush := ih (result ++ [p])
      rw [List.map_append, List.map_singleton] at hpush
      split_ifs
      · rfl
      · exact hpush
      · rfl
      · exact ih result
      · rfl

/-- `vlist_keys` lists the keys of what `vlist_keyvals` lists. -/
theorem vlistKeys_eq (s : MapDataStore) (startKey : Bulk) (count : ℕ) (keyPrefix : Bulk) :
    s.vlistKeys startKey count keyPrefix = (s.vlistKeyvals startKey count keyPrefix).keys :=
  vlistKeysLoop_eq count keyPrefix [] _

theorem prefix_of_vlistKeysLoop {count : ℕ} {keyPrefix : Bulk}
    {result keys : List Bulk} {it : List (Bulk × Bulk)}
    (h : vlistKeysLoop count keyPrefix result it = some keys) : result <+: keys := by
  induction it generalizing result with
  | nil =>
      cases h
      exact List.prefix_rfl
  | cons p it ih =>
      simp only [vlistKeysLoop] at h
      split_ifs at h
      · exact (List.prefix_append result [p.1]).trans (ih h)
      · cases h
        exact List.prefix_rfl
      · exact ih h
      · cases h
        exact List.prefix_rfl

/-- A loop that stops at fewer keys has found the first ones of them. -/
theorem vlistKeysLoop_take {count m : ℕ} {keyPrefix : Bulk}
    {result keys : List Bulk} {it : List (Bulk × Bulk)}
    (h : vlistKeysLoop count keyPrefix result it = some keys) (hresult : result.length ≤ m)
    (hm : m ≤ keys.length) :
    vlistKeysLoop m keyPrefix result it = some (keys.take m) := by
  induction it generalizing result with
  | nil =>
      cases h
      rw [vlistKeysLoop, List.take_of_length_le hresult]
  | cons p it ih =>
      by_cases hlt : result.length < m
      · simp only [vlistKeysLoop] at h ⊢
        rw [if_pos hlt]
        split_ifs at h with hcount hlong hzero hneg
        · rw [if_neg hlong, if_pos hzero]
          exact ih h (by rw [List.length_append]; exact hlt)
        · cases h
          omega
        · rw [if_neg hlong, if_neg hzero, if_neg hneg]
          exact ih h hresult
        · cases h
          omega
      · obtain ⟨rest, rfl⟩ := prefix_of_vlistKeysLoop h
        rw [vlistKeysLoop, if_neg hlt, List.take_left' (by omega)]

theorem vlistKeyvalsLoop_sublist {count : ℕ} {keyPrefix : Bulk}
    {result it batch : List (Bulk × Bulk)}
    (h : vlistKeyvalsLoop count keyPrefix result it = .pairs batch) :
    ∃ taken, batch = result ++ taken ∧ taken.Sublist it := by
  induction it generalizing result with
  | nil =>
      cases h
      exact ⟨[], by simp, List.Sublist.refl []⟩
  | cons p it ih =>
      simp only [vlistKeyvalsLoop] at h
      split_ifs at h
      · obtain ⟨taken, rfl, htaken⟩ := ih h
        exact ⟨p :: taken, by simp, htaken.cons_cons p⟩
      · cases h
        exact ⟨[], by simp, List.nil_sublist _⟩
      · obtain ⟨taken, rfl, htaken⟩ := ih h
        exact ⟨taken, rfl, htaken.cons p⟩
      · cases h
        exact ⟨[], by simp, List.nil_sublist _⟩

/-- What a listing returns are entries of the map, in order. -/
theorem vlistKeyvals_sublist {s : MapDataStore} {startKey : Bulk} {count : ℕ}
    {keyPrefix : Bulk} {batch : List (Bulk × Bulk)}
    (h : s.vlistKeyvals startKey count keyPrefix = .pairs batch) : batch.Sublist s.map := by
  obtain ⟨taken, rfl, htaken⟩ := vlistKeyvalsLoop_sublist h
  refine htaken.trans ?_
  split_ifs
  · exact List.dropWhile_sublist _
  · exact List.Sublist.refl _

theorem vlistKeyvalsLoop_nil (count : ℕ) (result it : List (Bulk × Bulk)) :
    vlistKeyvalsLoop count [] result it =
      .pairs (result ++ it.take (count - result.length)) := by
  induction it generalizing result with
  | nil => simp [vlistKeyvalsLoop]
  | cons p it ih =>
      by_cases hcount : result.length < count
      · have hsucc : count - result.length = count - (result.length + 1) + 1 := by omega
        simp [vlistKeyvalsLoop, memcmp, hcount, ih, hsucc]
      · have hzero : count - result.length = 0 := by omega
        simp [vlistKeyvalsLoop, hcount, hzero]

theorem vlistKeyvals_nil {s : MapDataStore} [IsStrictWeakOrder Bulk (keycmp s.less)]
    (h : s.WellFormed) (startKey : Bulk) (count : ℕ) :
    s.vlistKeyvals startKey count [] =
      .pairs (page (keycmp s.less) s.map startKey count []) := by
  rw [vlistKeyvals, vlistKeyvalsLoop_nil, page]
  cases startKey with
  | nil => simp
  | cons b bs => simp [OrderedMap.upperBound_eq_filter _ h]

theorem vlistKeys_nil {s : MapDataStore} [IsStrictWeakOrder Bulk (keycmp s.less)]
    (h : s.WellFormed) (startKey : Bulk) (count : ℕ) :
    s.vlistKeys startKey count [] =
      some ((page (keycmp s.less) s.map startKey count []).map Prod.fst) := by
  rw [vlistKeys_eq, vlistKeyvals_nil h]
  rfl

end MapDataStore

/-- The well-formed states of a map database with the comparison function `less` and
the overwrite mode `noOverwrite`, which are fixed when it is attached. -/
abbrev MapState (less : Option ComparatorFn) (noOverwrite : Bool) :=
  {s : MapDataStore // s.less = less ∧ s.noOverwrite = noOverwrite ∧ s.WellFormed}

section Store

variable (less : Option ComparatorFn) (noOverwrite : Bool)
  [IsStrictWeakOrder Bulk (keycmp less)]

theorem mapState_put {s : MapDataStore}
    (h : s.less = less ∧ s.noOverwrite = noOverwrite ∧ s.WellFormed) (key data : Bulk) :
    (s.put key data).2.less = less ∧ (s.put key data).2.noOverwrite = noOverwrite ∧
      (s.put key data).2.WellFormed := by
  obtain ⟨rfl, rfl, hwf⟩ := h
  exact ⟨by simp, by simp, MapDataStore.wellFormed_put hwf key data⟩

theorem mapState_putRaw (s : MapDataStore) (key : Pointer) (ksize : ℕ) (value : Pointer)
    (vsize : ℕ) (h : s.less = less ∧ s.noOverwrite = noOverwrite ∧ s.WellFormed) :
    (s.putRaw key ksize value vsize).2.less = less ∧
      (s.putRaw key ksize value vsize).2.noOverwrite = noOverwrite ∧
      (s.putRaw key ksize value vsize).2.WellFormed := by
  rw [MapDataStore.putRaw_eq]
  exact mapState_put less noOverwrite h _ _

/-- The map backend over its well-formed states. -/
def mapStore : AbstractDataStore (MapState less noOverwrite) where
  put s key data := ((s.1.put key data).1, ⟨_, mapState_put less noOverwrite s.2 key data⟩)
  putMulti s keys values := ((putMulti MapDataStore.putRaw s.1 keys values).1,
    ⟨_, putMulti_invariant (mapState_putRaw less noOverwrite) s.2 keys values⟩)
  putPacked s keys ksizes values vsizes :=
    ((putPacked MapDataStore.putRaw s.1 keys ksizes values vsizes).1,
      ⟨_, putPacked_invariant (mapState_putRaw less noOverwrite) s.2 keys ksizes values
        vsizes⟩)
  erase s key := ((s.1.erase key).1,
    ⟨(s.1.erase key).2, s.2.1, s.2.2.1, MapDataStore.wellFormed_erase s.2.2.2 key⟩)
  get s key := (s.1.get key, s)
  listKeyvals s startKey count keyPrefix := s.1.vlistKeyvals startKey count keyPrefix

/-- The map backend meets the specification of the interface. -/
def mapStore_lawful : LawfulStore (mapStore less noOverwrite) (keycmp less) where
  contents s := s.1.map
  sorted s := by
    obtain ⟨s, rfl, -, hwf⟩ := s
    exact hwf
  get_value s k := by
    obtain ⟨s, rfl, hs⟩ := s
    rfl
  get_contents _ _ := rfl
  put_success s k v h := by
    obtain ⟨s, rfl, hs⟩ := s
    have hne : (s.put k v).1 ≠ .errKeyexists := by
      intro heq
      rw [mapStore, heq] at h
      cases h
    simp only [mapStore]
    rw [MapDataStore.put_of_ne_errKeyexists hne]
  put_failure s k v h := by
    have heq : (s.1.put k v).1 = .errKeyexists := by
      by_contra hne
      apply h
      simp only [mapStore]
      rw [MapDataStore.put_of_ne_errKeyexists hne]
    simp only [mapStore]
    rw [MapDataStore.put_of_errKeyexists heq]
  erase_contents s k := by
    obtain ⟨s, rfl, hs⟩ := s
    rfl

theorem mapStore_listsEntries : (mapStore_lawful less noOverwrite).ListsEntries :=
  fun _ _ _ _ _ h => MapDataStore.vlistKeyvals_sublist h

theorem mapStore_listsPrefix_nil : (mapStore_lawful less noOverwrite).ListsPrefix [] := by
  intro s startKey count
  obtain ⟨s, rfl, -, hwf⟩ := s
  exact MapDataStore.vlistKeyvals_nil hwf startKey count

/-- A map database that allows overwriting accepts every put. -/
theorem mapStore_put_success (s : MapState less false) (k v : Bulk) :
    ((mapStore less false).put s k v).1 = .success := by
  obtain ⟨s, hs, hno, hwf⟩ := s
  simp only [mapStore, MapDataStore.put_eq, hno]
  rfl

end Store

/-- A map database with the default order and one entry. -/
def singleEntry (noOverwrite : Bool) (k v : Bulk) : MapState none noOverwrite :=
  ⟨{ MapDataStore.new with noOverwrite := noOverwrite, map := [(k, v)] }, rfl, rfl,
    List.pairwise_singleton _ _⟩

end Sdskv
