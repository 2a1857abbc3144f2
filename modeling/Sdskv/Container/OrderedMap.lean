import Mathlib.Order.Comparable
import Mathlib.Order.RelClasses
import Mathlib.Data.List.Pairwise
import Mathlib.Data.List.Sort
import Mathlib.Data.List.TakeWhile

/-!
# Ordered maps over a strict weak order

An ordered map is a list of entries that is strictly increasing in the key. The
order `lt` is only a strict weak order, so two different keys may be
incomparable; the map then treats them as one key. `IncompRel lt` is the
resulting equivalence of keys, and every operation reads its key up to it.

`assign` keeps the key that is already stored and replaces the value only, which
is what the subscript operator of an ordered container does. The lookup lemmas
`lookup_assign` and `lookup_erase` need no sortedness; `Sorted` is what turns a
lookup into membership.
-/

namespace OrderedMap

variable {α β : Type*}

section StrictWeakOrder

variable (lt : α → α → Prop) [IsStrictWeakOrder α lt]

theorem incompRel_trans {a b c : α} (hab : IncompRel lt a b) (hbc : IncompRel lt b c) :
    IncompRel lt a c :=
  IsStrictWeakOrder.incomp_trans a b c hab hbc

theorem incompRel_congr_left {a b : α} (h : IncompRel lt a b) (c : α) :
    IncompRel lt a c ↔ IncompRel lt b c :=
  ⟨fun hac => incompRel_trans lt h.symm hac, fun hbc => incompRel_trans lt h hbc⟩

theorem incompRel_congr_right {a b : α} (h : IncompRel lt a b) (c : α) :
    IncompRel lt c a ↔ IncompRel lt c b :=
  ⟨fun hca => incompRel_trans lt hca h, fun hcb => incompRel_trans lt hcb h.symm⟩

/-- A strict weak order is connected. -/
theorem lt_or_lt_of_lt {a c : α} (h : lt a c) (b : α) : lt a b ∨ lt b c := by
  by_contra hnot
  obtain ⟨hab, hbc⟩ := not_or.1 hnot
  have hba : ¬ lt b a := fun hba => hbc (trans_of lt hba h)
  have hcb : ¬ lt c b := fun hcb => hab (trans_of lt h hcb)
  exact (incompRel_trans lt ⟨hab, hba⟩ ⟨hbc, hcb⟩).1 h

end StrictWeakOrder

theorem incompRel_iff_eq (lt : α → α → Prop) [IsStrictTotalOrder α lt] {a b : α} :
    IncompRel lt a b ↔ a = b := by
  constructor
  · intro h
    exact Std.Trichotomous.trichotomous a b h.1 h.2
  · rintro rfl
    exact IncompRel.refl lt a

/-- A strict total order is a strict weak order: its equivalence is equality. -/
theorem isStrictWeakOrder_of_isStrictTotalOrder (lt : α → α → Prop)
    [IsStrictTotalOrder α lt] : IsStrictWeakOrder α lt :=
  isStrictWeakOrder_of_isOrderConnected

/-- The entries are strictly increasing in the key, so no two keys are
equivalent. -/
def Sorted (lt : α → α → Prop) (m : List (α × β)) : Prop :=
  m.Pairwise fun p q => lt p.1 q.1

section Operations

variable (lt : α → α → Prop) [DecidableRel lt]

/-- The stored entry whose key is equivalent to `k`. -/
def findEntry (m : List (α × β)) (k : α) : Option (α × β) :=
  m.find? fun p => decide (IncompRel lt p.1 k)

/-- The value stored under a key equivalent to `k`. -/
def lookup (m : List (α × β)) (k : α) : Option β :=
  (findEntry lt m k).map Prod.snd

/-- The number of entries whose key is equivalent to `k`. -/
def count (m : List (α × β)) (k : α) : ℕ :=
  m.countP fun p => decide (IncompRel lt p.1 k)

/-- Bind `k` to `v`. An entry with an equivalent key keeps its own key. -/
def assign : List (α × β) → α → β → List (α × β)
  | [], k, v => [(k, v)]
  | (k', v') :: m, k, v =>
      if lt k k' then (k, v) :: (k', v') :: m
      else if lt k' k then (k', v') :: assign m k v
      else (k', v) :: m

/-- Remove the entry whose key is equivalent to `k`. -/
def erase (m : List (α × β)) (k : α) : List (α × β) :=
  m.filter fun p => decide (¬ IncompRel lt p.1 k)

/-- Bind the pairs one after the other. -/
def assignAll (m pairs : List (α × β)) : List (α × β) :=
  pairs.foldl (fun m p => assign lt m p.1 p.2) m

/-- Remove the keys one after the other. -/
def eraseAll (m : List (α × β)) (ks : List α) : List (α × β) :=
  ks.foldl (fun m k => erase lt m k) m

/-- The entries from the first one whose key is strictly after `k`. -/
def upperBound (m : List (α × β)) (k : α) : List (α × β) :=
  m.dropWhile fun p => decide (¬ lt k p.1)

/-- The entries from the first one whose key is not before `k`. -/
def lowerBound (m : List (α × β)) (k : α) : List (α × β) :=
  m.dropWhile fun p => decide (lt p.1 k)

/-- The entries whose keys are strictly between `k` and `k'`. -/
def between (m : List (α × β)) (k k' : α) : List (α × β) :=
  m.filter fun p => decide (lt k p.1 ∧ lt p.1 k')

theorem upperBound_suffix (m : List (α × β)) (k : α) : upperBound lt m k <:+ m :=
  List.dropWhile_suffix _

theorem lowerBound_suffix (m : List (α × β)) (k : α) : lowerBound lt m k <:+ m :=
  List.dropWhile_suffix _

theorem upperBound_eq_nil_iff (m : List (α × β)) (k : α) :
    upperBound lt m k = [] ↔ ∀ p ∈ m, ¬ lt k p.1 := by
  rw [upperBound, List.dropWhile_eq_nil_iff]
  simp only [decide_eq_true_eq]

theorem lowerBound_eq_nil_iff (m : List (α × β)) (k : α) :
    lowerBound lt m k = [] ↔ ∀ p ∈ m, lt p.1 k := by
  rw [lowerBound, List.dropWhile_eq_nil_iff]
  simp only [decide_eq_true_eq]

omit [DecidableRel lt] in
theorem nodup_of_sorted [IsStrictOrder α lt] {m : List (α × β)} (h : Sorted lt m) :
    m.Nodup := by
  apply List.Pairwise.imp _ h
  rintro p q hpq rfl
  exact irrefl_of lt p.1 hpq

omit [DecidableRel lt] in
theorem nodup_keys_of_sorted [IsStrictOrder α lt] {m : List (α × β)} (h : Sorted lt m) :
    (m.map Prod.fst).Nodup := by
  refine List.Pairwise.map Prod.fst ?_ h
  rintro p q hpq heq
  rw [heq] at hpq
  exact irrefl_of lt q.1 hpq

@[simp] theorem lookup_nil (k : α) : lookup lt ([] : List (α × β)) k = none := rfl

theorem lookup_cons (p : α × β) (m : List (α × β)) (k : α) :
    lookup lt (p :: m) k =
      if IncompRel lt p.1 k then some p.2 else lookup lt m k := by
  by_cases h : IncompRel lt p.1 k <;> simp [lookup, findEntry, h]

theorem count_eq_zero_iff (m : List (α × β)) (k : α) :
    count lt m k = 0 ↔ lookup lt m k = none := by
  simp [count, lookup, findEntry]

theorem lookup_eq_none_iff (m : List (α × β)) (k : α) :
    lookup lt m k = none ↔ ∀ p ∈ m, ¬ IncompRel lt p.1 k := by
  simp [lookup, findEntry]

/-- A successful lookup names a stored entry with an equivalent key. -/
theorem exists_mem_of_lookup {m : List (α × β)} {k : α} {v : β}
    (h : lookup lt m k = some v) : ∃ k', IncompRel lt k' k ∧ (k', v) ∈ m := by
  obtain ⟨p, hp, rfl⟩ := Option.map_eq_some_iff.1 h
  refine ⟨p.1, ?_, List.mem_of_find?_eq_some hp⟩
  simpa using List.find?_some hp

/-- A binding of a new key is a new entry. -/
theorem length_assign_of_lookup_eq_none {m : List (α × β)} {k : α} (v : β)
    (h : lookup lt m k = none) : (assign lt m k v).length = m.length + 1 := by
  rw [lookup_eq_none_iff] at h
  induction m with
  | nil => rfl
  | cons p m ih =>
      obtain ⟨hp, hm⟩ := List.forall_mem_cons.1 h
      by_cases h₁ : lt k p.1
      · simp [assign, h₁]
      · by_cases h₂ : lt p.1 k
        · simp [assign, h₁, h₂, ih hm]
        · exact absurd ⟨h₂, h₁⟩ hp

theorem mem_assign {m : List (α × β)} {k : α} {v : β} {p : α × β}
    (h : p ∈ assign lt m k v) : p.1 = k ∨ p ∈ m ∨ ∃ q ∈ m, p.1 = q.1 := by
  induction m with
  | nil =>
      rw [assign, List.mem_singleton] at h
      exact Or.inl (by rw [h])
  | cons q m ih =>
      obtain ⟨k', v'⟩ := q
      rw [assign] at h
      split_ifs at h with h₁ h₂
      · rcases List.mem_cons.1 h with rfl | h
        · exact Or.inl rfl
        · exact Or.inr (Or.inl h)
      · rcases List.mem_cons.1 h with rfl | h
        · exact Or.inr (Or.inl (by simp))
        · rcases ih h with h | h | ⟨r, hr, h⟩
          · exact Or.inl h
          · exact Or.inr (Or.inl (List.mem_cons_of_mem _ h))
          · exact Or.inr (Or.inr ⟨r, List.mem_cons_of_mem _ hr, h⟩)
      · rcases List.mem_cons.1 h with rfl | h
        · exact Or.inr (Or.inr ⟨(k', v'), by simp, rfl⟩)
        · exact Or.inr (Or.inl (List.mem_cons_of_mem _ h))

theorem filter_eraseAll (f : α × β → Bool) (m : List (α × β)) (ks : List α) :
    (eraseAll lt m ks).filter f = eraseAll lt (m.filter f) ks := by
  induction ks generalizing m with
  | nil => rfl
  | cons k ks ih =>
      have hcomm : (erase lt m k).filter f = erase lt (m.filter f) k := by
        rw [erase, erase, List.filter_filter, List.filter_filter]
        congr 1
        funext p
        exact Bool.and_comm _ _
      rw [eraseAll, List.foldl_cons, ← eraseAll, ih, hcomm]
      rfl

/-- Removing keys that are not there changes nothing. -/
theorem eraseAll_eq_self {m : List (α × β)} {ks : List α}
    (h : ∀ k ∈ ks, ∀ p ∈ m, ¬ IncompRel lt p.1 k) : eraseAll lt m ks = m := by
  induction ks with
  | nil => rfl
  | cons k ks ih =>
      have hkeep : erase lt m k = m := by
        refine List.filter_eq_self.2 fun p hp => ?_
        simpa using h k List.mem_cons_self p hp
      rw [eraseAll, List.foldl_cons, hkeep, ← eraseAll]
      exact ih fun k' hk' => h k' (List.mem_cons_of_mem k hk')

section Sorted

omit [DecidableRel lt] in
/-- Two entries with equivalent keys are the same entry. -/
theorem eq_of_incompRel {m : List (α × β)} (h : Sorted lt m) {p q : α × β} (hp : p ∈ m)
    (hq : q ∈ m) (hinc : IncompRel lt p.1 q.1) : p = q := by
  induction m with
  | nil => cases hp
  | cons r m ih =>
      obtain ⟨hhead, htail⟩ := List.pairwise_cons.1 h
      rcases List.mem_cons.1 hp with rfl | hp'
      · rcases List.mem_cons.1 hq with rfl | hq'
        · rfl
        · exact absurd (hhead q hq') hinc.1
      · rcases List.mem_cons.1 hq with rfl | hq'
        · exact absurd (hhead p hp') hinc.2
        · exact ih htail hp' hq'

theorem sorted_erase {m : List (α × β)} (h : Sorted lt m) (k : α) :
    Sorted lt (erase lt m k) :=
  List.Pairwise.sublist List.filter_sublist h

variable [IsStrictWeakOrder α lt]

theorem sorted_assign {m : List (α × β)} (h : Sorted lt m) (k : α) (v : β) :
    Sorted lt (assign lt m k v) := by
  induction m with
  | nil => exact List.pairwise_singleton _ _
  | cons p m ih =>
      obtain ⟨k', v'⟩ := p
      obtain ⟨hhead, htail⟩ := List.pairwise_cons.1 h
      rw [assign]
      split_ifs with h₁ h₂
      · refine List.pairwise_cons.2 ⟨?_, h⟩
        intro q hq
        rcases List.mem_cons.1 hq with rfl | hq
        · exact h₁
        · exact trans_of lt h₁ (hhead q hq)
      · refine List.pairwise_cons.2 ⟨?_, ih htail⟩
        intro q hq
        rcases mem_assign lt hq with hk | hq | ⟨r, hr, hk⟩
        · simpa [hk] using h₂
        · exact hhead q hq
        · simpa [hk] using hhead r hr
      · exact List.pairwise_cons.2 ⟨hhead, htail⟩

/-- Equivalent keys read the same value. -/
theorem lookup_congr {k k' : α} (h : IncompRel lt k k') (m : List (α × β)) :
    lookup lt m k = lookup lt m k' := by
  induction m with
  | nil => rfl
  | cons p m ih =>
      rw [lookup_cons, lookup_cons, ih]
      simp only [incompRel_congr_right lt h p.1]

theorem lookup_assign (m : List (α × β)) (k : α) (v : β) (k' : α) :
    lookup lt (assign lt m k v) k' =
      if IncompRel lt k k' then some v else lookup lt m k' := by
  induction m with
  | nil => rw [assign, lookup_cons]
  | cons p m ih =>
      obtain ⟨l, w⟩ := p
      rw [assign]
      split_ifs with h₁ h₂ h₃ h₄ h₅
      · rw [lookup_cons, if_pos h₂]
      · rw [lookup_cons, if_neg h₂]
      · rw [lookup_cons, ih, if_pos h₄, if_neg]
        intro hl
        exact (incompRel_trans lt hl h₄.symm).1 h₃
      · rw [lookup_cons, ih, if_neg h₄, ← lookup_cons lt (l, w)]
      · rw [lookup_cons, if_pos ((incompRel_congr_left lt ⟨h₃, h₁⟩ k').2 h₅)]
      · have hl : ¬ IncompRel lt l k' := fun hl =>
          h₅ ((incompRel_congr_left lt ⟨h₃, h₁⟩ k').1 hl)
        rw [lookup_cons, if_neg hl, lookup_cons, if_neg hl]

/-- Of two bindings of one key the last one counts. -/
theorem assign_assign (m : List (α × β)) (k : α) (v w : β) :
    assign lt (assign lt m k v) k w = assign lt m k w := by
  have hirrefl : ¬ lt k k := irrefl_of lt k
  induction m with
  | nil => simp [assign, hirrefl]
  | cons p m ih =>
      obtain ⟨l, u⟩ := p
      by_cases h₁ : lt k l
      · simp [assign, h₁, hirrefl]
      · by_cases h₂ : lt l k
        · simp [assign, h₁, h₂, ih]
        · simp [assign, h₁, h₂]

theorem lookup_erase (m : List (α × β)) (k k' : α) :
    lookup lt (erase lt m k) k' =
      if IncompRel lt k k' then none else lookup lt m k' := by
  induction m with
  | nil => simp [erase]
  | cons p m ih =>
      by_cases hp : IncompRel lt p.1 k
      · have herase : erase lt (p :: m) k = erase lt m k := by simp [erase, hp]
        rw [herase, ih, lookup_cons]
        split_ifs with h₁ h₂
        · rfl
        · exact absurd (incompRel_trans lt hp.symm h₂) h₁
        · rfl
      · have herase : erase lt (p :: m) k = p :: erase lt m k := by simp [erase, hp]
        rw [herase, lookup_cons, ih, lookup_cons]
        split_ifs with h₁ h₂
        · exact absurd (incompRel_trans lt h₁ h₂.symm) hp
        · rfl
        · rfl
        · rfl

/-- The sorted map with the bindings of a list of entries; the first entry of a key
counts. -/
def ofEntries (m : List (α × β)) : List (α × β) :=
  m.foldr (fun p m' => assign lt m' p.1 p.2) []

theorem sorted_ofEntries (m : List (α × β)) : Sorted lt (ofEntries lt m) := by
  induction m with
  | nil => exact List.Pairwise.nil
  | cons p m ih => exact sorted_assign lt ih p.1 p.2

theorem lookup_ofEntries (m : List (α × β)) (k : α) :
    lookup lt (ofEntries lt m) k = lookup lt m k := by
  induction m with
  | nil => rfl
  | cons p m ih =>
      rw [lookup_cons, ← ih]
      exact lookup_assign lt (ofEntries lt m) p.1 p.2 k

/-- In a sorted map an entry is found under its own key. -/
theorem lookup_of_mem {m : List (α × β)} (h : Sorted lt m) {k : α} {v : β}
    (hkv : (k, v) ∈ m) : lookup lt m k = some v := by
  induction m with
  | nil => simp at hkv
  | cons p m ih =>
      obtain ⟨hhead, htail⟩ := List.pairwise_cons.1 h
      rw [lookup_cons]
      rcases List.mem_cons.1 hkv with rfl | hkv
      · rw [if_pos (IncompRel.refl lt k)]
      · rw [if_neg, ih htail hkv]
        intro hp
        exact hp.1 (hhead _ hkv)

/-- Binding an entry again changes nothing. -/
theorem assign_of_mem {m : List (α × β)} (h : Sorted lt m) {k : α} {v : β}
    (hkv : (k, v) ∈ m) : assign lt m k v = m := by
  induction m with
  | nil => cases hkv
  | cons p m ih =>
      obtain ⟨hhead, htail⟩ := List.pairwise_cons.1 h
      rcases List.mem_cons.1 hkv with rfl | hkv
      · rw [assign, if_neg (irrefl_of lt k), if_neg (irrefl_of lt k)]
      · have hlt : lt p.1 k := hhead _ hkv
        rw [assign, if_neg (asymm_of lt hlt), if_pos hlt, ih htail hkv]

theorem erase_cons_self {p : α × β} {m : List (α × β)} (h : Sorted lt (p :: m)) :
    erase lt (p :: m) p.1 = m := by
  have hkeep : ∀ q ∈ m, decide (¬ IncompRel lt q.1 p.1) = true := by
    intro q hq
    have hlt : lt p.1 q.1 := (List.pairwise_cons.1 h).1 q hq
    simpa using fun hinc : IncompRel lt q.1 p.1 => hinc.2 hlt
  rw [erase, List.filter_cons_of_neg (by simp), List.filter_eq_self.2 hkeep]

/-- Removing the keys of an initial segment leaves the rest. -/
theorem eraseAll_append {m m' : List (α × β)} (h : Sorted lt (m ++ m')) :
    eraseAll lt (m ++ m') (m.map Prod.fst) = m' := by
  induction m with
  | nil => rfl
  | cons p m ih =>
      rw [List.cons_append] at h ⊢
      rw [List.map_cons, eraseAll, List.foldl_cons, erase_cons_self lt h, ← eraseAll]
      exact ih (List.pairwise_cons.1 h).2

/-- In a sorted map the entries after a key are a final segment. -/
theorem upperBound_eq_filter {m : List (α × β)} (h : Sorted lt m) (k : α) :
    upperBound lt m k = m.filter fun p => decide (lt k p.1) := by
  induction m with
  | nil => rfl
  | cons p m ih =>
      obtain ⟨hhead, htail⟩ := List.pairwise_cons.1 h
      by_cases hp : lt k p.1
      · have hall : ∀ q ∈ p :: m, decide (lt k q.1) = true := by
          intro q hq
          rcases List.mem_cons.1 hq with rfl | hq
          · simpa using hp
          · simpa using trans_of lt hp (hhead q hq)
        rw [upperBound, List.dropWhile_cons, if_neg (by simp [hp]),
          List.filter_eq_self.2 hall]
      · rw [upperBound, List.dropWhile_cons, if_pos (by simp [hp]), ← upperBound, ih htail,
          List.filter_cons_of_neg (by simp [hp])]

/-- A sorted map consists of the entries before a key and those from the key on. -/
theorem filter_append_lowerBound {m : List (α × β)} (h : Sorted lt m) (k : α) :
    (m.filter fun p => decide (lt p.1 k)) ++ lowerBound lt m k = m := by
  induction m with
  | nil => rfl
  | cons p m ih =>
      obtain ⟨hhead, htail⟩ := List.pairwise_cons.1 h
      by_cases hp : lt p.1 k
      · rw [lowerBound, List.dropWhile_cons, if_pos (by simpa using hp), ← lowerBound,
          List.filter_cons_of_pos (by simpa using hp), List.cons_append, ih htail]
      · have hall : ∀ q ∈ p :: m, ¬ decide (lt q.1 k) = true := by
          intro q hq
          rcases List.mem_cons.1 hq with rfl | hq
          · simpa using hp
          · simpa using fun hqk => hp (trans_of lt (hhead q hq) hqk)
        rw [lowerBound, List.dropWhile_cons, if_neg (by simpa using hp),
          List.filter_eq_nil_iff.2 hall, List.nil_append]

theorem not_lt_of_mem_lowerBound {m : List (α × β)} (h : Sorted lt m) {k : α} {p : α × β}
    (hp : p ∈ lowerBound lt m k) : ¬ lt p.1 k := by
  intro hlt
  have hsplit := h
  rw [← filter_append_lowerBound lt h k, Sorted, List.pairwise_append] at hsplit
  have hmem : p ∈ m.filter fun p => decide (lt p.1 k) := by
    have hm : p ∈ m := by
      rw [← filter_append_lowerBound lt h k]
      exact List.mem_append_right _ hp
    exact List.mem_filter.2 ⟨hm, by simpa using hlt⟩
  exact irrefl_of lt p.1 (hsplit.2.2 p hmem p hp)

/-- The entries from a key on are those that are not before it. -/
theorem lowerBound_eq_filter {m : List (α × β)} (h : Sorted lt m) (k : α) :
    lowerBound lt m k = m.filter fun p => decide (¬ lt p.1 k) := by
  have hbefore : (m.filter fun p => decide (lt p.1 k)).filter
      (fun p => decide (¬ lt p.1 k)) = [] := by
    rw [List.filter_filter, List.filter_eq_nil_iff]
    simp
  have hafter : (lowerBound lt m k).filter (fun p => decide (¬ lt p.1 k)) =
      lowerBound lt m k := by
    rw [List.filter_eq_self]
    intro p hp
    simpa using not_lt_of_mem_lowerBound lt h hp
  conv_rhs => rw [← filter_append_lowerBound lt h k]
  rw [List.filter_append, hbefore, hafter, List.nil_append]

/-- The entries after `k` are those between `k` and `k'`, and those from `k'` on that are
after `k`. -/
theorem upperBound_eq_between_append {m : List (α × β)} (h : Sorted lt m) (k k' : α) :
    upperBound lt m k =
      between lt m k k' ++ (lowerBound lt m k').filter fun p => decide (lt k p.1) := by
  have hbetween : between lt m k k' =
      (m.filter fun p => decide (lt p.1 k')).filter fun p => decide (lt k p.1) := by
    rw [between, List.filter_filter]
    simp only [Bool.decide_and]
  rw [hbetween, ← List.filter_append, filter_append_lowerBound lt h,
    upperBound_eq_filter lt h]

section First

variable {m rest : List (α × β)} {k' : α} {q : α × β}

omit [IsStrictWeakOrder α lt] in
theorem sorted_of_lowerBound (h : Sorted lt m) (hq : lowerBound lt m k' = q :: rest) :
    Sorted lt (q :: rest) := by
  rw [← hq]
  exact h.sublist (List.dropWhile_sublist _)

theorem mem_iff_of_lowerBound (h : Sorted lt m) (hq : lowerBound lt m k' = q :: rest)
    (p : α × β) : p ∈ q :: rest ↔ p ∈ m ∧ ¬ lt p.1 k' := by
  rw [← hq, lowerBound_eq_filter lt h, List.mem_filter, decide_eq_true_eq]

/-- If the first entry that is not before `k'` is after `k`, the entries after `k` are
those between and then all from that entry on. -/
theorem upperBound_of_lt (h : Sorted lt m) (hq : lowerBound lt m k' = q :: rest) {k : α}
    (hlt : lt k q.1) : upperBound lt m k = between lt m k k' ++ q :: rest := by
  have hsorted := List.pairwise_cons.1 (sorted_of_lowerBound lt h hq)
  have hall : ∀ p ∈ q :: rest, decide (lt k p.1) = true := by
    intro p hp
    rcases List.mem_cons.1 hp with rfl | hp
    · simpa using hlt
    · simpa using trans_of lt hlt (hsorted.1 p hp)
  rw [upperBound_eq_between_append lt h k k', hq, List.filter_eq_self.2 hall]

/-- If it is not after `k`, nothing is between. -/
theorem between_eq_nil_of_not_lt (h : Sorted lt m) (hq : lowerBound lt m k' = q :: rest)
    {k : α} (hlt : ¬ lt k q.1) : between lt m k k' = [] := by
  refine List.filter_eq_nil_iff.2 fun p _ hp => ?_
  rcases of_decide_eq_true hp with ⟨hkp, hpk⟩
  have hqk := ((mem_iff_of_lowerBound lt h hq q).1 List.mem_cons_self).2
  rcases lt_or_lt_of_lt lt hpk q.1 with hpq | hq'
  · exact hlt (trans_of lt hkp hpq)
  · exact hqk hq'

theorem upperBound_of_not_lt (h : Sorted lt m) (hq : lowerBound lt m k' = q :: rest)
    {k : α} (hlt : ¬ lt k q.1) :
    upperBound lt m k = rest.filter fun p => decide (lt k p.1) := by
  rw [upperBound_eq_between_append lt h k k', between_eq_nil_of_not_lt lt h hq hlt, hq,
    List.nil_append, List.filter_cons_of_neg (by simpa using hlt)]

end First

end Sorted

section Total

variable [IsStrictTotalOrder α lt]

theorem lookup_eq_some_iff {m : List (α × β)} (h : Sorted lt m) {k : α} {v : β} :
    lookup lt m k = some v ↔ (k, v) ∈ m := by
  have := isStrictWeakOrder_of_isStrictTotalOrder lt
  constructor
  · intro hk
    obtain ⟨k', hk', hmem⟩ := exists_mem_of_lookup lt hk
    rwa [(incompRel_iff_eq lt).1 hk'] at hmem
  · intro hmem
    exact lookup_of_mem lt h hmem

theorem lookup_isSome_iff (m : List (α × β)) (k : α) :
    (lookup lt m k).isSome ↔ k ∈ m.map Prod.fst := by
  rw [← Option.ne_none_iff_isSome, ne_eq, lookup_eq_none_iff]
  simp only [incompRel_iff_eq, List.mem_map]
  push Not
  rfl

theorem lookup_assign_of_total [DecidableEq α] (m : List (α × β)) (k : α) (v : β) (k' : α) :
    lookup lt (assign lt m k v) k' = if k = k' then some v else lookup lt m k' := by
  have := isStrictWeakOrder_of_isStrictTotalOrder lt
  rw [lookup_assign]
  simp only [incompRel_iff_eq]

theorem lookup_erase_of_total [DecidableEq α] (m : List (α × β)) (k k' : α) :
    lookup lt (erase lt m k) k' = if k = k' then none else lookup lt m k' := by
  have := isStrictWeakOrder_of_isStrictTotalOrder lt
  rw [lookup_erase]
  simp only [incompRel_iff_eq]

/-- Leave out the first entry if it has the key `k`. -/
def skipKey [DecidableEq α] (k : α) : List (α × β) → List (α × β)
  | [] => []
  | p :: m => if p.1 = k then m else p :: m

omit [DecidableRel lt] [IsStrictTotalOrder α lt] in
theorem skipKey_sublist [DecidableEq α] (k : α) (m : List (α × β)) :
    (skipKey k m).Sublist m := by
  cases m with
  | nil => exact List.Sublist.refl _
  | cons p m =>
      rw [skipKey]
      split_ifs
      · exact List.sublist_cons_self p m
      · exact List.Sublist.refl _

omit [DecidableRel lt] in
/-- Where no entry comes before `k`, leaving out the first entry leaves out the key. -/
theorem mem_skipKey [DecidableEq α] {m : List (α × β)} (h : Sorted lt m) {k : α}
    (hleast : k ∈ m.map Prod.fst → ∀ p ∈ m, ¬ lt p.1 k) (p : α × β) :
    p ∈ skipKey k m ↔ p ∈ m ∧ p.1 ≠ k := by
  cases m with
  | nil => simp [skipKey]
  | cons q m =>
      have hafter : ∀ p ∈ m, lt q.1 p.1 := fun p hp => List.rel_of_pairwise_cons h hp
      rw [skipKey]
      split_ifs with hq
      · subst hq
        constructor
        · intro hp
          refine ⟨List.mem_cons_of_mem q hp, fun heq => ?_⟩
          exact irrefl_of lt q.1 (heq ▸ hafter p hp)
        · rintro ⟨hp, hne⟩
          exact (List.mem_cons.1 hp).resolve_left fun heq => hne (heq ▸ rfl)
      · refine ⟨fun hp => ⟨hp, fun heq => ?_⟩, fun hp => hp.1⟩
        -- an entry with the key `k` would stand behind `q`
        rcases List.mem_cons.1 hp with rfl | hp
        · exact hq heq
        · have hk : k ∈ (q :: m).map Prod.fst :=
            List.mem_map.2 ⟨p, List.mem_cons_of_mem q hp, heq⟩
          exact hleast hk q List.mem_cons_self (heq ▸ hafter p hp)

/-- The entries after a key are those from the first one on that is not before it, without
the key itself. -/
theorem filter_after_eq [DecidableEq α] {m : List (α × β)} (h : Sorted lt m) (k : α) :
    (m.filter fun p => decide (lt k p.1)) =
      skipKey k (m.filter fun p => decide (¬ lt p.1 k)) := by
  have hnot : ∀ p : α × β, lt k p.1 → ¬ lt p.1 k := fun p => asymm_of lt
  have hfilter : (m.filter fun p => decide (lt k p.1)) =
      (m.filter fun p => decide (¬ lt p.1 k)).filter fun p => decide (lt k p.1) := by
    rw [List.filter_filter]
    apply List.filter_congr
    intro p _
    by_cases hp : lt k p.1 <;> simp [hp, hnot]
  have hsorted : Sorted lt (m.filter fun p => decide (¬ lt p.1 k)) :=
    List.Pairwise.sublist List.filter_sublist h
  have hmem : ∀ p ∈ m.filter fun p => decide (¬ lt p.1 k), ¬ lt p.1 k := by
    intro p hp
    simpa using (List.mem_filter.1 hp).2
  rw [hfilter]
  cases hentries : m.filter fun p => decide (¬ lt p.1 k) with
  | nil => rfl
  | cons p it =>
      rw [hentries] at hsorted hmem
      obtain ⟨hhead, -⟩ := List.pairwise_cons.1 hsorted
      by_cases hp : p.1 = k
      · have hit : ∀ q ∈ it, decide (lt k q.1) = true := by
          intro q hq
          simpa [hp] using hhead q hq
        have hirrefl : ¬ lt k p.1 := hp ▸ irrefl_of lt p.1
        rw [skipKey, if_pos hp, List.filter_cons_of_neg (by simpa using hirrefl),
          List.filter_eq_self.2 hit]
      · have hkp : lt k p.1 := by
          rcases trichotomous_of lt k p.1 with hkp | hkp | hkp
          · exact hkp
          · exact absurd hkp.symm hp
          · exact absurd hkp (hmem p List.mem_cons_self)
        have hall : ∀ q ∈ p :: it, decide (lt k q.1) = true := by
          intro q hq
          rcases List.mem_cons.1 hq with rfl | hq
          · simpa using hkp
          · simpa using trans_of lt hkp (hhead q hq)
        rw [skipKey, if_neg hp, List.filter_eq_self.2 hall]

omit [DecidableRel lt] in
/-- Two lists that are increasing for one order each are equal when they have the same
elements and the orders agree on them. -/
theorem eq_iff_of_pairwise {lt' : α → α → Prop} [IsStrictTotalOrder α lt'] {l l' : List α}
    (h : l.Pairwise lt) (h' : l'.Pairwise lt') :
    l = l' ↔ (∀ a, a ∈ l ↔ a ∈ l') ∧ ∀ a ∈ l, ∀ b ∈ l, (lt a b ↔ lt' a b) := by
  constructor
  · rintro rfl
    have hself : ∀ a ∈ l, (lt a a ↔ lt' a a) := fun a _ =>
      iff_of_false (irrefl_of lt a) (irrefl_of lt' a)
    have hbefore : l.Pairwise fun a b => (lt a b ↔ lt' a b) :=
      (h.and h').imp fun hab => iff_of_true hab.1 hab.2
    have hafter : l.Pairwise (flip fun a b => (lt a b ↔ lt' a b)) :=
      (h.and h').imp fun hab => iff_of_false (asymm_of lt hab.1) (asymm_of lt' hab.2)
    have hagree := List.Pairwise.forall_of_forall_of_flip hself hbefore hafter
    exact ⟨fun a => Iff.rfl, fun a ha b hb => hagree ha hb⟩
  · rintro ⟨hmem, hagree⟩
    have hl : l.Pairwise lt' :=
      List.Pairwise.imp_of_mem (fun ha hb hab => (hagree _ ha _ hb).1 hab) h
    exact List.Pairwise.eq_of_mem_iff hl h' hmem

end Total

end Operations

end OrderedMap
