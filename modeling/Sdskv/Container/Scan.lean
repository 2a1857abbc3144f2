import Sdskv.Container.OrderedMap

/-!
# Scanning a changing ordered map

A scan reads an ordered map page by page and keeps a position only, the key of the last
entry it was given. A page is made of the first `n` entries beyond the position, in the
map as it is when the page is read; between two pages the map may change in any way.

`Scanned lt n pos pages` says that `pages` are the pages of a scan that has come to the
position `pos`, each with the map it was read from. The argument is about positions in
the order and not about entries: everything that was given out is at or before the
position, and a key at or before the position that was there all along was given out.
-/

namespace OrderedMap

variable {α β : Type*}

/-- A key is beyond a position; every key is beyond the beginning. -/
def Beyond (lt : α → α → Prop) : Option α → α → Prop
  | none, _ => True
  | some a, k => lt a k

instance Beyond.decidable (lt : α → α → Prop) [DecidableRel lt] :
    (pos : Option α) → (k : α) → Decidable (Beyond lt pos k)
  | none, _ => isTrue trivial
  | some a, k => inferInstanceAs (Decidable (lt a k))

/-- The position after a page. -/
def advance (pos : Option α) (page : List (α × β)) : Option α :=
  (page.getLast?.map Prod.fst).or pos

section Scan

variable (lt : α → α → Prop) [DecidableRel lt]

/-- The first `n` entries beyond a position. -/
def pageBeyond (pos : Option α) (n : ℕ) (m : List (α × β)) : List (α × β) :=
  (m.filter fun p => decide (Beyond lt pos p.1)).take n

/-- The pages of a scan, each with the map that it was read from. -/
inductive Scanned (n : ℕ) : Option α → List (List (α × β) × List (α × β)) → Prop
  | nil : Scanned n none []
  | snoc {pos : Option α} {pages : List (List (α × β) × List (α × β))}
      {m : List (α × β)} (h : Scanned n pos pages) (hm : Sorted lt m) :
      Scanned n (advance pos (pageBeyond lt pos n m))
        (pages ++ [(m, pageBeyond lt pos n m)])

variable {lt}

theorem pageBeyond_sublist (pos : Option α) (n : ℕ) (m : List (α × β)) :
    (pageBeyond lt pos n m).Sublist m :=
  (List.take_sublist _ _).trans List.filter_sublist

theorem length_pageBeyond_le (pos : Option α) (n : ℕ) (m : List (α × β)) :
    (pageBeyond lt pos n m).length ≤ n := by
  simp [pageBeyond]

theorem sorted_pageBeyond {m : List (α × β)} (hm : Sorted lt m) (pos : Option α) (n : ℕ) :
    Sorted lt (pageBeyond lt pos n m) :=
  List.Pairwise.sublist (pageBeyond_sublist pos n m) hm

theorem beyond_of_mem_pageBeyond {pos : Option α} {n : ℕ} {m : List (α × β)} {p : α × β}
    (h : p ∈ pageBeyond lt pos n m) : Beyond lt pos p.1 := by
  have hfilter := List.mem_of_mem_take h
  simpa using (List.mem_filter.1 hfilter).2

variable [IsStrictWeakOrder α lt]

omit [DecidableRel lt] in
/-- What is at or before a position is before everything beyond it. -/
theorem lt_of_beyond {pos : Option α} {k k' : α} (h : ¬ Beyond lt pos k)
    (h' : Beyond lt pos k') : lt k k' := by
  cases pos with
  | none => exact absurd trivial h
  | some a => exact (lt_or_lt_of_lt lt h' k).resolve_left h

omit [DecidableRel lt] in
theorem beyond_congr {k k' : α} (h : IncompRel lt k k') (pos : Option α) :
    Beyond lt pos k ↔ Beyond lt pos k' := by
  cases pos with
  | none => exact Iff.rfl
  | some a =>
      constructor
      · intro hk
        exact (lt_or_lt_of_lt lt hk k').resolve_right h.2
      · intro hk'
        exact (lt_or_lt_of_lt lt hk' k).resolve_right h.1

omit [DecidableRel lt] in
/-- A page is at or before the position after it. -/
theorem not_beyond_advance {page : List (α × β)} (hpage : Sorted lt page) (pos : Option α)
    {p : α × β} (hp : p ∈ page) : ¬ Beyond lt (advance pos page) p.1 := by
  obtain ⟨init, z, rfl⟩ := (List.eq_nil_or_concat' page).resolve_left (List.ne_nil_of_mem hp)
  have hlast : advance pos (init ++ [z]) = some z.1 := by simp [advance]
  rw [hlast]
  rcases List.mem_append.1 hp with hinit | hz
  · exact asymm_of lt ((List.pairwise_append.1 hpage).2.2 p hinit z List.mem_cons_self)
  · rw [List.mem_singleton.1 hz]
    exact irrefl_of lt z.1

omit [DecidableRel lt] in
/-- A scan does not go back. -/
theorem not_beyond_advance_of_not_beyond {page : List (α × β)} {pos : Option α}
    (hpage : ∀ p ∈ page, Beyond lt pos p.1) {k : α} (hk : ¬ Beyond lt pos k) :
    ¬ Beyond lt (advance pos page) k := by
  rcases List.eq_nil_or_concat' page with rfl | ⟨init, z, rfl⟩
  · exact hk
  · have hlast : advance pos (init ++ [z]) = some z.1 := by simp [advance]
    rw [hlast]
    exact asymm_of lt (lt_of_beyond hk (hpage z (by simp)))

omit [IsStrictWeakOrder α lt] in
/-- A page leaves out only what is beyond the position after it. -/
theorem mem_pageBeyond {m : List (α × β)} (hm : Sorted lt m) {pos : Option α} {n : ℕ}
    (hn : 1 ≤ n) {p : α × β} (hp : p ∈ m) (hbeyond : Beyond lt pos p.1)
    (hnot : ¬ Beyond lt (advance pos (pageBeyond lt pos n m)) p.1) :
    p ∈ pageBeyond lt pos n m := by
  set l := m.filter fun p => decide (Beyond lt pos p.1) with hl
  have hmem : p ∈ l := List.mem_filter.2 ⟨hp, by simpa using hbeyond⟩
  have hsorted : Sorted lt (l.take n ++ l.drop n) := by
    rw [List.take_append_drop]
    exact List.Pairwise.sublist List.filter_sublist hm
  rw [← List.take_append_drop n l] at hmem
  rcases List.mem_append.1 hmem with htake | hdrop
  · exact htake
  · have hne : l.take n ≠ [] := by
      rw [ne_eq, List.take_eq_nil_iff, not_or]
      exact ⟨by omega, List.ne_nil_of_mem (List.mem_of_mem_drop hdrop)⟩
    obtain ⟨init, z, hpage⟩ := (List.eq_nil_or_concat' (l.take n)).resolve_left hne
    have hlt : lt z.1 p.1 :=
      (List.pairwise_append.1 hsorted).2.2 z (by simp [hpage]) p hdrop
    have hlast : advance pos (pageBeyond lt pos n m) = some z.1 := by
      rw [pageBeyond, ← hl, hpage]
      simp [advance]
    rw [hlast] at hnot
    exact absurd hlt hnot

omit [IsStrictWeakOrder α lt] in
/-- A short page leaves out nothing. -/
theorem mem_pageBeyond_of_short {m : List (α × β)} {pos : Option α} {n : ℕ}
    (hshort : (pageBeyond lt pos n m).length < n) {p : α × β} (hp : p ∈ m)
    (hbeyond : Beyond lt pos p.1) : p ∈ pageBeyond lt pos n m := by
  have hlength : (m.filter fun p => decide (Beyond lt pos p.1)).length < n := by
    rw [pageBeyond, List.length_take] at hshort
    omega
  rw [pageBeyond, List.take_of_length_le (by omega)]
  exact List.mem_filter.2 ⟨hp, by simpa using hbeyond⟩

namespace Scanned

variable {n : ℕ} {pos : Option α} {pages : List (List (α × β) × List (α × β))}

theorem not_beyond (h : Scanned lt n pos pages) :
    ∀ p ∈ pages.flatMap Prod.snd, ¬ Beyond lt pos p.1 := by
  induction h with
  | nil => simp
  | snoc h hm ih =>
      intro p hp
      rw [List.flatMap_append, List.mem_append] at hp
      rcases hp with hp | hp
      · exact not_beyond_advance_of_not_beyond (fun q => beyond_of_mem_pageBeyond) (ih p hp)
      · exact not_beyond_advance (sorted_pageBeyond hm _ n) _ (by simpa using hp)

/-- The pages of a scan follow each other in strictly increasing order. -/
theorem sorted (h : Scanned lt n pos pages) : Sorted lt (pages.flatMap Prod.snd) := by
  induction h with
  | nil => exact List.Pairwise.nil
  | snoc h hm ih =>
      rw [List.flatMap_append]
      apply List.pairwise_append.2
      refine ⟨ih, by simpa [Sorted] using sorted_pageBeyond hm _ n, ?_⟩
      intro p hp q hq
      exact lt_of_beyond (h.not_beyond p hp) (beyond_of_mem_pageBeyond (by simpa using hq))

omit [IsStrictWeakOrder α lt] in
/-- A page is a part of a sorted map. -/
theorem page_sublist (h : Scanned lt n pos pages) :
    ∀ q ∈ pages, Sorted lt q.1 ∧ q.2.Sublist q.1 := by
  induction h with
  | nil => simp
  | @snoc pos pages m h hm ih =>
      intro q hq
      rcases List.mem_append.1 hq with hq | hq
      · exact ih q hq
      · rw [List.mem_singleton.1 hq]
        exact ⟨hm, pageBeyond_sublist pos n m⟩

/-- A key at or before the position that was there at every page was given out. -/
theorem covers (h : Scanned lt n pos pages) (hn : 1 ≤ n) {k : α}
    (hk : ∀ q ∈ pages, ∃ p ∈ q.1, IncompRel lt p.1 k) (hpos : ¬ Beyond lt pos k) :
    ∃ p ∈ pages.flatMap Prod.snd, IncompRel lt p.1 k := by
  induction h with
  | nil => exact absurd trivial hpos
  | @snoc pos pages m h hm ih =>
      rw [List.flatMap_append]
      by_cases hbeyond : Beyond lt pos k
      · obtain ⟨p, hp, hpk⟩ := hk (m, pageBeyond lt pos n m) (by simp)
        have hmem : p ∈ pageBeyond lt pos n m :=
          mem_pageBeyond hm hn hp ((beyond_congr hpk pos).2 hbeyond)
            (mt (beyond_congr hpk _).1 hpos)
        exact ⟨p, List.mem_append_right _ (by simpa using hmem), hpk⟩
      · obtain ⟨p, hp, hpk⟩ := ih (fun q hq => hk q (List.mem_append_left _ hq)) hbeyond
        exact ⟨p, List.mem_append_left _ hp, hpk⟩

/-- After a short page, every key that was there at every page was given out. -/
theorem covers_of_short (h : Scanned lt n pos pages) (hn : 1 ≤ n) {m : List (α × β)}
    (hshort : (pageBeyond lt pos n m).length < n) {k : α}
    (hk : ∀ q ∈ pages ++ [(m, pageBeyond lt pos n m)], ∃ p ∈ q.1, IncompRel lt p.1 k) :
    ∃ p ∈ (pages ++ [(m, pageBeyond lt pos n m)]).flatMap Prod.snd, IncompRel lt p.1 k := by
  rw [List.flatMap_append]
  by_cases hbeyond : Beyond lt pos k
  · obtain ⟨p, hp, hpk⟩ := hk (m, pageBeyond lt pos n m) (by simp)
    have hmem : p ∈ pageBeyond lt pos n m :=
      mem_pageBeyond_of_short hshort hp ((beyond_congr hpk pos).2 hbeyond)
    exact ⟨p, List.mem_append_right _ (by simpa using hmem), hpk⟩
  · obtain ⟨p, hp, hpk⟩ :=
      h.covers hn (fun q hq => hk q (List.mem_append_left _ hq)) hbeyond
    exact ⟨p, List.mem_append_left _ hp, hpk⟩

end Scanned

/-- In a sorted map exactly one entry has a key that is present. -/
theorem length_filter_incompRel {m : List (α × β)} (hm : Sorted lt m) {k : α}
    (hk : ∃ p ∈ m, IncompRel lt p.1 k) :
    (m.filter fun p => decide (IncompRel lt p.1 k)).length = 1 := by
  obtain ⟨p, hp, hpk⟩ := hk
  have hmem : ∀ q, q ∈ m.filter (fun p => decide (IncompRel lt p.1 k)) ↔ q ∈ [p] := by
    intro q
    rw [List.mem_filter, decide_eq_true_iff, List.mem_singleton]
    constructor
    · rintro ⟨hq, hqk⟩
      exact eq_of_incompRel lt hm hq hp (incompRel_trans lt hqk hpk.symm)
    · rintro rfl
      exact ⟨hp, hpk⟩
  have hnodup : (m.filter fun p => decide (IncompRel lt p.1 k)).Nodup :=
    (nodup_of_sorted lt hm).filter _
  exact ((List.perm_ext_iff_of_nodup hnodup (List.nodup_singleton p)).2 hmem).length_eq

end Scan

end OrderedMap
