import Mathlib.Data.List.Basic
import Mathlib.Data.List.Induction

/-!
# Directories as lists of components

A string names a directory by its components, which a separator keeps apart, and starts at
the root when it begins with the separator. Repeated separators and a separator at the end do
not count. `ofString_append_sep` and `ofString_append_of_getLast` are the two ways to write
the directory `t` below the directory `s`.

The directories at or above one have its first components. Each that is not the start itself
is what a string names in front of one of its separators, which `exists_of_components_eq_append`
says.
-/

namespace Path

variable {α : Type*} [DecidableEq α]

/-- A directory: whether it starts at the root, and the way down from there. -/
structure Directory (α : Type*) where
  absolute : Bool
  components : List (List α)
  deriving DecidableEq

namespace Directory

/-- The directory that a string names. -/
def ofString (sep : α) (s : List α) : Directory α where
  absolute := s.head? == some sep
  components := (s.splitOn sep).filter (· ≠ [])

/-- The directory `e` below the directory `d`. -/
def join (d e : Directory α) : Directory α :=
  { d with components := d.components ++ e.components }

/-- `d` is the directory `e` or one of its ancestors. -/
def AtOrAbove (d e : Directory α) : Prop :=
  d.absolute = e.absolute ∧ d.components <+: e.components

/-- The number of components. -/
def depth (d : Directory α) : ℕ := d.components.length

omit [DecidableEq α] in
theorem AtOrAbove.depth_le {d e : Directory α} (h : d.AtOrAbove e) : d.depth ≤ e.depth :=
  h.2.length_le

variable (sep : α)

theorem components_append_sep (s t : List α) :
    (ofString sep (s ++ sep :: t)).components =
      (ofString sep s).components ++ (ofString sep t).components := by
  simp only [ofString, List.splitOn_append_cons_self, List.filter_append]

theorem components_concat_sep (s : List α) :
    (ofString sep (s ++ [sep])).components = (ofString sep s).components := by
  rw [components_append_sep]
  exact List.append_nil _

theorem absolute_append {s : List α} (hs : s ≠ []) (t : List α) :
    (ofString sep (s ++ t)).absolute = (ofString sep s).absolute := by
  cases s with
  | nil => exact absurd rfl hs
  | cons c s => rfl

theorem ofString_append_sep {s : List α} (hs : s ≠ []) (t : List α) :
    ofString sep (s ++ sep :: t) = (ofString sep s).join (ofString sep t) := by
  rw [join, ← components_append_sep, ← absolute_append sep hs (sep :: t)]

/-- A separator at the end does not count. -/
theorem ofString_concat_sep {s : List α} (hs : s ≠ []) :
    ofString sep (s ++ [sep]) = ofString sep s := by
  rw [ofString_append_sep sep hs, join]
  exact congrArg _ (List.append_nil _)

theorem ofString_append_of_getLast {s : List α} (hs : s.getLast? = some sep) (t : List α) :
    ofString sep (s ++ t) = (ofString sep s).join (ofString sep t) := by
  have hne : s ≠ [] := by
    rintro rfl
    cases hs
  have hcomponents : (ofString sep (s ++ t)).components =
      (ofString sep s).components ++ (ofString sep t).components := by
    obtain ⟨q, rfl⟩ := List.getLast?_eq_some_iff.1 hs
    rw [List.append_assoc, List.singleton_append, components_append_sep, components_concat_sep]
  rw [join, ← hcomponents, ← absolute_append sep hne t]

/-- A directory below another one is the same with a separator at its end. -/
theorem join_concat_sep (d : Directory α) (t : List α) :
    d.join (ofString sep (t ++ [sep])) = d.join (ofString sep t) := by
  rw [join, join, components_concat_sep]

theorem ofString_atOrAbove {s : List α} (hs : s ≠ []) (t : List α) :
    (ofString sep s).AtOrAbove (ofString sep (s ++ sep :: t)) := by
  rw [ofString_append_sep sep hs]
  exact ⟨rfl, List.prefix_append _ _⟩

/-- The separators of a string are where its chunks are cut. -/
theorem exists_of_splitOn_eq_append {s : List α} {front back : List (List α)}
    (h : s.splitOn sep = front ++ back) (hfront : front ≠ []) (hback : back ≠ []) :
    ∃ q r, s = q ++ sep :: r ∧ q.splitOn sep = front := by
  induction s generalizing front with
  | nil =>
      rw [List.splitOn_nil] at h
      have hlength := congrArg List.length h
      have hpos := List.length_pos_iff.2 hfront
      have hpos' := List.length_pos_iff.2 hback
      rw [List.length_append, List.length_singleton] at hlength
      omega
  | cons x s ih =>
      obtain ⟨chunk, front, rfl⟩ := List.exists_cons_of_ne_nil hfront
      rw [List.splitOn_cons_eq_if_modifyHead] at h
      by_cases hx : x = sep
      · subst hx
        rw [if_pos (beq_self_eq_true x), List.cons_append] at h
        obtain ⟨rfl, hrest⟩ := List.cons_eq_cons.1 h
        by_cases hnil : front = []
        · subst hnil
          exact ⟨[], s, rfl, List.splitOn_nil x⟩
        · obtain ⟨q, r, rfl, hq⟩ := ih hrest hnil
          refine ⟨x :: q, r, rfl, ?_⟩
          rw [List.splitOn_cons_eq_if_modifyHead, if_pos (beq_self_eq_true x), hq]
      · have hne : ¬ (x == sep) = true := by simpa using hx
        rw [if_neg hne] at h
        obtain ⟨head, tail, hsplit⟩ := List.exists_cons_of_ne_nil (List.splitOn_ne_nil sep s)
        rw [hsplit, List.modifyHead_cons, List.cons_append] at h
        obtain ⟨rfl, rfl⟩ := List.cons_eq_cons.1 h
        obtain ⟨q, r, rfl, hq⟩ := ih (hsplit.trans (List.cons_append).symm) (by simp)
        refine ⟨x :: q, r, rfl, ?_⟩
        rw [List.splitOn_cons_eq_if_modifyHead, if_neg hne, hq, List.modifyHead_cons]

/-- A string that names a directory below another one has the name of that one in front of a
separator. -/
theorem exists_of_components_eq_append {s : List α} {front back : List (List α)}
    (h : (ofString sep s).components = front ++ back) (hfront : front ≠ []) (hback : back ≠ []) :
    ∃ q r, s = q ++ sep :: r ∧ q ≠ [] ∧ (ofString sep q).components = front := by
  obtain ⟨chunks, chunks', hsplit, hfilter, hfilter'⟩ := List.filter_eq_append_iff.1 h
  have hchunks : chunks ≠ [] := by
    rintro rfl
    exact hfront hfilter.symm
  have hchunks' : chunks' ≠ [] := by
    rintro rfl
    exact hback hfilter'.symm
  obtain ⟨q, r, hs, hq⟩ := exists_of_splitOn_eq_append sep hsplit hchunks hchunks'
  have hcomponents : (ofString sep q).components = front := by
    rw [← hfilter, ← hq]
    rfl
  refine ⟨q, r, hs, ?_, hcomponents⟩
  rintro rfl
  rw [ofString, List.splitOn_nil] at hcomponents
  exact hfront hcomponents.symm

theorem flatten_splitOn (s : List α) : (s.splitOn sep).flatten = s.filter (· ≠ sep) := by
  induction s with
  | nil => rfl
  | cons x s ih =>
      rw [List.splitOn_cons_eq_if_modifyHead]
      by_cases hx : x = sep
      · rw [if_pos (by simpa using hx), List.flatten_cons, List.nil_append, ih,
          List.filter_cons_of_neg (by simpa using hx)]
      · rw [if_neg (by simpa using hx), List.filter_cons_of_pos (by simpa using hx), ← ih]
        obtain ⟨head, tail, hsplit⟩ := List.exists_cons_of_ne_nil (List.splitOn_ne_nil sep s)
        rw [hsplit]
        rfl

/-- The components have all characters but the separators. -/
theorem flatten_components (s : List α) :
    (ofString sep s).components.flatten = s.filter (· ≠ sep) := by
  rw [← flatten_splitOn]
  exact List.flatten_filter_ne_nil

/-- What is in front of the last character is another directory. -/
theorem ofString_concat_ne {s p : List α} (hp : p <+: s) {c : α} (hc : c ≠ sep) :
    ofString sep (s ++ [c]) ≠ ofString sep p := by
  intro heq
  have hflatten := flatten_components sep (s ++ [c])
  rw [heq, flatten_components, List.filter_append,
    List.filter_cons_of_pos (by simpa using hc), List.filter_nil] at hflatten
  have hlength := congrArg List.length hflatten
  have hle := (hp.sublist.filter (· ≠ sep)).length_le
  rw [List.length_append, List.length_singleton] at hlength
  omega

/-- A character that is no separator goes on with the last chunk. -/
theorem exists_splitOn_concat (s : List α) {c : α} (hc : c ≠ sep) :
    ∃ front last, s.splitOn sep = front ++ [last] ∧
      (s ++ [c]).splitOn sep = front ++ [last ++ [c]] := by
  induction s with
  | nil =>
      refine ⟨[], [], List.splitOn_nil sep, ?_⟩
      rw [List.nil_append, List.splitOn_cons_eq_if_modifyHead, if_neg (by simpa using hc),
        List.splitOn_nil]
      rfl
  | cons x s ih =>
      obtain ⟨front, last, hs, hconcat⟩ := ih
      rw [List.cons_append, List.splitOn_cons_eq_if_modifyHead,
        List.splitOn_cons_eq_if_modifyHead, hs, hconcat]
      split_ifs with hx
      · exact ⟨[] :: front, last, rfl, rfl⟩
      · cases front with
        | nil => exact ⟨[], x :: last, rfl, rfl⟩
        | cons head front => exact ⟨(x :: head) :: front, last, rfl, rfl⟩

/-- A character at the end changes or adds the last component. -/
theorem components_concat (s : List α) {c : α} (hc : c ≠ sep) :
    ∃ front last, (ofString sep (s ++ [c])).components = front ++ [last ++ [c]] ∧
      (ofString sep s).components = front ++ [last].filter (· ≠ []) := by
  obtain ⟨front, last, hs, hconcat⟩ := exists_splitOn_concat sep s hc
  refine ⟨front.filter (· ≠ []), last, ?_, ?_⟩
  · rw [ofString, hconcat, List.filter_append, List.filter_cons_of_pos (by simp)]
    rfl
  · rw [ofString, hs, List.filter_append]

theorem dropLast_components_concat (s : List α) (c : α) :
    (ofString sep (s ++ [c])).components.dropLast <+: (ofString sep s).components := by
  by_cases hc : c = sep
  · rw [hc, components_concat_sep]
    exact List.dropLast_prefix _
  · obtain ⟨front, last, hconcat, hs⟩ := components_concat sep s hc
    rw [hconcat, hs, List.dropLast_concat]
    exact List.prefix_append _ _

theorem depth_le_concat (s : List α) (c : α) :
    (ofString sep s).depth ≤ (ofString sep (s ++ [c])).depth := by
  by_cases hc : c = sep
  · exact Nat.le_of_eq (by rw [depth, depth, hc, components_concat_sep])
  · obtain ⟨front, last, hconcat, hs⟩ := components_concat sep s hc
    rw [depth, depth, hconcat, hs, List.length_append, List.length_append]
    exact Nat.add_le_add_left (List.length_filter_le _ _) _

/-- A longer string leads at least as deep. -/
theorem depth_le_of_prefix {s t : List α} (h : s <+: t) :
    (ofString sep s).depth ≤ (ofString sep t).depth := by
  obtain ⟨r, rfl⟩ := h
  induction r using List.reverseRecOn with
  | nil => exact Nat.le_of_eq (by rw [List.append_nil])
  | append_singleton r c ih =>
      rw [← List.append_assoc]
      exact Nat.le_trans ih (depth_le_concat sep (s ++ r) c)

/-- Only separators have no component. -/
theorem components_ne_nil {s : List α} {c : α} (hmem : c ∈ s) (hc : c ≠ sep) :
    (ofString sep s).components ≠ [] := by
  intro hnil
  have hflatten := flatten_components sep s
  rw [hnil, List.flatten_nil] at hflatten
  have hfilter : c ∈ s.filter (· ≠ sep) := List.mem_filter.2 ⟨hmem, by simpa using hc⟩
  rw [← hflatten] at hfilter
  cases hfilter

end Directory

end Path
