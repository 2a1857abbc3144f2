import Mathlib.Data.List.Induction
import Mathlib.Data.List.Infix
import Sdskv.Path.Directory

/-!
# File systems

A file system says which strings name a directory and what `mkdir` makes of it. Two strings
may name one directory, so only a few laws are asked for: a directory is below directories, has
the entries that every directory has (as `.` and `..`), and `mkdir` makes it when the one above
it is there and takes none away. Nothing else keeps a directory from being made.

`has_mkdirAll` says which calls make all their directories: those that come in the order of
their depths and leave none out. In `FileSystem.named` every directory has one name, so that
nothing is there but what was made.
-/

namespace Path

universe u

variable {α : Type u}

namespace Directory

/-- The directory above `d`; a directory without components is its own. -/
def parent (d : Directory α) : Directory α := { d with components := d.components.dropLast }

/-- The entry `c` of `d`. -/
def child (d : Directory α) (c : List α) : Directory α :=
  { d with components := d.components ++ [c] }

theorem parent_child (d : Directory α) (c : List α) : (d.child c).parent = d := by
  rw [parent, child, List.dropLast_concat]

theorem parent_of_components_eq_nil {d : Directory α} (h : d.components = []) :
    d.parent.components = [] := by
  rw [parent, h, List.dropLast_nil]

theorem parent_join {d e : Directory α} (h : e.components ≠ []) :
    (d.join e).parent = { d with components := d.components ++ e.components.dropLast } := by
  rw [parent, join, List.dropLast_append_of_ne_nil h]

theorem depth_parent_lt {d : Directory α} (h : d.components ≠ []) : d.parent.depth < d.depth := by
  have hpos := List.length_pos_iff.2 h
  rw [depth, depth, parent, List.length_dropLast]
  omega

end Directory

/-- A file system in which every directory has the entries `everywhere`. -/
structure FileSystem (α : Type u) (everywhere : List (List α)) where
  State : Type u
  has : State → Directory α → Bool
  mkdir : State → Directory α → State
  has_start {fs : State} {d : Directory α} : d.components = [] → has fs d
  has_parent {fs : State} {d : Directory α} : has fs d → has fs d.parent
  has_child {fs : State} {d : Directory α} {c : List α} :
    has fs d → c ∈ everywhere → has fs (d.child c)
  has_mkdir {fs : State} {d e : Directory α} : has fs e → has (mkdir fs d) e
  has_mkdir_self {fs : State} {d : Directory α} : has fs d.parent → has (mkdir fs d) d

namespace FileSystem

section Laws

variable {everywhere : List (List α)} {F : FileSystem α everywhere} {fs : F.State}
variable {d e : Directory α} {ds : List (Directory α)}

/-- Make directories one after the other. -/
def mkdirAll (F : FileSystem α everywhere) (fs : F.State) (ds : List (Directory α)) : F.State :=
  ds.foldl F.mkdir fs

theorem mkdirAll_concat : F.mkdirAll fs (ds ++ [d]) = F.mkdir (F.mkdirAll fs ds) d :=
  List.foldl_concat F.mkdir fs d ds

/-- What is above a directory is there. -/
theorem has_of_atOrAbove (h : F.has fs e) (hde : d.AtOrAbove e) : F.has fs d := by
  obtain ⟨absolute, components⟩ := d
  obtain ⟨absolute', components'⟩ := e
  obtain ⟨habsolute, rest, hrest⟩ := hde
  simp only at habsolute hrest
  subst habsolute hrest
  induction rest using List.reverseRecOn with
  | nil => rwa [List.append_nil] at h
  | append_singleton rest c ih =>
      refine ih ?_
      have hparent := F.has_parent h
      rwa [Directory.parent, ← List.append_assoc, List.dropLast_concat] at hparent

/-- Below a directory are the paths through what every directory has. -/
theorem has_of_everywhere (h : F.has fs d) {cs : List (List α)} (hcs : ∀ c ∈ cs, c ∈ everywhere) :
    F.has fs { d with components := d.components ++ cs } := by
  induction cs using List.reverseRecOn with
  | nil => rwa [List.append_nil]
  | append_singleton cs c ih =>
      have hchild := F.has_child (ih fun c hc => hcs c (by simp [hc])) (hcs c (by simp))
      rwa [Directory.child, List.append_assoc] at hchild

/-- Directories that come in the order of their depths, each with the one above it, are all
made. -/
theorem has_mkdirAll (hdepths : (ds.map Directory.depth).Pairwise (· ≤ ·))
    (hparents : ∀ d ∈ ds, d.parent.components = [] ∨ d.parent ∈ ds) :
    ∀ d ∈ ds, F.has (F.mkdirAll fs ds) d := by
  induction ds using List.reverseRecOn with
  | nil => simp
  | append_singleton ds x ih =>
      rw [List.map_append, List.pairwise_append] at hdepths
      obtain ⟨hdepths, -, hlast⟩ := hdepths
      have hdeepest : ∀ d ∈ ds, d.depth ≤ x.depth := fun d hd =>
        hlast d.depth (List.mem_map_of_mem hd) x.depth (by simp)
      -- what is above a directory is not as deep as the last one
      have habove : ∀ d : Directory α, d.depth ≤ x.depth → d.components ≠ [] →
          d.parent ∈ ds ++ [x] → d.parent ∈ ds := by
        intro d hd hne hmem
        rcases List.mem_append.1 hmem with hmem | hmem
        · exact hmem
        · have hless := Directory.depth_parent_lt hne
          rw [List.mem_singleton.1 hmem] at hless
          omega
      have hinit : ∀ d ∈ ds, F.has (F.mkdirAll fs ds) d := by
        refine ih hdepths fun d hd => ?_
        by_cases hne : d.components = []
        · exact Or.inl (Directory.parent_of_components_eq_nil hne)
        · refine (hparents d (List.mem_append_left _ hd)).imp_right ?_
          exact habove d (hdeepest d hd) hne
      have hx : F.has (F.mkdirAll fs ds) x.parent := by
        by_cases hne : x.components = []
        · exact F.has_start (Directory.parent_of_components_eq_nil hne)
        · rcases hparents x (by simp) with hroot | hmem
          · exact F.has_start hroot
          · exact hinit _ (habove x le_rfl hne hmem)
      intro d hd
      rw [mkdirAll_concat]
      rcases List.mem_append.1 hd with hd | hd
      · exact F.has_mkdir (hinit d hd)
      · rw [List.mem_singleton.1 hd]
        exact F.has_mkdir_self hx

end Laws

section Named

variable [DecidableEq α] {everywhere : List (List α)} {made : List (Directory α)}
variable {d : Directory α}

/-- Each component of `d` leads to an entry that every directory has or to a directory that was
made. -/
def Resolves (everywhere : List (List α)) (made : List (Directory α)) (d : Directory α) : Prop :=
  ∀ front ∈ d.components.inits, (∀ c ∈ front.getLast?, c ∈ everywhere) ∨
    front ≠ [] ∧ { d with components := front } ∈ made

instance : Decidable (Resolves everywhere made d) :=
  inferInstanceAs (Decidable (∀ front ∈ d.components.inits, _ ∨ _))

omit [DecidableEq α] in
theorem Resolves.mono {made' : List (Directory α)} (h : Resolves everywhere made d)
    (hmade : made ⊆ made') : Resolves everywhere made' d := fun front hfront =>
  (h front hfront).imp_right fun hmem => ⟨hmem.1, hmade hmem.2⟩

omit [DecidableEq α] in
theorem Resolves.parent (h : Resolves everywhere made d) : Resolves everywhere made d.parent := by
  intro front hfront
  refine h front ?_
  rw [List.mem_inits] at hfront ⊢
  exact hfront.trans (List.dropLast_prefix d.components)

omit [DecidableEq α] in
theorem resolves_of_start (h : d.components = []) : Resolves everywhere made d := by
  intro front hfront
  rw [h, List.mem_inits, List.prefix_nil] at hfront
  subst hfront
  exact Or.inl (by simp)

omit [DecidableEq α] in
/-- A directory is found when the one above it is and its last component leads on. -/
theorem resolves_of_parent (h : Resolves everywhere made d.parent)
    (hlast : (∀ c ∈ d.components.getLast?, c ∈ everywhere) ∨ d ∈ made) :
    Resolves everywhere made d := by
  by_cases hne : d.components = []
  · exact resolves_of_start hne
  · intro front hfront
    rw [List.mem_inits] at hfront
    rw [← List.dropLast_append_getLast hne, List.prefix_concat_iff,
      List.dropLast_append_getLast hne] at hfront
    rcases hfront with rfl | hfront
    · exact hlast.imp_right fun hmem => ⟨hne, hmem⟩
    · exact h front ((List.mem_inits _ _).2 hfront)

/-- Add a directory to those that were made. -/
def mkdirNamed (everywhere : List (List α)) (made : List (Directory α)) (d : Directory α) :
    List (Directory α) :=
  if Resolves everywhere made d.parent then d :: made else made

theorem subset_mkdirNamed : made ⊆ mkdirNamed everywhere made d := by
  rw [mkdirNamed]
  split_ifs
  · exact List.subset_cons_self d made
  · exact List.Subset.refl made

theorem mem_foldl_mkdirNamed {ds : List (Directory α)}
    (h : d ∈ ds.foldl (mkdirNamed everywhere) made) : d ∈ made ∨ d ∈ ds := by
  induction ds generalizing made with
  | nil => exact Or.inl h
  | cons e ds ih =>
      rcases ih h with hmem | hmem
      · rw [mkdirNamed] at hmem
        split_ifs at hmem
        · rcases List.mem_cons.1 hmem with rfl | hmem
          · exact Or.inr List.mem_cons_self
          · exact Or.inl hmem
        · exact Or.inl hmem
      · exact Or.inr (List.mem_cons_of_mem e hmem)

/-- The file system in which a directory has one name, but for the entries that every directory
has: its states are the directories that were made. -/
def named (everywhere : List (List α)) : FileSystem α everywhere where
  State := List (Directory α)
  has made d := decide (Resolves everywhere made d)
  mkdir := mkdirNamed everywhere
  has_start h := decide_eq_true (resolves_of_start h)
  has_parent h := decide_eq_true (of_decide_eq_true h).parent
  has_child h hc := by
    refine decide_eq_true (resolves_of_parent ?_ (Or.inl ?_))
    · rw [Directory.parent_child]
      exact of_decide_eq_true h
    · simpa [Directory.child] using hc
  has_mkdir h := decide_eq_true ((of_decide_eq_true h).mono subset_mkdirNamed)
  has_mkdir_self h := by
    refine decide_eq_true (resolves_of_parent ?_ (Or.inr ?_))
    · exact (of_decide_eq_true h).mono subset_mkdirNamed
    · rw [mkdirNamed, if_pos (of_decide_eq_true h)]
      exact List.mem_cons_self

/-- No directory was made. -/
def nothingMade (everywhere : List (List α)) : (named everywhere).State :=
  ([] : List (Directory α))

/-- A directory that is there was made, if its last component is not everywhere. -/
theorem mem_of_named_has {ds : List (Directory α)}
    (h : (named everywhere).has ((named everywhere).mkdirAll (nothingMade everywhere) ds) d)
    {c : List α} (hlast : d.components.getLast? = some c) (hc : c ∉ everywhere) : d ∈ ds := by
  have hresolves : Resolves everywhere (ds.foldl (mkdirNamed everywhere) []) d :=
    of_decide_eq_true h
  rcases hresolves d.components ((List.mem_inits _ _).2 List.prefix_rfl) with hall | ⟨-, hmem⟩
  · exact absurd (hall c hlast) hc
  · exact (mem_foldl_mkdirNamed hmem).resolve_left List.not_mem_nil

end Named

end FileSystem

end Path
