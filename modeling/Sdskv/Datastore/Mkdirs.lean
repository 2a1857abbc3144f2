import Sdskv.Common.Types
import Sdskv.Path.FileSystem

/-!
# What `mkdirs` creates

`mkdirs` calls `mkdir` with what is in front of each slash of its argument, from the second
character on, and then with the argument. The slash at its end is removed before. Directories
are compared by their components and by whether they start at the root; the root and the current
directory, which have no component, are there already.

`mkdirsCorrect_iff` says when the calls are those for the ancestors and for the path itself: the
path is not the root, and it is not cut by the buffer, which holds 255 characters.
`has_mkdirs` says what is in a file system after the calls, also when the last character of the
path was cut off.
-/

namespace Sdskv

open Path

/-- The character that separates the components of a path. -/
def slash : UInt8 := 47

/-- The entries that every directory has: itself and the one above it. -/
def dots : List Bulk := [[46], [46, 46]]

/-- A path or a name: a string that was made from a `const char*`. -/
abbrev CString := { s : Bulk // (0 : UInt8) ∉ s }

/-- The loop of `mkdirs` over what is behind the character that it starts with: `mkdir` is
called with what is before each slash. -/
def mkdirsLoop : Bulk → Bulk → List Bulk
  | _, [] => []
  | done, c :: rest =>
      if c = slash then done :: mkdirsLoop (done ++ [c]) rest else mkdirsLoop (done ++ [c]) rest

/-- The calls of `mkdir` for the string in the buffer of `mkdirs`. -/
def mkdirsCalls (tmp : Bulk) : List Bulk := mkdirsLoop (tmp.take 1) (tmp.drop 1) ++ [tmp]

/-- The string in the buffer after the slash at its end was removed. -/
def withoutLastSlash (tmp : Bulk) (len : ℕ) : Bulk :=
  if tmp[len - 1]? = some slash then tmp.take (len - 1) else tmp

/-- `mkdirs`: the arguments of the calls of `mkdir`. The buffer has 256 characters, of which
`snprintf` fills 255, and `len` is the length of the whole string. An access outside it is
`none`. -/
def mkdirs (dir : Bulk) : Option (List Bulk) :=
  let len := dir.length
  if 1 ≤ len ∧ len ≤ 256 then some (mkdirsCalls (withoutLastSlash (dir.take 255) len)) else none

/-- The calls create the ancestors of the path in the order of their depths, and then the path. -/
structure CreatesPath (dir : Bulk) (calls : List Bulk) : Prop where
  atOrAbove : ∀ call ∈ calls,
    (Directory.ofString slash call).AtOrAbove (Directory.ofString slash dir)
  depths : (calls.map fun call => (Directory.ofString slash call).depth).Pairwise (· ≤ ·)
  ancestors : ∀ d : Directory UInt8, d.AtOrAbove (Directory.ofString slash dir) →
    d.components ≠ [] → d ∈ calls.map (Directory.ofString slash)
  last : calls.getLast?.map (Directory.ofString slash) = some (Directory.ofString slash dir)

/-- `mkdirs` stays in its buffer and creates the path. -/
def MkdirsCorrect (dir : CString) : Prop :=
  ∃ calls, mkdirs dir.1 = some calls ∧ CreatesPath dir.1 calls

theorem mkdirs_eq_some_iff {dir : Bulk} {calls : List Bulk} (hne : dir ≠ []) :
    mkdirs dir = some calls ↔
      dir.length ≤ 256 ∧ calls = mkdirsCalls (withoutLastSlash (dir.take 255) dir.length) := by
  have hpos : 1 ≤ dir.length := List.length_pos_iff.2 hne
  rw [mkdirs]
  split_ifs with hfits
  · rw [Option.some.injEq, and_iff_right hfits.2, eq_comm]
  · refine iff_of_false (by simp) fun h => hfits ⟨hpos, h.1⟩

/-- `mkdirs` stays in its buffer exactly when the string is not empty and has at most 256
characters. -/
theorem mkdirs_isSome_iff {dir : Bulk} (hne : dir ≠ []) :
    (∃ calls, mkdirs dir = some calls) ↔ dir.length ≤ 256 := by
  simp only [mkdirs_eq_some_iff hne, exists_and_left, exists_eq, and_true]

/-- The property depends on the directory that the path names. -/
theorem CreatesPath.congr {dir tmp : Bulk} {calls : List Bulk} (h : CreatesPath tmp calls)
    (heq : Directory.ofString slash tmp = Directory.ofString slash dir) :
    CreatesPath dir calls where
  atOrAbove := heq ▸ h.atOrAbove
  depths := h.depths
  ancestors := heq ▸ h.ancestors
  last := heq ▸ h.last

section Calls

/-- `y` goes on behind a slash after `x`. -/
def Below (x y : Bulk) : Prop := ∃ r, y = x ++ slash :: r

theorem prefix_of_mem_mkdirsLoop {done rest x : Bulk} (h : x ∈ mkdirsLoop done rest) :
    done <+: x := by
  induction rest generalizing done with
  | nil => cases h
  | cons c rest ih =>
      rw [mkdirsLoop] at h
      split_ifs at h
      · rcases List.mem_cons.1 h with rfl | h
        · exact List.prefix_rfl
        · exact (List.prefix_append done [c]).trans (ih h)
      · exact (List.prefix_append done [c]).trans (ih h)

/-- Each call goes on from the earlier ones. -/
theorem pairwise_mkdirsLoop (done rest : Bulk) :
    (mkdirsLoop done rest ++ [done ++ rest]).Pairwise Below := by
  induction rest generalizing done with
  | nil => exact List.pairwise_singleton _ _
  | cons c rest ih =>
      have hstep : done ++ c :: rest = done ++ [c] ++ rest := by simp
      rw [mkdirsLoop, hstep]
      split_ifs with hc
      · subst hc
        refine List.Pairwise.cons (fun y hy => ?_) (ih (done ++ [slash]))
        have hprefix : done ++ [slash] <+: y := by
          rcases List.mem_append.1 hy with hy | hy
          · exact prefix_of_mem_mkdirsLoop hy
          · rw [List.mem_singleton.1 hy]
            exact List.prefix_append _ _
        obtain ⟨r, rfl⟩ := hprefix
        exact ⟨r, by simp⟩
      · exact ih (done ++ [c])

/-- There is a call for each slash. -/
theorem mem_mkdirsLoop (done q r : Bulk) : done ++ q ∈ mkdirsLoop done (q ++ slash :: r) := by
  induction q generalizing done with
  | nil =>
      rw [List.nil_append, mkdirsLoop, if_pos rfl, List.append_nil]
      exact List.mem_cons_self
  | cons c q ih =>
      have hmem := ih (done ++ [c])
      rw [List.append_assoc, List.singleton_append] at hmem
      rw [List.cons_append, mkdirsLoop]
      split_ifs
      · exact List.mem_cons_of_mem _ hmem
      · exact hmem

theorem pairwise_mkdirsCalls (tmp : Bulk) : (mkdirsCalls tmp).Pairwise Below := by
  have hpairwise := pairwise_mkdirsLoop (tmp.take 1) (tmp.drop 1)
  rwa [List.take_append_drop] at hpairwise

variable {tmp : Bulk} (hne : tmp ≠ [])
include hne

theorem ne_nil_of_mem_mkdirsCalls {call : Bulk} (h : call ∈ mkdirsCalls tmp) : call ≠ [] := by
  obtain ⟨c, rest, rfl⟩ := List.exists_cons_of_ne_nil hne
  rcases List.mem_append.1 h with h | h
  · obtain ⟨r, rfl⟩ := prefix_of_mem_mkdirsLoop h
    simp
  · rw [List.mem_singleton.1 h]
    exact hne

theorem mem_mkdirsCalls {q r : Bulk} (htmp : tmp = q ++ slash :: r) (hq : q ≠ []) :
    q ∈ mkdirsCalls tmp := by
  obtain ⟨c, q, rfl⟩ := List.exists_cons_of_ne_nil hq
  subst htmp
  exact List.mem_append_left _ (mem_mkdirsLoop [c] q r)

omit hne in
theorem prefix_of_mem_mkdirsCalls {call : Bulk} (h : call ∈ mkdirsCalls tmp) : call <+: tmp := by
  rcases List.mem_append.1 h with h | h
  · have hpairwise := pairwise_mkdirsCalls tmp
    rw [mkdirsCalls] at hpairwise
    obtain ⟨r, hr⟩ := (List.pairwise_append.1 hpairwise).2.2 call h tmp List.mem_cons_self
    exact ⟨slash :: r, hr.symm⟩
  · rw [List.mem_singleton.1 h]

/-- The calls for the string in the buffer. -/
theorem createsPath_mkdirsCalls : CreatesPath tmp (mkdirsCalls tmp) := by
  have hpairwise := pairwise_mkdirsCalls tmp
  have hbelow : ∀ call ∈ mkdirsLoop (tmp.take 1) (tmp.drop 1), Below call tmp := by
    intro call hcall
    rw [mkdirsCalls] at hpairwise
    exact (List.pairwise_append.1 hpairwise).2.2 call hcall tmp List.mem_cons_self
  constructor
  · intro call hcall
    have hcallNe := ne_nil_of_mem_mkdirsCalls hne hcall
    rcases List.mem_append.1 hcall with hloop | hself
    · obtain ⟨r, hr⟩ := hbelow call hloop
      rw [hr]
      exact Directory.ofString_atOrAbove slash hcallNe r
    · rw [List.mem_singleton.1 hself]
      exact ⟨rfl, List.prefix_rfl⟩
  · rw [List.pairwise_map]
    refine hpairwise.imp_of_mem fun hx _ hxy => ?_
    obtain ⟨r, rfl⟩ := hxy
    exact (Directory.ofString_atOrAbove slash (ne_nil_of_mem_mkdirsCalls hne hx) r).depth_le
  · rintro ⟨absolute, components⟩ ⟨habsolute, back, hback⟩ hd
    simp only at habsolute hback hd
    by_cases hnil : back = []
    · -- the path itself
      rw [hnil, List.append_nil] at hback
      rw [habsolute, hback]
      exact List.mem_map_of_mem (List.mem_append_right _ List.mem_cons_self)
    · obtain ⟨q, r, htmp, hq, hcomponents⟩ :=
        Directory.exists_of_components_eq_append slash hback.symm hd hnil
      refine List.mem_map.2 ⟨q, mem_mkdirsCalls hne htmp hq, ?_⟩
      rw [htmp, Directory.absolute_append slash hq] at habsolute
      rw [habsolute, ← hcomponents]
  · rw [mkdirsCalls, List.getLast?_concat]
    rfl

end Calls

section Buffer

variable {dir : Bulk}

/-- The last call is with the string in the buffer. -/
theorem CreatesPath.ofString_eq {tmp : Bulk} (h : CreatesPath dir (mkdirsCalls tmp)) :
    Directory.ofString slash tmp = Directory.ofString slash dir := by
  have hlast := h.last
  rw [mkdirsCalls, List.getLast?_concat] at hlast
  exact Option.some.inj hlast

/-- The slash at the end does not count, but in the root. -/
theorem ofString_withoutLastSlash (hne : dir ≠ []) (hroot : dir ≠ [slash]) :
    withoutLastSlash dir dir.length ≠ [] ∧
      Directory.ofString slash (withoutLastSlash dir dir.length) =
        Directory.ofString slash dir := by
  rw [withoutLastSlash, ← List.getLast?_eq_getElem?]
  split_ifs with hlast
  · obtain ⟨q, rfl⟩ := List.getLast?_eq_some_iff.1 hlast
    have hq : q ≠ [] := by
      rintro rfl
      exact hroot rfl
    have htake : (q ++ [slash]).take ((q ++ [slash]).length - 1) = q := by simp
    rw [htake]
    exact ⟨hq, (Directory.ofString_concat_sep slash hq).symm⟩
  · exact ⟨hne, rfl⟩

theorem withoutLastSlash_root : withoutLastSlash [slash] 1 = [] := rfl

/-- A string that fills the buffer is not shortened further. -/
theorem withoutLastSlash_of_length {tmp : Bulk} (h : tmp.length = 255) :
    withoutLastSlash tmp 256 = tmp := by
  rw [withoutLastSlash, List.getElem?_eq_none (by omega), if_neg (by simp)]

/-- A path that fits into the buffer with its null. -/
theorem createsPath_iff_of_fits (hne : dir ≠ []) (hfits : dir.length ≤ 255) :
    CreatesPath dir (mkdirsCalls (withoutLastSlash (dir.take 255) dir.length)) ↔
      dir ≠ [slash] := by
  rw [List.take_of_length_le hfits]
  constructor
  · rintro h rfl
    have heq := h.ofString_eq
    rw [show [slash].length = 1 from rfl, withoutLastSlash_root] at heq
    exact absurd (congrArg Directory.absolute heq) (by decide)
  · intro hroot
    obtain ⟨htmp, heq⟩ := ofString_withoutLastSlash hne hroot
    exact (createsPath_mkdirsCalls htmp).congr heq

/-- The last character of a path of 256 characters is not in the buffer. -/
theorem exists_of_fills (hlength : dir.length = 256) :
    ∃ q c, dir = q ++ [c] ∧ q ≠ [] ∧ withoutLastSlash (dir.take 255) dir.length = q := by
  have hne : dir ≠ [] := List.ne_nil_of_length_pos (by omega)
  obtain ⟨q, c, rfl⟩ : ∃ q c, dir = q ++ [c] :=
    ⟨dir.dropLast, dir.getLast hne, (List.dropLast_append_getLast hne).symm⟩
  have hq : q.length = 255 := by
    rw [List.length_append, List.length_singleton] at hlength
    omega
  have htake : (q ++ [c]).take 255 = q := by rw [← hq, List.take_left]
  refine ⟨q, c, rfl, List.ne_nil_of_length_pos (by omega), ?_⟩
  rw [hlength, htake, withoutLastSlash_of_length hq]

/-- A path whose last character is not in the buffer. -/
theorem createsPath_iff_of_fills (hlength : dir.length = 256) :
    CreatesPath dir (mkdirsCalls (withoutLastSlash (dir.take 255) dir.length)) ↔
      dir.getLast? = some slash := by
  obtain ⟨q, c, rfl, hqNe, hbuffer⟩ := exists_of_fills hlength
  rw [hbuffer, List.getLast?_concat, Option.some.injEq]
  constructor
  · intro h
    by_contra hc
    exact Directory.ofString_concat_ne slash List.prefix_rfl hc h.ofString_eq.symm
  · rintro rfl
    exact (createsPath_mkdirsCalls hqNe).congr (Directory.ofString_concat_sep slash hqNe).symm

end Buffer

/-- `mkdirs` stays in its buffer and creates the path, ancestors first, exactly when the path is
not the root and fits into the buffer, where a slash in the place of the last character may be
missing. -/
theorem mkdirsCorrect_iff (dir : CString) (hne : dir.1 ≠ []) :
    MkdirsCorrect dir ↔ dir.1 ≠ [slash] ∧
      (dir.1.length ≤ 255 ∨ dir.1.length = 256 ∧ dir.1.getLast? = some slash) := by
  obtain ⟨dir, hnull⟩ := dir
  simp only at hne ⊢
  by_cases hlong : dir.length ≤ 256
  · have hmkdirs : mkdirs dir =
        some (mkdirsCalls (withoutLastSlash (dir.take 255) dir.length)) :=
      if_pos ⟨List.length_pos_iff.2 hne, hlong⟩
    have hcorrect : MkdirsCorrect ⟨dir, hnull⟩ ↔
        CreatesPath dir (mkdirsCalls (withoutLastSlash (dir.take 255) dir.length)) := by
      simp only [MkdirsCorrect, hmkdirs, Option.some.injEq, exists_eq_left']
    rw [hcorrect]
    by_cases hfits : dir.length ≤ 255
    · rw [createsPath_iff_of_fits hne hfits, and_iff_left (Or.inl hfits)]
    · have hlength : dir.length = 256 := by omega
      have hroot : dir ≠ [slash] := by
        rintro rfl
        cases hlength
      rw [createsPath_iff_of_fills hlength, and_iff_right hroot, or_iff_right hfits,
        and_iff_right hlength]
  · refine iff_of_false ?_ (by omega)
    rintro ⟨calls, hcalls, -⟩
    exact hlong ((mkdirs_isSome_iff hne).1 ⟨calls, hcalls⟩)

/-- The path `/a//b`. -/
def doubledSlash : CString := ⟨[slash, 97, slash, slash, 98], by decide⟩

theorem mkdirsCorrect_doubledSlash : MkdirsCorrect doubledSlash :=
  (mkdirsCorrect_iff doubledSlash (by decide)).2 ⟨by decide, Or.inl (by decide)⟩

/-- A name of 257 characters. -/
def longName : CString :=
  ⟨List.replicate 257 97, fun h => absurd (List.eq_of_mem_replicate h) (by decide)⟩

/-- The slash at the end is looked for behind the buffer. -/
theorem not_mkdirsCorrect_longName : ¬ MkdirsCorrect longName := by
  rintro ⟨calls, hcalls, -⟩
  have hlength : longName.1.length = 257 := List.length_replicate
  rw [mkdirs, if_neg (by omega)] at hcalls
  cases hcalls

section FileSystem

/-- The directory of the path is the one of what the buffer holds, or is in it on account of the
entries that every directory has. -/
def FitsBuffer (dir : Bulk) : Prop :=
  dir.length ≤ 255 ∨ dir.getLast? = some slash ∨
    ∃ c ∈ dots, (Directory.ofString slash dir).components.getLast? = some c

/-- The directories that are made by calls of `mkdir`. -/
def madeBy (calls : List Bulk) : List (Directory UInt8) := calls.map (Directory.ofString slash)

variable {F : FileSystem UInt8 dots} {fs : F.State} {dir : Bulk} {calls : List Bulk}

/-- The path is there after the calls that create it. -/
theorem CreatesPath.has (h : CreatesPath dir calls) :
    F.has (F.mkdirAll fs (madeBy calls)) (Directory.ofString slash dir) := by
  refine FileSystem.has_mkdirAll ?_ ?_ _ ?_
  · rw [madeBy, List.map_map]
    exact h.depths
  · intro d hd
    obtain ⟨call, hcall, rfl⟩ := List.mem_map.1 hd
    refine or_iff_not_imp_left.2 fun hne => h.ancestors _ ?_ hne
    obtain ⟨habsolute, hprefix⟩ := h.atOrAbove call hcall
    exact ⟨habsolute, (List.dropLast_prefix _).trans hprefix⟩
  · obtain ⟨call, hcall, heq⟩ := Option.map_eq_some_iff.1 h.last
    rw [← heq]
    exact List.mem_map_of_mem (List.mem_of_getLast? hcall)

theorem has_mkdirsCalls (tmp : Bulk) :
    F.has (F.mkdirAll fs (madeBy (mkdirsCalls tmp))) (Directory.ofString slash tmp) := by
  by_cases hne : tmp = []
  · subst hne
    exact F.has_start rfl
  · exact (createsPath_mkdirsCalls hne).has

/-- A path that is not cut is there afterwards. -/
theorem has_mkdirs_of_fits (hne : dir ≠ []) (hcalls : mkdirs dir = some calls)
    (hfits : dir.length ≤ 255) :
    F.has (F.mkdirAll fs (madeBy calls)) (Directory.ofString slash dir) := by
  obtain ⟨-, rfl⟩ := (mkdirs_eq_some_iff hne).1 hcalls
  by_cases hroot : dir = [slash]
  · subst hroot
    exact F.has_start rfl
  · exact ((createsPath_iff_of_fits hne hfits).2 hroot).has

/-- The directory above the path is there, whether the path is cut or not. -/
theorem has_parent_mkdirs (hne : dir ≠ []) (hcalls : mkdirs dir = some calls) :
    F.has (F.mkdirAll fs (madeBy calls)) (Directory.ofString slash dir).parent := by
  by_cases hfits : dir.length ≤ 255
  · exact F.has_parent (has_mkdirs_of_fits hne hcalls hfits)
  · obtain ⟨hlong, rfl⟩ := (mkdirs_eq_some_iff hne).1 hcalls
    obtain ⟨q, c, rfl, hq, hbuffer⟩ := exists_of_fills (Nat.le_antisymm hlong (by omega))
    rw [hbuffer]
    exact FileSystem.has_of_atOrAbove (has_mkdirsCalls q)
      ⟨Directory.absolute_append slash hq [c], Directory.dropLast_components_concat slash q c⟩

/-- What is in a file system after `mkdirs`. -/
theorem has_mkdirs (hne : dir ≠ []) (hcalls : mkdirs dir = some calls) (hdir : FitsBuffer dir) :
    F.has (F.mkdirAll fs (madeBy calls)) (Directory.ofString slash dir) := by
  rcases hdir with hfits | hlast | ⟨c, hc, hlast⟩
  · exact has_mkdirs_of_fits hne hcalls hfits
  · by_cases hfits : dir.length ≤ 255
    · exact has_mkdirs_of_fits hne hcalls hfits
    · obtain ⟨hlong, rfl⟩ := (mkdirs_eq_some_iff hne).1 hcalls
      exact ((createsPath_iff_of_fills (Nat.le_antisymm hlong (by omega))).2 hlast).has
  · have hparent : F.has (F.mkdirAll fs (madeBy calls)) _ := has_parent_mkdirs hne hcalls
    have hchild := F.has_child hparent hc
    rwa [Directory.parent, Directory.child, List.dropLast_append_getLast? c hlast] at hchild

theorem prefix_of_mem_mkdirs (hne : dir ≠ []) (hcalls : mkdirs dir = some calls) {call : Bulk}
    (hcall : call ∈ calls) : call <+: dir := by
  obtain ⟨-, rfl⟩ := (mkdirs_eq_some_iff hne).1 hcalls
  refine (prefix_of_mem_mkdirsCalls hcall).trans ?_
  rw [withoutLastSlash]
  split_ifs
  · exact (List.take_prefix _ _).trans (List.take_prefix _ _)
  · exact List.take_prefix _ _

/-- No call leads deeper than the path. -/
theorem depth_le_of_mem_madeBy (hne : dir ≠ []) (hcalls : mkdirs dir = some calls)
    {d : Directory UInt8} (hd : d ∈ madeBy calls) :
    d.depth ≤ (Directory.ofString slash dir).depth := by
  obtain ⟨call, hcall, rfl⟩ := List.mem_map.1 hd
  exact Directory.depth_le_of_prefix slash (prefix_of_mem_mkdirs hne hcalls hcall)

/-- A path that is cut is not among the calls. -/
theorem fitsBuffer_of_mem_madeBy (hne : dir ≠ []) (hcalls : mkdirs dir = some calls)
    (hd : Directory.ofString slash dir ∈ madeBy calls) : FitsBuffer dir := by
  by_contra hcut
  rw [FitsBuffer, not_or, not_or] at hcut
  obtain ⟨hlong, hlast, -⟩ := hcut
  obtain ⟨hle, rfl⟩ := (mkdirs_eq_some_iff hne).1 hcalls
  obtain ⟨q, c, rfl, -, hbuffer⟩ := exists_of_fills (Nat.le_antisymm hle (by omega))
  rw [List.getLast?_concat, Option.some.injEq] at hlast
  rw [hbuffer] at hd
  obtain ⟨call, hcall, heq⟩ := List.mem_map.1 hd
  exact Directory.ofString_concat_ne slash (prefix_of_mem_mkdirsCalls hcall) hlast heq.symm

end FileSystem

end Sdskv
