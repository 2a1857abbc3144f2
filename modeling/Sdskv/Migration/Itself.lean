import Sdskv.Migration.Complete

/-!
# Migrating a database onto itself

The handlers do not compare the source with the target, so a database can be named as
both. `migrate_all_keys` then puts each pair back where it was read from. A put leaves the
contents as they were, or is refused by a database that must not be overwritten, and with
`SDSKV_REMOVE_ORIGINAL` the pair is erased afterwards, from the only place where it is.

With the originals kept, the listing goes on behind the last key of a page. An empty start
key stands for the beginning, so a full page that ends at the empty key is followed by the
first page again, for ever.
-/

namespace Sdskv

open OrderedMap Transition

/-- A source that is the target. -/
def sameDatabase {σ : Type*} (ds : AbstractDataStore σ) : MigrationEnv σ where
  get := ds.get
  listKeyvals := ds.listKeyvals
  erase s key := (ds.erase s key).2
  put s key value := ((ds.put s key value).1.code, (ds.put s key value).2)

section PageEnds

/-- Some full page of the entries ends at the empty key. -/
def PageEndsEmpty (todo : List (Bulk × Bulk)) : Prop :=
  ∃ i p, todo[i]? = some p ∧ p.1 = [] ∧ (i + 1) % pageSize = 0

variable {todo : List (Bulk × Bulk)}

theorem not_pageEndsEmpty_of_short (h : todo.length < pageSize) : ¬ PageEndsEmpty todo := by
  rintro ⟨i, p, hi, -, hmod⟩
  obtain ⟨hlt, -⟩ := List.getElem?_eq_some_iff.1 hi
  rw [Nat.mod_eq_of_lt (by omega)] at hmod
  cases hmod

theorem pageEndsEmpty_iff_of_full {p : Bulk × Bulk}
    (hfull : (todo.take pageSize).length = pageSize)
    (hlast : (todo.take pageSize).getLast? = some p) :
    PageEndsEmpty todo ↔ p.1 = [] ∨ PageEndsEmpty (todo.drop pageSize) := by
  have hend : todo[63]? = some p := by
    rw [List.getLast?_eq_getElem?, hfull] at hlast
    rwa [List.getElem?_take_of_lt (by decide)] at hlast
  constructor
  · rintro ⟨i, q, hi, hnil, hmod⟩
    rw [pageSize] at hmod
    by_cases hfirst : i < 64
    · left
      obtain rfl : i = 63 := by omega
      rw [hend] at hi
      cases hi
      exact hnil
    · right
      refine ⟨i - 64, q, ?_, hnil, ?_⟩
      · rw [List.getElem?_drop, pageSize, Nat.add_sub_cancel' (Nat.not_lt.1 hfirst), hi]
      · rw [pageSize]
        omega
  · rintro (hnil | ⟨i, q, hi, hnil, hmod⟩)
    · exact ⟨63, p, hend, hnil, rfl⟩
    · refine ⟨pageSize + i, q, ?_, hnil, ?_⟩
      · rw [← hi, List.getElem?_drop]
      · rw [Nat.add_assoc, Nat.add_mod_left, hmod]

end PageEnds

section Itself

variable {σ : Type*} {ds : AbstractDataStore σ} {lt : Bulk → Bulk → Prop} [DecidableRel lt]
  [IsStrictWeakOrder Bulk lt] (L : LawfulStore ds lt)

/-- A pair of the database that is put again leaves the contents as they were. -/
theorem contents_put_of_mem {s : σ} {p : Bulk × Bulk} (hp : p ∈ L.contents s) :
    L.contents (ds.put s p.1 p.2).2 = L.contents s := by
  by_cases hsuccess : (ds.put s p.1 p.2).1 = .success
  · rw [L.put_success s p.1 p.2 hsuccess, assign_of_mem lt (L.sorted s) hp]
  · exact L.put_failure s p.1 p.2 hsuccess

variable {noOverwrite : Bool} (hput : ∀ s k v, (L.value s k).isSome →
    ((ds.put s k v).1 = .success ↔ noOverwrite = false))
include hput

theorem forwardPut_sameDatabase {s : σ} {p : Bulk × Bulk} (hp : p ∈ L.contents s) :
    forwardPut (sameDatabase ds) s p.1 p.2 .delivered =
      (!noOverwrite, (ds.put s p.1 p.2).2) := by
  have hbound : (L.value s p.1).isSome := by
    rw [L.value_of_mem hp]
    rfl
  have hanswer := hput s p.1 p.2 hbound
  rw [← SdskvReturn.code_eq_success_iff] at hanswer
  rw [forwardPut]
  cases noOverwrite <;> simp_all [sameDatabase]

section Pages

variable (hwritable : noOverwrite = false) {flag : Int} (startKey : Bulk)
  (batch : List (Bulk × Bulk))
include hwritable

/-- With the originals kept, a page leaves the contents as they were. -/
theorem itself_keepPage (hflag : flag ≠ sdskvRemoveOriginal) (rest : List (Bulk × Bulk))
    (s : σ) (hrest : ∀ p ∈ rest, p ∈ L.contents s) :
    ∃ s', Reaches (migrationStep .all flag (sameDatabase ds)) .delivered
        (s, (Continuation.page startKey batch rest).resume .all flag)
        (s', nextPage .all flag startKey batch) ∧
      L.contents s' = L.contents s := by
  induction rest generalizing s with
  | nil => exact ⟨s, Reaches.refl _ _ _, rfl⟩
  | cons p rest ih =>
      obtain ⟨hp, hrest⟩ := List.forall_mem_cons.1 hrest
      have hsame := contents_put_of_mem L hp
      have hforward := forwardPut_sameDatabase L hput hp
      obtain ⟨s', hreach, hs'⟩ := ih (ds.put s p.1 p.2).2 (by rwa [hsame])
      refine ⟨s', Reaches.head ?_ hreach, hs'.trans hsame⟩
      simp only [Continuation.resume, migrationStep, hforward, hwritable, Bool.not_false,
        if_neg hflag]

/-- With the originals removed, the pairs of a page are gone. -/
theorem itself_removePage (rest tail : List (Bulk × Bulk)) (s : σ)
    (hrest : L.contents s = rest ++ tail) :
    ∃ s', Reaches (migrationStep .all sdskvRemoveOriginal (sameDatabase ds)) .delivered
        (s, (Continuation.page startKey batch rest).resume .all sdskvRemoveOriginal)
        (s', nextPage .all sdskvRemoveOriginal startKey batch) ∧
      L.contents s' = tail := by
  induction rest generalizing s with
  | nil => exact ⟨s, Reaches.refl _ _ _, hrest⟩
  | cons p rest ih =>
      have hp : p ∈ L.contents s := by simp [hrest]
      have hsame := contents_put_of_mem L hp
      have hforward := forwardPut_sameDatabase L hput hp
      have hsorted := L.sorted s
      rw [hrest] at hsorted
      have herased : L.contents (ds.erase (ds.put s p.1 p.2).2 p.1).2 = rest ++ tail := by
        rw [L.erase_contents, hsame, hrest]
        exact erase_cons_self lt hsorted
      obtain ⟨s', hreach, hs'⟩ := ih (ds.erase (ds.put s p.1 p.2).2 p.1).2 herased
      have hstep : migrationStep .all sdskvRemoveOriginal (sameDatabase ds)
          ((ds.put s p.1 p.2).2, .erase p.1 p.2 (.page startKey batch rest)) .delivered =
          some ((ds.erase (ds.put s p.1 p.2).2 p.1).2,
            (Continuation.page startKey batch rest).resume .all sdskvRemoveOriginal) := rfl
      refine ⟨s', Reaches.head ?_ (Reaches.head hstep hreach), hs'⟩
      simp only [Continuation.resume, migrationStep, hforward, hwritable, Bool.not_false,
        if_true]

end Pages

section Listing

variable {L} (hlist : L.ListsPrefix []) (flag : Int) {s : σ} {startKey : Bulk}
include hlist

omit [IsStrictWeakOrder Bulk lt] hput in
theorem itself_list_nil (hpage : page lt (L.contents s) startKey pageSize [] = []) :
    migrationStep .all flag (sameDatabase ds) (s, .list startKey) .delivered =
      some (s, .done SdskvReturn.success.code) := by
  have hlisted : (sameDatabase ds).listKeyvals s startKey pageSize
      MigrateHandler.all.keyPrefix = .pairs [] := by
    rw [← hpage]
    exact hlist s startKey pageSize
  simp only [migrationStep, hlisted, MigrateHandler.initialRet]

omit [IsStrictWeakOrder Bulk lt] hput in
theorem itself_list_cons {batch : List (Bulk × Bulk)} (hne : batch ≠ [])
    (hpage : page lt (L.contents s) startKey pageSize [] = batch) :
    migrationStep .all flag (sameDatabase ds) (s, .list startKey) .delivered =
      some (s, (Continuation.page startKey batch batch).resume .all flag) := by
  have hlisted : (sameDatabase ds).listKeyvals s startKey pageSize
      MigrateHandler.all.keyPrefix = .pairs batch := by
    rw [← hpage]
    exact hlist s startKey pageSize
  obtain ⟨p, rest, rfl⟩ := List.exists_cons_of_ne_nil hne
  simp only [migrationStep, hlisted]

end Listing

section Runs

variable (hlist : L.ListsPrefix [])
include hlist

/-- With the originals removed, the database is empty in the end. -/
theorem itself_remove (hwritable : noOverwrite = false) (s : σ) :
    ∃ s', Reaches (migrationStep .all sdskvRemoveOriginal (sameDatabase ds)) .delivered
        (s, .list []) (s', .done SdskvReturn.success.code) ∧ L.contents s' = [] := by
  induction hn : (L.contents s).length using Nat.strong_induction_on generalizing s with
  | _ n ih =>
      have hpage := page_nil lt (L.contents s) pageSize
      by_cases hnil : L.contents s = []
      · rw [hnil] at hpage
        refine ⟨s, Reaches.head (itself_list_nil hlist _ ?_) (Reaches.refl _ _ _), hnil⟩
        rw [hnil, hpage]
        rfl
      · have hne : (L.contents s).take pageSize ≠ [] := by simp [pageSize, hnil]
        obtain ⟨s₁, hreach, hs₁⟩ := itself_removePage L hput hwritable []
          ((L.contents s).take pageSize) ((L.contents s).take pageSize)
          ((L.contents s).drop pageSize) s (List.take_append_drop _ _).symm
        have hlisted := itself_list_cons hlist sdskvRemoveOriginal hne hpage
        rw [nextPage] at hreach
        split_ifs at hreach with hfull
        · have hpos : 0 < (L.contents s).length := List.length_pos_iff.2 hnil
          have hshorter : (L.contents s₁).length < n := by
            rw [hs₁, List.length_drop, hn]
            simp only [pageSize]
            omega
          obtain ⟨s', hreach', hs'⟩ := ih _ hshorter s₁ rfl
          exact ⟨s', Reaches.head hlisted (hreach.trans hreach'), hs'⟩
        · refine ⟨s₁, Reaches.head hlisted hreach, ?_⟩
          rw [hs₁, List.drop_eq_nil_iff]
          rw [List.length_take] at hfull
          omega

omit hput hlist in
/-- A page behind the entries `before` begins with those that follow them. -/
theorem page_of_contents {todo before : List (Bulk × Bulk)} {startKey : Bulk} {s : σ}
    (hcontents : L.contents s = before ++ todo) (hstart : StartsBehind startKey before) :
    page lt (L.contents s) startKey pageSize [] = todo.take pageSize := by
  have hsorted := L.sorted s
  rw [hcontents] at hsorted ⊢
  exact page_of_startsBehind lt hsorted hstart pageSize

/-- With the originals kept, a page that is not empty is listed and put back. -/
theorem itself_keepListed (hwritable : noOverwrite = false) {flag : Int}
    (hflag : flag ≠ sdskvRemoveOriginal) {todo before : List (Bulk × Bulk)} {startKey : Bulk}
    {s : σ} (hcontents : L.contents s = before ++ todo) (hstart : StartsBehind startKey before)
    (hne : todo.take pageSize ≠ []) :
    ∃ t s', migrationStep .all flag (sameDatabase ds) (s, .list startKey) .delivered = some t ∧
      Reaches (migrationStep .all flag (sameDatabase ds)) .delivered t
        (s', nextPage .all flag startKey (todo.take pageSize)) ∧
      L.contents s' = L.contents s := by
  have hpage := page_of_contents L hcontents hstart
  obtain ⟨s', hreach, hs'⟩ := itself_keepPage L hput hwritable startKey
    (todo.take pageSize) hflag (todo.take pageSize) s (by
      intro p hp
      rw [hcontents]
      exact List.mem_append_right _ (List.mem_of_mem_take hp))
  exact ⟨_, s', itself_list_cons hlist flag hne hpage, hreach, hs'⟩

/-- With the originals kept, the pages follow each other until the entries are through, or
until a page ends at the empty key and the listing begins again. -/
theorem itself_keep (hwritable : noOverwrite = false) {flag : Int}
    (hflag : flag ≠ sdskvRemoveOriginal) (todo before : List (Bulk × Bulk)) (startKey : Bulk)
    (s : σ) (hcontents : L.contents s = before ++ todo)
    (hstart : StartsBehind startKey before) :
    (¬ PageEndsEmpty todo ∧ ∃ s', Reaches (migrationStep .all flag (sameDatabase ds))
        .delivered (s, .list startKey) (s', .done SdskvReturn.success.code) ∧
      L.contents s' = L.contents s) ∨
    (PageEndsEmpty todo ∧ ∃ t s', migrationStep .all flag (sameDatabase ds)
          (s, .list startKey) .delivered = some t ∧
        Reaches (migrationStep .all flag (sameDatabase ds)) .delivered t (s', .list []) ∧
      L.contents s' = L.contents s) := by
  induction hn : todo.length using Nat.strong_induction_on
    generalizing todo before startKey s with
  | _ n ih =>
      by_cases hnil : todo = []
      · left
        subst hnil
        have hpage := page_of_contents L hcontents hstart
        refine ⟨not_pageEndsEmpty_of_short (by decide), s, ?_, rfl⟩
        exact Reaches.head (itself_list_nil hlist flag hpage) (Reaches.refl _ _ _)
      have hne : todo.take pageSize ≠ [] := by simp [pageSize, hnil]
      obtain ⟨t₁, s₁, hlisted, hreach, hs₁⟩ :=
        itself_keepListed L hput hlist hwritable hflag hcontents hstart hne
      rw [nextPage] at hreach
      split_ifs at hreach with hfull
      · obtain ⟨p, hlast⟩ : ∃ p, (todo.take pageSize).getLast? = some p :=
          ⟨_, List.getLast?_eq_some_getLast hne⟩
        have hkey : nextStartKey flag startKey (todo.take pageSize) = p.1 := by
          simp [nextStartKey, hflag, hlast]
        rw [hkey] at hreach
        rw [pageEndsEmpty_iff_of_full hfull hlast]
        by_cases hempty : p.1 = []
        · rw [hempty] at hreach
          exact Or.inr ⟨Or.inl hempty, _, s₁, hlisted, hreach, hs₁⟩
        · have hshorter : (todo.drop pageSize).length < n := hn ▸ length_drop_pageSize_lt hnil
          have hcontents₁ : L.contents s₁ =
              (before ++ todo.take pageSize) ++ todo.drop pageSize := by
            rw [hs₁, hcontents, List.append_assoc, List.take_append_drop]
          have hstart₁ := startsBehind_append before hlast hempty
          simp only [hempty, false_or]
          rcases ih _ hshorter _ _ p.1 s₁ hcontents₁ hstart₁ rfl with
            ⟨hends, s', hreach', hs'⟩ | ⟨hends, t, s', hstep, hreach', hs'⟩
          · exact Or.inl ⟨hends, s', Reaches.head hlisted (hreach.trans hreach'),
              hs'.trans hs₁⟩
          · exact Or.inr ⟨hends, _, s', hlisted, hreach.trans (Reaches.head hstep hreach'),
              hs'.trans hs₁⟩
      · left
        have hshort : todo.length < pageSize := by
          rw [List.length_take] at hfull
          omega
        exact ⟨not_pageEndsEmpty_of_short hshort, s₁, Reaches.head hlisted hreach, hs₁⟩

/-- A database that must not be overwritten refuses the first put. -/
theorem itself_refused (hrefused : noOverwrite = true) {flag : Int} {s : σ}
    (hne : L.contents s ≠ []) :
    ∃ s', Reaches (migrationStep .all flag (sameDatabase ds)) .delivered
        (s, .list []) (s', .done SdskvReturn.errMigration.code) ∧
      L.contents s' = L.contents s := by
  obtain ⟨p, rest, hcontents⟩ := List.exists_cons_of_ne_nil hne
  have hp : p ∈ L.contents s := by simp [hcontents]
  have hpage : page lt (L.contents s) [] pageSize [] = p :: rest.take 63 := by
    rw [page_nil, hcontents]
    rfl
  have hlisted := itself_list_cons hlist flag (List.cons_ne_nil _ _) hpage
  have hforward := forwardPut_sameDatabase L hput hp
  refine ⟨(ds.put s p.1 p.2).2, Reaches.head hlisted (Reaches.head ?_ (Reaches.refl _ _ _)),
    contents_put_of_mem L hp⟩
  simp only [Continuation.resume, migrationStep, hforward, hrefused, Bool.not_true]

/-- Migrating a database onto itself terminates with the contents unchanged exactly when the
database is empty, must not be overwritten, or keeps its originals and no full page ends at
the empty key. -/
theorem migrateItself_unchanged_iff {hrets : List ℕ} (hok : firstFailure hrets = none)
    (flag : Int) (s : σ) :
    (∃ s' ret, Reaches (migrationStep .all flag (sameDatabase ds)) .delivered
        (s, MigrateHandler.all.begin true hrets) (s', .done ret) ∧
      L.contents s' = L.contents s) ↔
    L.contents s = [] ∨ noOverwrite = true ∨
      flag ≠ sdskvRemoveOriginal ∧ ¬ PageEndsEmpty (L.contents s) := by
  have hbegin : MigrateHandler.all.begin true hrets = .list [] := by
    simp [MigrateHandler.begin, hok, MigrateHandler.start]
  rw [hbegin]
  by_cases hnil : L.contents s = []
  · refine iff_of_true ⟨s, _, Reaches.head (itself_list_nil hlist flag ?_)
      (Reaches.refl _ _ _), rfl⟩ (Or.inl hnil)
    rw [hnil]
    rfl
  by_cases hwritable : noOverwrite = true
  · obtain ⟨s', hreach, hs'⟩ := itself_refused L hput hlist hwritable hnil
    exact iff_of_true ⟨s', _, hreach, hs'⟩ (Or.inr (Or.inl hwritable))
  rw [Bool.not_eq_true] at hwritable
  simp only [hnil, hwritable, Bool.false_eq_true, false_or]
  by_cases hflag : flag = sdskvRemoveOriginal
  · subst hflag
    obtain ⟨s₁, hreach, hs₁⟩ := itself_remove L hput hlist hwritable s
    refine iff_of_false ?_ fun h => h.1 rfl
    rintro ⟨s', ret, hreach', hs'⟩
    obtain rfl : s₁ = s' := congrArg Prod.fst (Reaches.eq_of_stuck hreach hreach' rfl rfl)
    rw [hs₁] at hs'
    exact hnil hs'.symm
  · rw [and_iff_right hflag]
    rcases itself_keep L hput hlist hwritable hflag (L.contents s) [] [] s rfl
      startsBehind_nil with ⟨hends, s', hreach, hs'⟩ | ⟨hends, -⟩
    · exact iff_of_true ⟨s', _, hreach, hs'⟩ hends
    · refine iff_of_false ?_ (not_not.2 hends)
      rintro ⟨s', ret, hreach, -⟩
      -- from the first page the handler comes back to the first page
      refine Reaches.step_ne_none_of_recurrent
        (P := fun t => ∃ s₁, t = (s₁, .list []) ∧ L.contents s₁ = L.contents s) ?_
        ⟨s, rfl, rfl⟩ hreach rfl
      rintro _ ⟨s₁, rfl, hs₁⟩
      rcases itself_keep L hput hlist hwritable hflag (L.contents s₁) [] [] s₁ rfl
        startsBehind_nil with ⟨hnot, -⟩ | ⟨-, t, s₂, hstep, hback, hs₂⟩
      · rw [hs₁] at hnot
        exact absurd hends hnot
      · exact ⟨t, _, hstep, hback, s₂, rfl, hs₂.trans hs₁⟩

end Runs

end Itself

/-- A map database answers a put on a bound key as its setting says. -/
theorem mapStore_put_bound (less : Option ComparatorFn) (noOverwrite : Bool)
    [IsStrictWeakOrder Bulk (keycmp less)] (s : MapState less noOverwrite) (k v : Bulk)
    (hbound : ((mapStore_lawful less noOverwrite).value s k).isSome) :
    ((mapStore less noOverwrite).put s k v).1 = .success ↔ noOverwrite = false := by
  obtain ⟨s, rfl, rfl, hwf⟩ := s
  have hget : (s.get k).isSome := hbound
  simp only [mapStore, MapDataStore.put_eq, hget, and_true]
  split_ifs with hno
  · exact iff_of_false (by decide) (by simp [hno])
  · exact iff_of_true rfl (by simpa using hno)

/-- One pair that is kept. -/
theorem migrateItself_keep_single :
    ∃ s' ret, Reaches (migrationStep .all sdskvKeepOriginal
        (sameDatabase (mapStore none false))) .delivered
        (singleEntry false [1] [2], MigrateHandler.all.begin true [hgSuccess]) (s', .done ret) ∧
      (mapStore_lawful none false).contents s' =
        (mapStore_lawful none false).contents (singleEntry false [1] [2]) := by
  refine (migrateItself_unchanged_iff (mapStore_lawful none false) (mapStore_put_bound none false)
    (mapStore_listsPrefix_nil none false) (by decide) sdskvKeepOriginal
    (singleEntry false [1] [2])).2 (Or.inr (Or.inr ⟨by decide, ?_⟩))
  exact not_pageEndsEmpty_of_short (by decide)

/-- One pair that is to be removed from the source: the answer is a success, and the pair is
nowhere. -/
theorem migrateItself_loses_single :
    (∃ s', Reaches (migrationStep .all sdskvRemoveOriginal
        (sameDatabase (mapStore none false))) .delivered
        (singleEntry false [1] [2], MigrateHandler.all.begin true [hgSuccess])
        (s', .done SdskvReturn.success.code) ∧
      (mapStore_lawful none false).contents s' = []) ∧
    ¬ ∃ s' ret, Reaches (migrationStep .all sdskvRemoveOriginal
        (sameDatabase (mapStore none false))) .delivered
        (singleEntry false [1] [2], MigrateHandler.all.begin true [hgSuccess]) (s', .done ret) ∧
      (mapStore_lawful none false).contents s' =
        (mapStore_lawful none false).contents (singleEntry false [1] [2]) := by
  have hlost : ∃ s', Reaches (migrationStep .all sdskvRemoveOriginal
      (sameDatabase (mapStore none false))) .delivered
      (singleEntry false [1] [2], MigrateHandler.all.begin true [hgSuccess])
      (s', .done SdskvReturn.success.code) ∧
      (mapStore_lawful none false).contents s' = [] := ⟨_, ⟨3, rfl⟩, rfl⟩
  refine ⟨hlost, ?_⟩
  rintro ⟨s', ret, hreach', hs'⟩
  obtain ⟨s₁, hreach, hs₁⟩ := hlost
  obtain rfl : s₁ = s' := congrArg Prod.fst (Reaches.eq_of_stuck hreach hreach' rfl rfl)
  rw [hs₁] at hs'
  cases hs'

end Sdskv
