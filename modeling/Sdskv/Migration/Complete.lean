import Sdskv.Datastore.Map.Listing
import Sdskv.Migration.Handler

/-!
# A migration page by page is complete

With a target that accepts every put, `migrate_all_keys` terminates and moves or copies
every pair. The argument is about the entries whose key begins with a prefix, of which
all entries are the case of the empty prefix. There are two progress arguments. With the
original kept, the matching entries of the source are `before ++ todo`, where `before`
ends at the start key, and a page is an initial segment of `todo`. With the original
removed, the start key stays empty and the matching entries of the source themselves
shrink from the front.
-/

namespace Sdskv

open OrderedMap Transition

/-- The entries whose key begins with a prefix. -/
def matching (keyPrefix : Bulk) (m : List (Bulk × Bulk)) : List (Bulk × Bulk) :=
  m.filter fun p => decide (keyPrefix <+: p.1)

/-- The other entries. -/
def notMatching (keyPrefix : Bulk) (m : List (Bulk × Bulk)) : List (Bulk × Bulk) :=
  m.filter fun p => decide (¬ keyPrefix <+: p.1)

theorem notMatching_eq_self {keyPrefix : Bulk} {m : List (Bulk × Bulk)}
    (h : matching keyPrefix m = []) : notMatching keyPrefix m = m := by
  rw [matching, List.filter_eq_nil_iff] at h
  exact List.filter_eq_self.2 fun p hp => by simpa using h p hp

/-- Removing matching keys leaves the other entries. -/
theorem eraseAll_notMatching {lt : Bulk → Bulk → Prop} [DecidableRel lt] {keyPrefix : Bulk}
    {m : List (Bulk × Bulk)} (hsorted : Sorted lt m) {ks : List Bulk}
    (hks : ks ⊆ (matching keyPrefix m).map Prod.fst) :
    eraseAll lt (notMatching keyPrefix m) ks = notMatching keyPrefix m := by
  refine eraseAll_eq_self lt fun k hk p hp hinc => ?_
  obtain ⟨q, hq, rfl⟩ := List.mem_map.1 (hks hk)
  obtain ⟨hqm, hqmatch⟩ := List.mem_filter.1 hq
  obtain ⟨hpm, hpmatch⟩ := List.mem_filter.1 hp
  have heq : p = q := eq_of_incompRel lt hsorted hpm hqm hinc
  rw [heq] at hpmatch
  simp_all

theorem page_eq_page_matching (lt : Bulk → Bulk → Prop) [DecidableRel lt]
    (m : List (Bulk × Bulk)) (startKey : Bulk) (count : ℕ) (keyPrefix : Bulk) :
    page lt m startKey count keyPrefix = page lt (matching keyPrefix m) startKey count [] := by
  rw [page, page, matching, List.filter_filter]
  congr 2
  funext p
  simp [Bool.and_comm]

/-- After the last key of an initial segment the listing goes on with the rest. -/
theorem page_append (lt : Bulk → Bulk → Prop) [DecidableRel lt]
    [IsStrictWeakOrder Bulk lt] {before todo : List (Bulk × Bulk)} {startKey : Bulk}
    (hsorted : Sorted lt (before ++ todo)) (hne : startKey ≠ [])
    (hlast : before.getLast?.map Prod.fst = some startKey) (count : ℕ) :
    page lt (before ++ todo) startKey count [] = todo.take count := by
  obtain ⟨p, hp, rfl⟩ := Option.map_eq_some_iff.1 hlast
  obtain ⟨front, rfl⟩ := List.getLast?_eq_some_iff.1 hp
  have hbefore : ∀ q ∈ front ++ [p], ¬ lt p.1 q.1 := by
    intro q hq
    rcases List.mem_append.1 hq with hq | hq
    · have hsorted' := (List.pairwise_append.1 hsorted).1
      exact asymm_of lt ((List.pairwise_append.1 hsorted').2.2 q hq p List.mem_cons_self)
    · rw [List.mem_singleton.1 hq]
      exact irrefl_of lt p.1
  have hafter : ∀ q ∈ todo, lt p.1 q.1 := by
    intro q hq
    exact (List.pairwise_append.1 hsorted).2.2 p (by simp) q hq
  rw [page, List.filter_append, List.filter_eq_nil_iff.2, List.filter_eq_self.2,
    List.nil_append]
  · intro q hq
    simpa [hne] using hafter q hq
  · intro q hq
    simpa [hne] using hbefore q hq

/-- The start key of a listing that has gone over the entries `before`. -/
def StartsBehind (startKey : Bulk) (before : List (Bulk × Bulk)) : Prop :=
  startKey = [] ∧ before = [] ∨ startKey ≠ [] ∧ before.getLast?.map Prod.fst = some startKey

theorem startsBehind_nil : StartsBehind [] [] := Or.inl ⟨rfl, rfl⟩

theorem startsBehind_append (before : List (Bulk × Bulk)) {batch : List (Bulk × Bulk)}
    {p : Bulk × Bulk} (hlast : batch.getLast? = some p) (hne : p.1 ≠ []) :
    StartsBehind p.1 (before ++ batch) := by
  refine Or.inr ⟨hne, ?_⟩
  rw [List.getLast?_append, hlast]
  rfl

theorem page_of_startsBehind (lt : Bulk → Bulk → Prop) [DecidableRel lt]
    [IsStrictWeakOrder Bulk lt] {before todo : List (Bulk × Bulk)} {startKey : Bulk}
    (hsorted : Sorted lt (before ++ todo)) (hstart : StartsBehind startKey before) (count : ℕ) :
    page lt (before ++ todo) startKey count [] = todo.take count := by
  rcases hstart with ⟨rfl, rfl⟩ | ⟨hne, hlast⟩
  · exact page_nil lt todo count
  · exact page_append lt hsorted hne hlast count

/-- A full page ends at a key that is not empty. -/
theorem lastKey_ne_nil {lt : Bulk → Bulk → Prop} {m before todo : List (Bulk × Bulk)}
    (hsorted : Sorted lt m) (hm : m = before ++ todo)
    (hempty : (∀ p ∈ m, p.1 ≠ []) ∨ ∀ k, ¬ lt k [])
    (hfull : (todo.take pageSize).length = pageSize) {p : Bulk × Bulk}
    (hlast : (todo.take pageSize).getLast? = some p) : p.1 ≠ [] := by
  obtain ⟨front, hfront⟩ := List.getLast?_eq_some_iff.1 hlast
  have hsub : (front ++ [p]).Sublist m := by
    rw [hm, ← hfront]
    exact (List.take_sublist _ _).trans (List.sublist_append_right _ _)
  rcases hempty with hempty | hempty
  · exact hempty p (hsub.subset (by simp))
  · intro hnil
    have hne : front ≠ [] := by
      rintro rfl
      rw [hfront] at hfull
      simp [pageSize] at hfull
    obtain ⟨q, hq⟩ := List.exists_mem_of_ne_nil front hne
    have hlt : lt q.1 p.1 :=
      (List.pairwise_append.1 (List.Pairwise.sublist hsub hsorted)).2.2 q hq p
        List.mem_cons_self
    rw [hnil] at hlt
    exact hempty q.1 hlt

/-- A page takes something off what is still to be listed. -/
theorem length_drop_pageSize_lt {todo : List (Bulk × Bulk)} (h : todo ≠ []) :
    (todo.drop pageSize).length < todo.length := by
  have hpos : 0 < todo.length := List.length_pos_iff.2 h
  rw [List.length_drop]
  simp only [pageSize]
  omega

section Complete

variable {σ τ : Type*} {source : AbstractDataStore σ} {target : AbstractDataStore τ}
  {lt lt' : Bulk → Bulk → Prop} [DecidableRel lt] [DecidableRel lt']
  (L : LawfulStore source lt) (L' : LawfulStore target lt')
  (hput : ∀ t k v, (target.put t k v).1 = .success)

theorem assignAll_append (m pairs pairs' : List (Bulk × Bulk)) :
    assignAll lt' (assignAll lt' m pairs) pairs' = assignAll lt' m (pairs ++ pairs') :=
  List.foldl_append.symm

include hput

/-- What the steps of a page do to the entries of the source. -/
def SourceAfter (flag : Int) (batch : List (Bulk × Bulk)) (s s' : σ) : Prop :=
  (flag ≠ sdskvRemoveOriginal → L.contents s' = L.contents s) ∧
    (flag = sdskvRemoveOriginal →
      L.contents s' = eraseAll lt (L.contents s) (batch.map Prod.fst))

/-- The handler gets through a page: it puts the pairs that are left and, if it is to
remove the originals, erases them. -/
theorem reaches_nextPage (handler : MigrateHandler) (flag : Int) (startKey : Bulk)
    (batch rest : List (Bulk × Bulk)) (w : σ × τ) :
    ∃ w', Reaches (migrationStep handler flag (distinctDatabases source target)) .delivered
        (w, (Continuation.page startKey batch rest).resume handler flag)
        (w', nextPage handler flag startKey batch) ∧
      L'.contents w'.2 = assignAll lt' (L'.contents w.2) rest ∧
      SourceAfter L flag rest w.1 w'.1 := by
  induction rest generalizing w with
  | nil => exact ⟨w, Reaches.refl _ _ _, rfl, fun _ => rfl, fun _ => rfl⟩
  | cons p rest ih =>
      have hforward : forwardPut (distinctDatabases source target) w p.1 p.2 .delivered =
          (true, w.1, (target.put w.2 p.1 p.2).2) := forwardPut_delivered hput w p.1 p.2
      have htarget := L'.put_success w.2 p.1 p.2 (hput _ _ _)
      by_cases hflag : flag = sdskvRemoveOriginal
      · obtain ⟨w', hreach, hw', -, herase⟩ :=
          ih ((source.erase w.1 p.1).2, (target.put w.2 p.1 p.2).2)
        have herased : migrationStep handler flag (distinctDatabases source target)
            ((w.1, (target.put w.2 p.1 p.2).2),
              .erase p.1 p.2 (.page startKey batch rest)) .delivered =
            some (((source.erase w.1 p.1).2, (target.put w.2 p.1 p.2).2),
              (Continuation.page startKey batch rest).resume handler flag) := rfl
        refine ⟨w', Reaches.head ?_ (Reaches.head herased hreach), ?_, absurd hflag, ?_⟩
        · simp only [Continuation.resume, migrationStep, hforward, if_pos hflag]
        · rw [hw', htarget]
          rfl
        · intro _
          rw [herase hflag, L.erase_contents]
          rfl
      · obtain ⟨w', hreach, hw', hkeep, -⟩ := ih (w.1, (target.put w.2 p.1 p.2).2)
        refine ⟨w', Reaches.head ?_ hreach, ?_, hkeep, fun h => absurd h hflag⟩
        · simp only [Continuation.resume, migrationStep, hforward, if_neg hflag]
        · rw [hw', htarget]
          rfl

variable (handler : MigrateHandler) (hlist : L.ListsPrefix handler.keyPrefix)
include hlist

/-- One page, from the listing to the next one or to the answer. -/
theorem reaches_afterPage (flag : Int) (startKey : Bulk) (w : σ × τ)
    {batch : List (Bulk × Bulk)} (hne : batch ≠ [])
    (hpage : page lt (L.contents w.1) startKey pageSize handler.keyPrefix = batch) :
    ∃ w', Reaches (migrationStep handler flag (distinctDatabases source target)) .delivered
        (w, .list startKey) (w', nextPage handler flag startKey batch) ∧
      L'.contents w'.2 = assignAll lt' (L'.contents w.2) batch ∧
      SourceAfter L flag batch w.1 w'.1 := by
  obtain ⟨w', hreach, hw'⟩ := reaches_nextPage L L' hput handler flag startKey batch batch w
  refine ⟨w', Reaches.head ?_ hreach, hw'⟩
  obtain ⟨p, rest, rfl⟩ := List.exists_cons_of_ne_nil hne
  have hlisted : (distinctDatabases source target).listKeyvals w startKey pageSize
      handler.keyPrefix = .pairs (p :: rest) := by
    rw [← hpage]
    exact hlist w.1 startKey pageSize
  simp only [migrationStep, hlisted]

omit hput in
/-- The answer after an empty page. -/
theorem reaches_done_of_page_nil (flag : Int) (startKey : Bulk) (w : σ × τ)
    (hpage : page lt (L.contents w.1) startKey pageSize handler.keyPrefix = []) :
    Reaches (migrationStep handler flag (distinctDatabases source target)) .delivered
      (w, .list startKey) (w, .done handler.initialRet) := by
  have hlisted : (distinctDatabases source target).listKeyvals w startKey pageSize
      handler.keyPrefix = .pairs [] := by
    rw [← hpage]
    exact hlist w.1 startKey pageSize
  refine Reaches.head ?_ (Reaches.refl _ _ _)
  simp only [migrationStep, hlisted]

/-- The loop over the pages ends with all pairs of `todo` in the target. `Src` relates
`todo` to the source and `Start` relates it to the start key; both are kept by a page. -/
theorem reaches_done {flag : Int} (Src : List (Bulk × Bulk) → σ → Prop)
    (Start : List (Bulk × Bulk) → Bulk → Prop)
    (hpage : ∀ todo startKey s, Src todo s → Start todo startKey →
      page lt (L.contents s) startKey pageSize handler.keyPrefix = todo.take pageSize)
    (hsrc : ∀ todo s s', Src todo s → SourceAfter L flag (todo.take pageSize) s s' →
      Src (todo.drop pageSize) s')
    (hstart : ∀ todo startKey, Start todo startKey →
      (todo.take pageSize).length = pageSize →
      Start (todo.drop pageSize) (nextStartKey flag startKey (todo.take pageSize)))
    (todo : List (Bulk × Bulk)) (startKey : Bulk) (w : σ × τ) (hs : Src todo w.1)
    (hk : Start todo startKey) :
    ∃ w', Reaches (migrationStep handler flag (distinctDatabases source target)) .delivered
        (w, .list startKey) (w', .done handler.initialRet) ∧
      L'.contents w'.2 = assignAll lt' (L'.contents w.2) todo ∧ Src [] w'.1 := by
  induction hn : todo.length using Nat.strong_induction_on generalizing todo startKey w with
  | _ n ih =>
      have hlisted := hpage todo startKey w.1 hs hk
      by_cases hnil : todo = []
      · subst hnil
        exact ⟨w, reaches_done_of_page_nil L handler hlist flag startKey w (by rw [hlisted]; rfl),
          rfl, hs⟩
      · have hbatch : todo.take pageSize ≠ [] := by simp [pageSize, hnil]
        obtain ⟨w₁, hreach, htarget, hafter⟩ :=
          reaches_afterPage L L' hput handler hlist flag startKey w hbatch hlisted
        have hs₁ := hsrc todo w.1 w₁.1 hs hafter
        by_cases hfull : (todo.take pageSize).length = pageSize
        · have hshorter : (todo.drop pageSize).length < n := hn ▸ length_drop_pageSize_lt hnil
          obtain ⟨w', hreach', htarget', hs'⟩ :=
            ih _ hshorter _ _ w₁ hs₁ (hstart todo startKey hk hfull) rfl
          rw [nextPage, if_pos hfull] at hreach
          refine ⟨w', hreach.trans hreach', ?_, hs'⟩
          rw [htarget', htarget, assignAll_append, List.take_append_drop]
        · have hall : todo.length ≤ pageSize := by
            rw [List.length_take] at hfull
            omega
          rw [nextPage, if_neg hfull] at hreach
          rw [List.drop_eq_nil_of_le hall] at hs₁
          refine ⟨w₁, hreach, ?_, hs₁⟩
          rw [htarget, List.take_of_length_le hall]

end Complete

section Pages

variable {σ τ : Type*} {source : AbstractDataStore σ} {target : AbstractDataStore τ}
  {lt lt' : Bulk → Bulk → Prop} [DecidableRel lt] [DecidableRel lt']
  [IsStrictWeakOrder Bulk lt]
  (L : LawfulStore source lt) (L' : LawfulStore target lt')
  (hput : ∀ t k v, (target.put t k v).1 = .success)
  (handler : MigrateHandler) (hlist : L.ListsPrefix handler.keyPrefix)
include hput hlist

/-- With the originals removed, the pages are taken from the front of the matching
entries that are left. -/
theorem migratePages_remove (w : σ × τ) :
    ∃ w', Reaches (migrationStep handler sdskvRemoveOriginal (distinctDatabases source target))
        .delivered (w, .list []) (w', .done handler.initialRet) ∧
      L'.contents w'.2 = assignAll lt' (L'.contents w.2)
        (matching handler.keyPrefix (L.contents w.1)) ∧
      L.contents w'.1 = notMatching handler.keyPrefix (L.contents w.1) := by
  have hdone : ∃ w', Reaches
      (migrationStep handler sdskvRemoveOriginal (distinctDatabases source target))
        .delivered (w, .list []) (w', .done handler.initialRet) ∧
      L'.contents w'.2 = assignAll lt' (L'.contents w.2)
        (matching handler.keyPrefix (L.contents w.1)) ∧
      matching handler.keyPrefix (L.contents w'.1) = [] ∧
      notMatching handler.keyPrefix (L.contents w'.1) =
        notMatching handler.keyPrefix (L.contents w.1) := by
    refine reaches_done L L' hput handler hlist
      (fun todo s => matching handler.keyPrefix (L.contents s) = todo ∧
        notMatching handler.keyPrefix (L.contents s) =
          notMatching handler.keyPrefix (L.contents w.1))
      (fun _ startKey => startKey = []) ?_ ?_ ?_ _ [] w ⟨rfl, rfl⟩ rfl
    · rintro todo startKey s ⟨rfl, -⟩ rfl
      rw [page_eq_page_matching, page_nil]
    · rintro todo s s' ⟨rfl, hrest⟩ ⟨-, hsource⟩
      have hsorted : Sorted lt (matching handler.keyPrefix (L.contents s)) :=
        List.Pairwise.sublist List.filter_sublist (L.sorted s)
      rw [← List.take_append_drop pageSize
        (matching handler.keyPrefix (L.contents s))] at hsorted
      have herased := eraseAll_append lt hsorted
      rw [List.take_append_drop] at herased
      rw [hsource rfl, ← hrest]
      refine ⟨(filter_eraseAll lt _ _ _).trans herased, (filter_eraseAll lt _ _ _).trans ?_⟩
      exact eraseAll_notMatching (L.sorted s)
        ((List.take_sublist _ _).map Prod.fst).subset
    · rintro todo startKey rfl -
      simp [nextStartKey]
  obtain ⟨w', hreach, htarget, hnil, hrest⟩ := hdone
  refine ⟨w', hreach, htarget, ?_⟩
  rw [← hrest]
  exact (notMatching_eq_self hnil).symm

/-- With the originals kept, the pages follow each other through the matching
entries. -/
theorem migratePages_keep {flag : Int} (hflag : flag ≠ sdskvRemoveOriginal) (w : σ × τ)
    (hempty : (∀ p ∈ L.contents w.1, p.1 ≠ []) ∨ ∀ k, ¬ lt k []) :
    ∃ w', Reaches (migrationStep handler flag (distinctDatabases source target))
        .delivered (w, .list []) (w', .done handler.initialRet) ∧
      L'.contents w'.2 = assignAll lt' (L'.contents w.2)
        (matching handler.keyPrefix (L.contents w.1)) ∧
      L.contents w'.1 = L.contents w.1 := by
  have hsorted : Sorted lt (matching handler.keyPrefix (L.contents w.1)) :=
    List.Pairwise.sublist List.filter_sublist (L.sorted w.1)
  have hempty' : (∀ p ∈ matching handler.keyPrefix (L.contents w.1), p.1 ≠ []) ∨
      ∀ k, ¬ lt k [] :=
    hempty.imp (fun h p hp => h p (List.mem_of_mem_filter hp)) id
  refine reaches_done L L' hput handler hlist (fun _ s => L.contents s = L.contents w.1)
    (fun todo startKey => ∃ before,
      matching handler.keyPrefix (L.contents w.1) = before ++ todo ∧
        StartsBehind startKey before) ?_ ?_ ?_ _ [] w rfl ⟨[], rfl, startsBehind_nil⟩
  · rintro todo startKey s hs ⟨before, hm, hstart⟩
    rw [hm] at hsorted
    rw [hs, page_eq_page_matching, hm]
    exact page_of_startsBehind lt hsorted hstart pageSize
  · rintro todo s s' hs ⟨hsource, -⟩
    exact (hsource hflag).trans hs
  · rintro todo startKey ⟨before, hm, -⟩ hfull
    have hne : todo.take pageSize ≠ [] := by
      intro hnil
      rw [hnil] at hfull
      cases hfull
    obtain ⟨p, hp⟩ : ∃ p, (todo.take pageSize).getLast? = some p :=
      ⟨_, List.getLast?_eq_some_getLast hne⟩
    have hkey : nextStartKey flag startKey (todo.take pageSize) = p.1 := by
      simp [nextStartKey, hflag, hp]
    refine ⟨before ++ todo.take pageSize, ?_, ?_⟩
    · rw [List.append_assoc, List.take_append_drop, hm]
    · rw [hkey]
      exact startsBehind_append before hp (lastKey_ne_nil hsorted hm hempty' hfull hp)

end Pages

section AllKeys

variable {σ τ : Type*} {source : AbstractDataStore σ} {target : AbstractDataStore τ}
  {lt lt' : Bulk → Bulk → Prop} [DecidableRel lt] [DecidableRel lt']
  [IsStrictTotalOrder Bulk lt]
  (L : LawfulStore source lt) (L' : LawfulStore target lt')
  (hput : ∀ t k v, (target.put t k v).1 = .success) (hlist : L.ListsPrefix [])
include hput hlist

/-- `migrate_all_keys` running alone terminates with `SDSKV_SUCCESS`; the target is then
its old content overridden by all pairs of the source, and the source is unchanged or
empty. -/
theorem migrateAll_complete (hrets : List ℕ) (hok : firstFailure hrets = none)
    (w : σ × τ) (hempty : (∀ p ∈ L.contents w.1, p.1 ≠ []) ∨ ∀ k, k ≠ [] → lt [] k)
    (flag : Int) (hflag : flag = sdskvKeepOriginal ∨ flag = sdskvRemoveOriginal) :
    ∃ n w', run? (migrationStep .all flag (distinctDatabases source target))
        (w, MigrateHandler.all.begin true hrets) (List.replicate n .delivered) =
          some (w', .done SdskvReturn.success.code) ∧
      L'.contents w'.2 = assignAll lt' (L'.contents w.2) (L.contents w.1) ∧
      (flag = sdskvKeepOriginal → L.contents w'.1 = L.contents w.1) ∧
      (flag = sdskvRemoveOriginal → L.contents w'.1 = []) := by
  have hbegin : MigrateHandler.all.begin true hrets = .list [] := by
    simp [MigrateHandler.begin, hok, MigrateHandler.start]
  have hfirst : (∀ p ∈ L.contents w.1, p.1 ≠ []) ∨ ∀ k, ¬ lt k [] := by
    refine hempty.imp id fun hleast k hk => ?_
    by_cases hnil : k = []
    · rw [hnil] at hk
      exact irrefl_of lt [] hk
    · exact asymm_of lt hk (hleast k hnil)
  have hsw := isStrictWeakOrder_of_isStrictTotalOrder lt
  have hall : matching MigrateHandler.all.keyPrefix (L.contents w.1) = L.contents w.1 := by
    simp [MigrateHandler.keyPrefix, matching]
  have hnone : notMatching MigrateHandler.all.keyPrefix (L.contents w.1) = [] := by
    simp [MigrateHandler.keyPrefix, notMatching]
  rw [hbegin]
  rcases hflag with rfl | rfl
  · obtain ⟨w', ⟨n, hn⟩, htarget, hsource⟩ :=
      migratePages_keep L L' hput .all hlist
        (show sdskvKeepOriginal ≠ sdskvRemoveOriginal by decide) w hfirst
    rw [hall] at htarget
    exact ⟨n, w', hn, htarget, fun _ => hsource, fun h => absurd h (by decide)⟩
  · obtain ⟨w', ⟨n, hn⟩, htarget, hsource⟩ := migratePages_remove L L' hput .all hlist w
    rw [hall] at htarget
    rw [hnone] at hsource
    exact ⟨n, w', hn, htarget, fun h => absurd h (by decide), fun _ => hsource⟩

end AllKeys

/-- The keys from 1 to 70, more than a page. -/
def seventyPairs : List (Bulk × Bulk) :=
  (List.range 70).map fun i => ([UInt8.ofNat (i + 1)], [UInt8.ofNat i])

theorem wellFormed_seventyPairs :
    { MapDataStore.new with map := seventyPairs }.WellFormed := by
  rw [MapDataStore.WellFormed, OrderedMap.Sorted]
  decide +kernel

/-- A map database that holds them. -/
def seventyEntries : MapState none false :=
  ⟨{ MapDataStore.new with map := seventyPairs }, rfl, rfl, wellFormed_seventyPairs⟩

/-- Two pages are moved to a map database that binds one of the keys to another value. -/
theorem migrateAll_complete_twoPages :
    ∃ n w', run? (migrationStep .all sdskvRemoveOriginal
          (distinctDatabases (mapStore none false) (mapStore none false)))
        ((seventyEntries, singleEntry false [5] [9]),
          MigrateHandler.all.begin true [hgSuccess]) (List.replicate n .delivered) =
        some (w', .done SdskvReturn.success.code) ∧
      (mapStore_lawful none false).contents w'.2 = seventyEntries.1.map ∧
      (mapStore_lawful none false).contents w'.1 = [] := by
  obtain ⟨n, w', hrun, htarget, -, hsource⟩ := migrateAll_complete
    (mapStore_lawful none false) (mapStore_lawful none false) (mapStore_put_success none)
    (mapStore_listsPrefix_nil none false) [hgSuccess] (by decide)
    (seventyEntries, singleEntry false [5] [9]) (Or.inl (by decide +kernel))
    sdskvRemoveOriginal (Or.inr rfl)
  refine ⟨n, w', hrun, ?_, hsource rfl⟩
  rw [htarget]
  decide +kernel

end Sdskv
