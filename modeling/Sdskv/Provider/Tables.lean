import Mathlib.Data.List.Nodup
import Sdskv.Common.Types
import Sdskv.Transition.Run

/-!
# The database tables of a provider

A provider keeps its databases in three tables: `databases` from ids to datastores,
`name2id` and `id2name`. Attaching a database writes all three, removing one erases
its entries, and the listing and the open request read `name2id`. An id is the
address of the datastore, so the allocator may hand out any address that is not
live.

`Tables` is the invariant: `name2id` and `id2name` are the two directions of one
bijection between the live databases and their names. It is kept as long as no
database is attached under the name of a live one; attaching a second database
under a name hides the first.
-/

namespace Sdskv

open OrderedMap Transition

/-- The fields of a datastore that attaching it sets. -/
structure Datastore where
  name : Bulk
  path : Bulk
  compFunName : Bulk
  less : Option ComparatorFn
  noOverwrite : Bool

/-- The fields of `sdskv_config_t` that attaching a database reads. -/
structure SdskvConfig where
  dbName : Bulk
  dbPath : Bulk
  dbCompFnName : Option Bulk
  dbNoOverwrite : Bool

/-- The tables of `sdskv_server_context_t`. -/
structure Provider where
  databases : List (UInt64 × Datastore)
  name2id : List (Bulk × UInt64)
  id2name : List (UInt64 × Bulk)
  compfunctions : List (Bulk × ComparatorFn)

namespace Provider

/-- A provider without databases. -/
def new (compfunctions : List (Bulk × ComparatorFn)) : Provider :=
  { databases := [], name2id := [], id2name := [], compfunctions := compfunctions }

/-- The comparison function of a configuration: `none` when it names one that is not
registered. -/
def findCompFn (p : Provider) (config : SdskvConfig) : Option (Option ComparatorFn) :=
  match config.dbCompFnName with
  | some (c :: k) => (lookup stringLess p.compfunctions (c :: k)).map some
  | _ => some none

/-- The datastore that `open_datastore` creates, with the settings of the
configuration. -/
def configure (config : SdskvConfig) (compFn : Option ComparatorFn) : Datastore :=
  { name := config.dbName
    path := config.dbPath
    compFunName := if compFn.isSome then config.dbCompFnName.getD [] else []
    less := compFn
    noOverwrite := config.dbNoOverwrite }

/-- `sdskv_provider_attach_database`; `opened` is the address of the datastore that
the factory creates, if it does. -/
def attachDatabase (p : Provider) (config : SdskvConfig) (opened : Option UInt64) :
    Except SdskvReturn UInt64 × Provider :=
  match p.findCompFn config with
  | none => (.error .errCompFunc, p)
  | some compFn =>
      match opened with
      | none => (.error .errDbCreate, p)
      | some id =>
          (.ok id,
            { p with
              name2id := assign stringLess p.name2id config.dbName id
              id2name := assign idLess p.id2name id config.dbName
              databases := assign idLess p.databases id (configure config compFn) })

/-- `sdskv_provider_remove_database`. -/
def removeDatabase (p : Provider) (dbId : UInt64) : SdskvReturn × Provider :=
  if count idLess p.databases dbId ≠ 0 then
    let dbname := (lookup idLess p.id2name dbId).getD []
    (.success,
      { p with
        id2name := OrderedMap.erase idLess p.id2name dbId
        name2id := OrderedMap.erase stringLess p.name2id dbname
        databases := OrderedMap.erase idLess p.databases dbId })
  else (.errUnknownDb, p)

/-- `sdskv_provider_remove_all_databases`. -/
def removeAllDatabases (p : Provider) : SdskvReturn × Provider :=
  (.success, { p with databases := [], name2id := [], id2name := [] })

/-- `sdskv_provider_count_databases`. -/
def countDatabases (p : Provider) : ℕ := p.databases.length

/-- The ids that `name2id` gives out, in the order of the names. -/
def listedIds (p : Provider) : List UInt64 := p.name2id.map Prod.snd

/-- The loop of `sdskv_provider_list_databases` from the counter `i` on, an `unsigned`; `none` is
an entry of `targets` that is not written. -/
def listDatabasesLoop : ℕ → List UInt64 → List (Option UInt64) → List (Option UInt64)
  | _, [], targets => targets
  | i, id :: ids, targets => listDatabasesLoop ((i + 1) % 2 ^ 32) ids (targets.set i (some id))

/-- `sdskv_provider_list_databases`: the entries that it writes in `targets`. -/
def listDatabases (p : Provider) : List UInt64 :=
  (listDatabasesLoop 0 p.listedIds (List.replicate p.listedIds.length none)).filterMap id

/-- `sdskv_open_ult`. -/
def «open» (p : Provider) (name : Bulk) : Except SdskvReturn UInt64 :=
  match lookup stringLess p.name2id name with
  | none => .error .errDbName
  | some id => .ok id

/-- The id of a live database, with its datastore. -/
def Live (p : Provider) (id : UInt64) (db : Datastore) : Prop :=
  lookup idLess p.databases id = some db

end Provider

/-- A call that changes the tables; `opened` is the answer of the factory. -/
inductive ProviderOp
  | attach (config : SdskvConfig) (opened : Option UInt64)
  | remove (dbId : UInt64)
  | removeAll

namespace Provider

/-- One call; a new datastore is not created at a live address. -/
def step (p : Provider) : ProviderOp → Option Provider
  | .attach config opened =>
      if ∃ id ∈ opened, (lookup idLess p.databases id).isSome then none
      else some (p.attachDatabase config opened).2
  | .remove dbId => some (p.removeDatabase dbId).2
  | .removeAll => some p.removeAllDatabases.2

/-- The call does not attach a database under the name of a live one. -/
def FreshName (p : Provider) : ProviderOp → Prop
  | .attach config opened =>
      (p.findCompFn config).isSome → opened.isSome →
        ∀ id db, p.Live id db → db.name ≠ config.dbName
  | _ => True

/-- The call does not attach one more database than the listing has a counter for. -/
def HasRoom (p : Provider) : ProviderOp → Prop
  | .attach config opened =>
      (p.findCompFn config).isSome → opened.isSome → p.countDatabases < 2 ^ 32
  | _ => True

/-- The tables agree with each other from outside: every live database is listed once
and nothing else is, its name opens it, and a removal does not affect the others. -/
structure Consistent (p : Provider) : Prop where
  listed_once : ∀ id db, p.Live id db → p.listDatabases.count id = 1
  length_list : p.listDatabases.length = p.countDatabases
  open_name : ∀ id db, p.Live id db → p.open db.name = .ok id
  remove_other : ∀ id id' db', p.Live id' db' → id' ≠ id →
    (p.removeDatabase id).2.listDatabases.count id' = p.listDatabases.count id' ∧
      (p.removeDatabase id).2.open db'.name = p.open db'.name

/-- The three tables are sorted, and `name2id` and `id2name` are the two directions
of the names of the live databases. -/
structure Tables (p : Provider) : Prop where
  sorted_databases : Sorted idLess p.databases
  sorted_name2id : Sorted stringLess p.name2id
  sorted_id2name : Sorted idLess p.id2name
  name2id_iff : ∀ name id, lookup stringLess p.name2id name = some id ↔
    ∃ db, p.Live id db ∧ db.name = name
  id2name_eq : ∀ id, lookup idLess p.id2name id =
    (lookup idLess p.databases id).map Datastore.name

section Tables

variable {p : Provider}

theorem tables_new (compfunctions : List (Bulk × ComparatorFn)) :
    (new compfunctions).Tables where
  sorted_databases := List.Pairwise.nil
  sorted_name2id := List.Pairwise.nil
  sorted_id2name := List.Pairwise.nil
  name2id_iff name id := by simp [new, Live]
  id2name_eq id := rfl

theorem tables_attach (h : p.Tables) (config : SdskvConfig) (db : Datastore) (id : UInt64)
    (hname : db.name = config.dbName) (hid : lookup idLess p.databases id = none)
    (hfresh : ∀ id' db', p.Live id' db' → db'.name ≠ config.dbName) :
    Tables { p with
      name2id := assign stringLess p.name2id config.dbName id
      id2name := assign idLess p.id2name id config.dbName
      databases := assign idLess p.databases id db } where
  sorted_databases := sorted_assign _ h.sorted_databases _ _
  sorted_name2id := sorted_assign _ h.sorted_name2id _ _
  sorted_id2name := sorted_assign _ h.sorted_id2name _ _
  name2id_iff name id' := by
    simp only [Live, lookup_assign_of_total]
    by_cases hn : config.dbName = name
    · rw [if_pos hn, Option.some.injEq]
      constructor
      · rintro rfl
        exact ⟨db, if_pos rfl, hname.trans hn⟩
      · rintro ⟨db', hlive, hname'⟩
        by_contra hne
        rw [if_neg hne] at hlive
        exact hfresh id' db' hlive (hname'.trans hn.symm)
    · rw [if_neg hn, h.name2id_iff]
      constructor
      · rintro ⟨db', hlive, hname'⟩
        refine ⟨db', ?_, hname'⟩
        rw [if_neg, ← Live]
        · exact hlive
        · rintro rfl
          rw [Live, hid] at hlive
          cases hlive
      · rintro ⟨db', hlive, hname'⟩
        split_ifs at hlive with heq
        · cases hlive
          exact absurd (hname.symm.trans hname') hn
        · exact ⟨db', hlive, hname'⟩
  id2name_eq id' := by
    simp only [lookup_assign_of_total, h.id2name_eq]
    split_ifs
    · rw [Option.map_some, hname]
    · rfl

theorem tables_remove (h : p.Tables) (id : UInt64) : (p.removeDatabase id).2.Tables := by
  unfold removeDatabase
  split_ifs with hcount
  · obtain ⟨db, hlive⟩ : ∃ db, lookup idLess p.databases id = some db := by
      rw [ne_eq, count_eq_zero_iff] at hcount
      exact Option.ne_none_iff_exists'.1 hcount
    have hdbname : (lookup idLess p.id2name id).getD [] = db.name := by
      rw [h.id2name_eq, hlive]
      rfl
    simp only [hdbname]
    refine ⟨sorted_erase _ h.sorted_databases _, sorted_erase _ h.sorted_name2id _,
      sorted_erase _ h.sorted_id2name _, ?_, ?_⟩
    · intro name id'
      simp only [Live, lookup_erase_of_total]
      by_cases hn : db.name = name
      · rw [if_pos hn]
        constructor
        · rintro ⟨⟩
        · rintro ⟨db', hlive', hname'⟩
          split_ifs at hlive' with heq
          have hfirst := (h.name2id_iff name id).2 ⟨db, hlive, hn⟩
          have hsecond := (h.name2id_iff name id').2 ⟨db', hlive', hname'⟩
          rw [hfirst, Option.some.injEq] at hsecond
          exact absurd hsecond heq
      · rw [if_neg hn, h.name2id_iff]
        constructor
        · rintro ⟨db', hlive', hname'⟩
          refine ⟨db', ?_, hname'⟩
          rw [if_neg, ← Live]
          · exact hlive'
          · rintro rfl
            rw [Live, hlive, Option.some.injEq] at hlive'
            exact hn (hlive' ▸ hname')
        · rintro ⟨db', hlive', hname'⟩
          split_ifs at hlive' with heq
          exact ⟨db', hlive', hname'⟩
    · intro id'
      simp only [lookup_erase_of_total, h.id2name_eq]
      split_ifs <;> rfl
  · exact h

theorem mem_listedIds_iff (h : p.Tables) (id : UInt64) :
    id ∈ p.listedIds ↔ ∃ db, p.Live id db := by
  rw [listedIds, List.mem_map]
  constructor
  · rintro ⟨⟨name, id'⟩, hmem, rfl⟩
    rw [← lookup_eq_some_iff stringLess h.sorted_name2id, h.name2id_iff] at hmem
    obtain ⟨db, hlive, -⟩ := hmem
    exact ⟨db, hlive⟩
  · rintro ⟨db, hlive⟩
    refine ⟨(db.name, id), ?_, rfl⟩
    rw [← lookup_eq_some_iff stringLess h.sorted_name2id, h.name2id_iff]
    exact ⟨db, hlive, rfl⟩

theorem nodup_listedIds (h : p.Tables) : p.listedIds.Nodup := by
  refine List.Nodup.map_on ?_ (nodup_of_sorted stringLess h.sorted_name2id)
  rintro ⟨name, id⟩ hmem ⟨name', id'⟩ hmem' heq
  obtain rfl : id = id' := heq
  rw [← lookup_eq_some_iff stringLess h.sorted_name2id, h.name2id_iff] at hmem hmem'
  obtain ⟨db, hlive, rfl⟩ := hmem
  obtain ⟨db', hlive', rfl⟩ := hmem'
  rw [Live, hlive, Option.some.injEq] at hlive'
  rw [hlive']

theorem count_listedIds_of_live (h : p.Tables) {id : UInt64} {db : Datastore}
    (hlive : p.Live id db) : p.listedIds.count id = 1 :=
  List.count_eq_one_of_mem (nodup_listedIds h)
    ((mem_listedIds_iff h id).2 ⟨db, hlive⟩)

theorem length_listedIds_of_tables (h : p.Tables) :
    p.listedIds.length = p.countDatabases := by
  have hperm : p.listedIds.Perm (p.databases.map Prod.fst) := by
    rw [List.perm_ext_iff_of_nodup (nodup_listedIds h)
      (nodup_keys_of_sorted idLess h.sorted_databases)]
    intro id
    simp only [mem_listedIds_iff h, Live, lookup_eq_some_iff idLess h.sorted_databases,
      List.mem_map, Prod.exists, exists_and_right, exists_eq_right]
  rw [hperm.length_eq, List.length_map, countDatabases]

section Listing

/-- The loop fills the entries from its counter on, as long as it does not wrap around. -/
theorem listDatabasesLoop_eq (written ids : List UInt64) {i : ℕ} (hi : written.length = i)
    (hlt : i + ids.length ≤ 2 ^ 32) :
    listDatabasesLoop i ids (written.map some ++ List.replicate ids.length none) =
      (written ++ ids).map some := by
  induction ids generalizing written i with
  | nil => simp [listDatabasesLoop]
  | cons id ids ih =>
      have hset : (written.map some ++ List.replicate (id :: ids).length none).set i (some id) =
          (written ++ [id]).map some ++ List.replicate ids.length none := by
        rw [List.set_append_right _ _ (by rw [List.length_map, hi]), List.length_map, hi,
          Nat.sub_self, List.length_cons, List.replicate_succ]
        simp
      rw [listDatabasesLoop, hset]
      by_cases hlast : ids = []
      · subst hlast
        simp [listDatabasesLoop]
      · have hpos := List.length_pos_iff.2 hlast
        rw [List.length_cons] at hlt
        rw [Nat.mod_eq_of_lt (by omega), ih _ (by rw [List.length_append, hi]; rfl) (by omega)]
        simp

/-- The entries behind the last value of the counter are not written. -/
theorem drop_listDatabasesLoop {i : ℕ} (hi : i < 2 ^ 32) (ids : List UInt64)
    (targets : List (Option UInt64)) :
    (listDatabasesLoop i ids targets).drop (2 ^ 32) = targets.drop (2 ^ 32) := by
  induction ids generalizing i targets with
  | nil => rfl
  | cons id ids ih =>
      rw [listDatabasesLoop, ih (Nat.mod_lt _ (by decide)), List.drop_set_of_lt hi]

/-- With a value of the counter for each, all databases are listed. -/
theorem listDatabases_eq (h : p.listedIds.length ≤ 2 ^ 32) : p.listDatabases = p.listedIds := by
  have hloop := listDatabasesLoop_eq [] p.listedIds (i := 0) rfl (by omega)
  rw [List.map_nil, List.nil_append, List.nil_append] at hloop
  rw [listDatabases, hloop]
  simp

theorem length_listDatabases_le : p.listDatabases.length ≤ 2 ^ 32 := by
  set targets := listDatabasesLoop 0 p.listedIds (List.replicate p.listedIds.length none)
    with htargets
  have hdrop : (targets.drop (2 ^ 32)).filterMap id = [] := by
    rw [htargets, drop_listDatabasesLoop (by decide), List.drop_replicate]
    simp
  calc p.listDatabases.length
      = ((targets.take (2 ^ 32) ++ targets.drop (2 ^ 32)).filterMap id).length := by
        rw [List.take_append_drop]
        rfl
    _ = ((targets.take (2 ^ 32)).filterMap id).length := by
        rw [List.filterMap_append, hdrop, List.append_nil]
    _ ≤ (targets.take (2 ^ 32)).length := List.length_filterMap_le _ _
    _ ≤ 2 ^ 32 := by
        rw [List.length_take]
        exact Nat.min_le_left _ _

end Listing

theorem open_of_live (h : p.Tables) {id : UInt64} {db : Datastore} (hlive : p.Live id db) :
    p.open db.name = .ok id := by
  rw [«open», (h.name2id_iff db.name id).2 ⟨db, hlive, rfl⟩]

theorem live_remove_of_ne {id id' : UInt64} {db' : Datastore} (hlive : p.Live id' db')
    (hne : id' ≠ id) : (p.removeDatabase id).2.Live id' db' := by
  unfold removeDatabase
  split_ifs with hcount
  · rw [Live, lookup_erase_of_total, if_neg hne.symm]
    exact hlive
  · exact hlive

theorem countDatabases_remove_le (p : Provider) (id : UInt64) :
    (p.removeDatabase id).2.countDatabases ≤ p.countDatabases := by
  unfold removeDatabase
  split_ifs with hcount
  · exact List.length_filter_le _ _
  · exact le_rfl

/-- The databases can be listed, and every one of them is. -/
theorem consistent_of_tables (h : p.Tables) (hroom : p.countDatabases ≤ 2 ^ 32) :
    p.Consistent := by
  have hlist := listDatabases_eq ((length_listedIds_of_tables h).trans_le hroom)
  refine ⟨?_, ?_, ?_, ?_⟩
  · intro id db hlive
    rw [hlist, count_listedIds_of_live h hlive]
  · rw [hlist, length_listedIds_of_tables h]
  · intro id db hlive
    exact open_of_live h hlive
  · intro id id' db' hlive hne
    have hafter := tables_remove h id
    have hlive' := live_remove_of_ne hlive hne
    have hlist' := listDatabases_eq ((length_listedIds_of_tables hafter).trans_le
      ((countDatabases_remove_le p id).trans hroom))
    rw [hlist, hlist', count_listedIds_of_live hafter hlive', count_listedIds_of_live h hlive,
      open_of_live hafter hlive', open_of_live h hlive]
    exact ⟨rfl, rfl⟩

theorem tables_step {p' : Provider} {op : ProviderOp} (h : p.Tables)
    (hfresh : p.FreshName op) (hstep : p.step op = some p') : p'.Tables := by
  cases op with
  | attach config opened =>
      simp only [step] at hstep
      split_ifs at hstep with hlive
      cases hstep
      unfold attachDatabase
      cases hcomp : p.findCompFn config with
      | none => exact h
      | some compFn =>
          cases opened with
          | none => exact h
          | some id =>
              have hid : lookup idLess p.databases id = none := by
                simpa using hlive
              exact tables_attach h config (configure config compFn) id rfl hid
                (hfresh (by rw [hcomp]; rfl) rfl)
  | remove dbId =>
      cases hstep
      exact tables_remove h dbId
  | removeAll =>
      cases hstep
      exact tables_new p.compfunctions

/-- A new database has an entry of its own. -/
theorem countDatabases_attach {config : SdskvConfig} {id : UInt64} {compFn : Option ComparatorFn}
    (hcomp : p.findCompFn config = some compFn) (hid : lookup idLess p.databases id = none) :
    (p.attachDatabase config (some id)).2.countDatabases = p.countDatabases + 1 := by
  simp only [attachDatabase, hcomp, countDatabases]
  exact length_assign_of_lookup_eq_none idLess _ hid

/-- A call that the listing has room for does not exceed it. -/
theorem countDatabases_step {p' : Provider} {op : ProviderOp}
    (hroom : p.countDatabases ≤ 2 ^ 32) (hop : p.HasRoom op) (hstep : p.step op = some p') :
    p'.countDatabases ≤ 2 ^ 32 := by
  cases op with
  | attach config opened =>
      simp only [step] at hstep
      split_ifs at hstep with hlive
      cases hstep
      cases hcomp : p.findCompFn config with
      | none =>
          simp only [attachDatabase, hcomp]
          exact hroom
      | some compFn =>
          cases opened with
          | none =>
              simp only [attachDatabase, hcomp]
              exact hroom
          | some id =>
              rw [countDatabases_attach hcomp (by simpa using hlive)]
              exact hop (by rw [hcomp]; rfl) rfl
  | remove dbId =>
      cases hstep
      exact (countDatabases_remove_le p dbId).trans hroom
  | removeAll =>
      cases hstep
      exact Nat.zero_le _

/-- With one database more than the counter has values, an entry of the listing is written
twice. -/
theorem not_consistent_of_not_hasRoom {p' : Provider} {op : ProviderOp}
    (hroom : ¬ p.HasRoom op) (hstep : p.step op = some p') : ¬ p'.Consistent := by
  cases op with
  | attach config opened =>
      simp only [HasRoom, not_forall] at hroom
      obtain ⟨hcomp, hopened, hroom⟩ := hroom
      obtain ⟨compFn, hcomp⟩ := Option.isSome_iff_exists.1 hcomp
      obtain ⟨id, rfl⟩ := Option.isSome_iff_exists.1 hopened
      simp only [step] at hstep
      split_ifs at hstep with hlive
      cases hstep
      intro hcons
      have hlength := hcons.length_list
      rw [countDatabases_attach hcomp (by simpa using hlive)] at hlength
      have hle := length_listDatabases_le (p := (p.attachDatabase config (some id)).2)
      omega
  | remove dbId => exact absurd trivial hroom
  | removeAll => exact absurd trivial hroom

/-- Attaching a database under the name of a live one hides the live one. -/
theorem not_consistent_of_not_freshName {p' : Provider} {op : ProviderOp}
    (hfresh : ¬ p.FreshName op) (hstep : p.step op = some p') : ¬ p'.Consistent := by
  cases op with
  | attach config opened =>
      simp only [FreshName, not_forall, not_not] at hfresh
      obtain ⟨hcomp, hopened, id', db', hlive', hname⟩ := hfresh
      obtain ⟨compFn, hcomp⟩ := Option.isSome_iff_exists.1 hcomp
      obtain ⟨id, rfl⟩ := Option.isSome_iff_exists.1 hopened
      simp only [step] at hstep
      split_ifs at hstep with hlive
      cases hstep
      have hne : id ≠ id' := by
        rintro rfl
        exact hlive ⟨id, rfl, by rw [hlive']; rfl⟩
      simp only [attachDatabase, hcomp]
      intro hcons
      have hopen := hcons.open_name id' db'
        (by rw [Live, lookup_assign_of_total, if_neg hne]; exact hlive')
      simp only [«open», lookup_assign_of_total, hname, if_true] at hopen
      cases hopen
      exact hne rfl
  | remove dbId => exact absurd trivial hfresh
  | removeAll => exact absurd trivial hfresh

end Tables

/-- In a run from a provider without databases, every state reached is consistent
exactly when no database is attached under the name of a live one, and none while there are as
many as the listing can count. -/
theorem consistent_iff_freshNames (compfunctions : List (Bulk × ComparatorFn))
    (ops : List ProviderOp) (p' : Provider)
    (hrun : run? step (new compfunctions) ops = some p') :
    (∀ n p'', run? step (new compfunctions) (ops.take n) = some p'' → p''.Consistent) ↔
      holdsAlong step (fun p op => p.FreshName op ∧ p.HasRoom op) (new compfunctions) ops := by
  refine forall_prefix_iff_holdsAlong (I := fun p => p.Tables ∧ p.countDatabases ≤ 2 ^ 32)
    ?_ ?_ ?_ ⟨tables_new compfunctions, Nat.zero_le _⟩ hrun
  · rintro p ⟨htables, hroom⟩
    exact consistent_of_tables htables hroom
  · rintro p op p' ⟨htables, hroom⟩ ⟨hfresh, hop⟩ hstep
    exact ⟨tables_step htables hfresh hstep, countDatabases_step hroom hop hstep⟩
  · rintro p op p' - hbad hstep
    rcases not_and_or.1 hbad with hfresh | hroom
    · exact not_consistent_of_not_freshName hfresh hstep
    · exact not_consistent_of_not_hasRoom hroom hstep

/-- A database without a comparison function. -/
def plainConfig (name : Bulk) : SdskvConfig :=
  { dbName := name, dbPath := [], dbCompFnName := none, dbNoOverwrite := false }

theorem freshName_attach {p : Provider} {config : SdskvConfig} {opened : Option UInt64}
    (h : ∀ e ∈ p.databases, e.2.name ≠ config.dbName) :
    p.FreshName (.attach config opened) := by
  intro _ _ id db hlive
  obtain ⟨id', -, hmem⟩ := exists_mem_of_lookup idLess hlive
  exact h _ hmem

/-- Two databases are attached under different names, and one of them is removed again. -/
def twoNames : List ProviderOp :=
  [.attach (plainConfig [97]) (some 16), .attach (plainConfig [98]) (some 32), .remove 16]

theorem consistent_iff_freshNames_twoNames :
    holdsAlong step (fun p op => p.FreshName op ∧ p.HasRoom op) (new []) twoNames ∧
      ∀ n p'', run? step (new []) (twoNames.take n) = some p'' → p''.Consistent := by
  have hok : holdsAlong step (fun p op => p.FreshName op ∧ p.HasRoom op) (new []) twoNames := by
    refine ⟨⟨freshName_attach (by decide), fun _ _ => by decide⟩, ?_⟩
    rintro p ⟨⟩
    refine ⟨⟨freshName_attach (by decide), fun _ _ => by decide⟩, ?_⟩
    rintro p ⟨⟩
    exact ⟨⟨trivial, trivial⟩, fun _ _ => trivial⟩
  exact ⟨hok, (consistent_iff_freshNames [] twoNames _ rfl).2 hok⟩

/-- Two databases attached under one name: the listing has one of the two. -/
theorem sameName_not_consistent :
    ∃ p', run? step (new []) [.attach (plainConfig [97]) (some 16),
        .attach (plainConfig [97]) (some 32)] = some p' ∧
      p'.listDatabases = [32] ∧ p'.countDatabases = 2 ∧ ¬ p'.Consistent := by
  refine ⟨_, rfl, by decide, by decide, ?_⟩
  intro h
  have hlength := h.length_list
  revert hlength
  decide

end Provider

end Sdskv
