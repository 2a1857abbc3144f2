import Sdskv.Provider.Tables

/-!
# The ids that a provider hands out

`open` and the list-databases request read ids from `name2id`, and every other
request looks its id up in `databases`. `Tables` relates the two only as long as the
names of the live databases differ. The weaker invariant `Names` needs no such
condition: an entry of `name2id` names a database that `id2name` knows under that
very name. An attach under a used name overwrites the entry of the older database,
and a removal erases the entry of its name, whoever owns it; neither leaves an entry
that points to a removed database.

An id is an address, so it may come back. What a request finds under it depends on the
last call that concerned it.
-/

namespace Sdskv

open OrderedMap Transition

namespace Provider

/-- `list_db_out_t` as the handler fills it. -/
structure ListDbReply where
  count : ℕ
  dbNames : List Bulk
  dbIds : List UInt64
  ret : Int

/-- The loop of `sdskv_list_db_ult` over `name2id`, with the entries it copies and the
final value of its counter, which has 32 bits. -/
def listDbLoop (count : ℕ) : ℕ → List (Bulk × UInt64) → List (Bulk × UInt64) × ℕ
  | i, [] => ([], i)
  | i, p :: name2id =>
      if i ≥ count then ([], i)
      else
        let rest := listDbLoop count ((i + 1) % 2 ^ 32) name2id
        (p :: rest.1, rest.2)

/-- `sdskv_list_db_ult`, on what `margo_get_input` answers. -/
def sdskvListDbUlt (p : Provider) : Except ℕ UInt64 → ListDbReply
  | .error hret => { count := 0, dbNames := [], dbIds := [], ret := makeHgError hret }
  | .ok count =>
      let (entries, i) := listDbLoop count.toNat 0 p.name2id
      { count := i
        dbNames := (entries.map Prod.fst).take i
        dbIds := (entries.map Prod.snd).take i
        ret := SdskvReturn.success.code }

/-- `FIND_DATABASE`: what a request with the id gets access to. -/
def findDatabase (p : Provider) (dbId : UInt64) : Except SdskvReturn Datastore :=
  match lookup idLess p.databases dbId with
  | none => .error .errUnknownDb
  | some db => .ok db

/-- Every id that a request can return is the id of a live database, and `id2name` has
the ids of the live databases. -/
structure IdsLive (p : Provider) : Prop where
  open_live : ∀ name id, p.open name = .ok id → ∃ db, p.Live id db
  listDb_live : ∀ count, ∀ id ∈ (p.sdskvListDbUlt count).dbIds, ∃ db, p.Live id db
  same_ids : ∀ id, id ∈ p.id2name.map Prod.fst ↔ id ∈ p.databases.map Prod.fst

/-- The three tables are sorted, `id2name` has the ids of the live databases, and an
entry of `name2id` names a database by the name that `id2name` has for it. -/
structure Names (p : Provider) : Prop where
  sorted_databases : Sorted idLess p.databases
  sorted_name2id : Sorted stringLess p.name2id
  sorted_id2name : Sorted idLess p.id2name
  id2name_eq_none_iff : ∀ id,
    lookup idLess p.id2name id = none ↔ lookup idLess p.databases id = none
  id2name_of_name2id : ∀ name id, lookup stringLess p.name2id name = some id →
    lookup idLess p.id2name id = some name

section Names

variable {p : Provider}

theorem names_new (compfunctions : List (Bulk × ComparatorFn)) :
    (new compfunctions).Names where
  sorted_databases := List.Pairwise.nil
  sorted_name2id := List.Pairwise.nil
  sorted_id2name := List.Pairwise.nil
  id2name_eq_none_iff _ := by simp [new]
  id2name_of_name2id name id h := by simp [new] at h

/-- The name may be that of a live database; only the id has to be new. -/
theorem names_attach (h : p.Names) (name : Bulk) (db : Datastore) {id : UInt64}
    (hid : lookup idLess p.databases id = none) :
    Names { p with
      name2id := assign stringLess p.name2id name id
      id2name := assign idLess p.id2name id name
      databases := assign idLess p.databases id db } where
  sorted_databases := sorted_assign _ h.sorted_databases _ _
  sorted_name2id := sorted_assign _ h.sorted_name2id _ _
  sorted_id2name := sorted_assign _ h.sorted_id2name _ _
  id2name_eq_none_iff id' := by
    simp only [lookup_assign_of_total]
    split_ifs
    · simp
    · exact h.id2name_eq_none_iff id'
  id2name_of_name2id name' id' := by
    simp only [lookup_assign_of_total]
    intro hname
    split_ifs at hname with hn
    · cases hname
      rw [if_pos rfl, hn]
    · have hold := h.id2name_of_name2id name' id' hname
      rw [if_neg, hold]
      rintro rfl
      rw [(h.id2name_eq_none_iff id).2 hid] at hold
      cases hold

theorem names_remove (h : p.Names) (id : UInt64) : (p.removeDatabase id).2.Names := by
  unfold removeDatabase
  split_ifs with hcount
  · refine ⟨sorted_erase _ h.sorted_databases _, sorted_erase _ h.sorted_name2id _,
      sorted_erase _ h.sorted_id2name _, ?_, ?_⟩
    · intro id'
      simp only [lookup_erase_of_total]
      split_ifs
      · simp
      · exact h.id2name_eq_none_iff id'
    · intro name' id'
      simp only [lookup_erase_of_total]
      intro hname
      split_ifs at hname with hn
      have hold := h.id2name_of_name2id name' id' hname
      -- the entry of another name cannot point to the removed database
      have hne : id ≠ id' := by
        rintro rfl
        exact hn (by rw [hold]; rfl)
      rw [if_neg hne, hold]
  · exact h

theorem names_step {p' : Provider} {op : ProviderOp} (h : p.Names)
    (hstep : p.step op = some p') : p'.Names := by
  cases op with
  | attach config opened =>
      simp only [step] at hstep
      split_ifs at hstep with hlive
      cases hstep
      unfold attachDatabase
      cases hcomp : p.findCompFn config with
      | none => exact h
      | some compFn =>
          cases opened with
          | none => exact h
          | some id =>
              exact names_attach h config.dbName (configure config compFn)
                (by simpa using hlive)
  | remove dbId =>
      cases hstep
      exact names_remove h dbId
  | removeAll =>
      cases hstep
      exact names_new p.compfunctions

theorem live_of_name2id (h : p.Names) {name : Bulk} {id : UInt64}
    (hname : lookup stringLess p.name2id name = some id) : ∃ db, p.Live id db := by
  have hid := h.id2name_of_name2id name id hname
  apply Option.ne_none_iff_exists'.1
  rw [ne_eq, ← h.id2name_eq_none_iff, hid]
  exact Option.some_ne_none name

/-- The loop copies a first part of the table. -/
theorem listDbLoop_sublist (count i : ℕ) (name2id : List (Bulk × UInt64)) :
    (listDbLoop count i name2id).1.Sublist name2id := by
  induction name2id generalizing i with
  | nil => exact List.Sublist.refl []
  | cons p name2id ih =>
      rw [listDbLoop]
      split_ifs
      · exact List.nil_sublist _
      · exact (ih _).cons_cons p

theorem mem_name2id_of_mem_dbIds {count : Except ℕ UInt64} {id : UInt64}
    (hid : id ∈ (p.sdskvListDbUlt count).dbIds) : ∃ name, (name, id) ∈ p.name2id := by
  cases count with
  | error hret => simp [sdskvListDbUlt] at hid
  | ok count =>
      obtain ⟨⟨name, id'⟩, hmem, rfl⟩ := List.mem_map.1 (List.mem_of_mem_take hid)
      exact ⟨name, (listDbLoop_sublist count.toNat 0 p.name2id).subset hmem⟩

theorem mem_keys_iff {β : Type*} {m : List (UInt64 × β)} (h : Sorted idLess m) (id : UInt64) :
    id ∈ m.map Prod.fst ↔ lookup idLess m id ≠ none := by
  rw [Option.ne_none_iff_exists', List.mem_map]
  simp only [lookup_eq_some_iff idLess h, Prod.exists, exists_and_right, exists_eq_right]

theorem idsLive_of_names (h : p.Names) : p.IdsLive where
  open_live name id hopen := by
    unfold «open» at hopen
    split at hopen
    · cases hopen
    · next hname =>
        cases hopen
        exact live_of_name2id h hname
  listDb_live count id hid := by
    obtain ⟨name, hmem⟩ := mem_name2id_of_mem_dbIds hid
    exact live_of_name2id h ((lookup_eq_some_iff stringLess h.sorted_name2id).2 hmem)
  same_ids id := by
    rw [mem_keys_iff h.sorted_id2name, mem_keys_iff h.sorted_databases, ne_eq,
      h.id2name_eq_none_iff]

end Names

/-- In every state of a run from a provider without databases, the ids that requests
return are ids of live databases, whatever the names are. -/
theorem idsLive_of_run (compfunctions : List (Bulk × ComparatorFn)) (ops : List ProviderOp)
    (p' : Provider) (hrun : run? step (new compfunctions) ops = some p') : p'.IdsLive :=
  idsLive_of_names
    (invariant_of_step (fun _ _ _ h hs => names_step h hs) (names_new compfunctions) hrun)

/-- Two databases under one name, a failed attach, and the removal of the older one:
the name is gone although the younger one is live. -/
theorem idsLive_of_run_sameName :
    ∃ p', run? step (new []) [.attach (plainConfig [97]) (some 16),
        .attach (plainConfig [97]) (some 32), .attach (plainConfig [98]) none, .remove 16] =
          some p' ∧
      p'.listDatabases = [] ∧ p'.countDatabases = 1 ∧ p'.IdsLive := by
  refine ⟨_, rfl, by decide, by decide, ?_⟩
  exact idsLive_of_run [] [.attach (plainConfig [97]) (some 16),
    .attach (plainConfig [97]) (some 32), .attach (plainConfig [98]) none, .remove 16] _ rfl

section Reuse

/-- What a call leaves under an id that led to `current` before it. -/
def afterCall (p : Provider) (id : UInt64) (current : Option Datastore) :
    ProviderOp → Option Datastore
  | .attach config opened =>
      match p.findCompFn config with
      | none => current
      | some compFn => if opened = some id then some (configure config compFn) else current
  | .remove dbId => if dbId = id then none else current
  | .removeAll => none

/-- The database of the last attach among the calls that got the id and was not
removed again. -/
def reattached (p : Provider) (id : UInt64) (ops : List ProviderOp) : Option Datastore :=
  ops.foldl (p.afterCall id) none

variable {p : Provider}

/-- A call is judged by the registered comparison functions only. -/
theorem afterCall_congr {p' : Provider} (h : p'.compfunctions = p.compfunctions)
    (id : UInt64) : p'.afterCall id = p.afterCall id := by
  funext current op
  cases op with
  | attach config opened => simp only [afterCall, findCompFn, h]
  | remove dbId => rfl
  | removeAll => rfl

theorem compfunctions_step {p' : Provider} {op : ProviderOp} (hstep : p.step op = some p') :
    p'.compfunctions = p.compfunctions := by
  cases op with
  | attach config opened =>
      simp only [step] at hstep
      split_ifs at hstep
      cases hstep
      unfold attachDatabase
      cases p.findCompFn config with
      | none => rfl
      | some compFn => cases opened <;> rfl
  | remove dbId =>
      cases hstep
      unfold removeDatabase
      split_ifs <;> rfl
  | removeAll =>
      cases hstep
      rfl

theorem lookup_databases_remove (id dbId : UInt64) :
    lookup idLess (p.removeDatabase dbId).2.databases id =
      if dbId = id then none else lookup idLess p.databases id := by
  unfold removeDatabase
  split_ifs with hcount hid hid
  · rw [lookup_erase_of_total, if_pos hid]
  · rw [lookup_erase_of_total, if_neg hid]
  · rw [ne_eq, not_not, count_eq_zero_iff] at hcount
    rwa [← hid]
  · rfl

theorem lookup_databases_step {p' : Provider} {op : ProviderOp} (hstep : p.step op = some p')
    (id : UInt64) :
    lookup idLess p'.databases id = p.afterCall id (lookup idLess p.databases id) op := by
  cases op with
  | attach config opened =>
      simp only [step] at hstep
      split_ifs at hstep
      cases hstep
      cases hcomp : p.findCompFn config with
      | none => simp only [attachDatabase, afterCall, hcomp]
      | some compFn =>
          cases opened with
          | none => simp [attachDatabase, afterCall, hcomp]
          | some id' =>
              simp only [attachDatabase, afterCall, hcomp, lookup_assign_of_total,
                Option.some.injEq]
  | remove dbId =>
      cases hstep
      exact lookup_databases_remove id dbId
  | removeAll =>
      cases hstep
      rfl

theorem lookup_databases_run {p' : Provider} {ops : List ProviderOp}
    (hrun : run? step p ops = some p') (id : UInt64) :
    lookup idLess p'.databases id =
      ops.foldl (p.afterCall id) (lookup idLess p.databases id) := by
  induction ops generalizing p with
  | nil =>
      cases hrun
      rfl
  | cons op ops ih =>
      obtain ⟨q, hstep, hrun⟩ := Option.bind_eq_some_iff.1 hrun
      rw [ih hrun, afterCall_congr (compfunctions_step hstep),
        lookup_databases_step hstep, List.foldl_cons]

theorem reattached_eq_none {id : UInt64} {ops : List ProviderOp}
    (h : ∀ config, ProviderOp.attach config (some id) ∉ ops) : p.reattached id ops = none := by
  have hstay : ∀ op ∈ ops, p.afterCall id none op = none := by
    intro op hop
    cases op with
    | attach config opened =>
        have hne : opened ≠ some id := by
          rintro rfl
          exact h config hop
        cases hcomp : p.findCompFn config with
        | none => simp only [afterCall, hcomp]
        | some compFn => simp only [afterCall, hcomp, if_neg hne]
    | remove dbId => exact ite_self none
    | removeAll => rfl
  clear h
  unfold reattached
  induction ops with
  | nil => rfl
  | cons op ops ih =>
      rw [List.foldl_cons, hstay op List.mem_cons_self]
      exact ih fun op' hop' => hstay op' (List.mem_cons_of_mem op hop')

end Reuse

/-- After a removal, a request with the removed id finds the database of the last attach
that was given that address afterwards and was not removed again. As long as no attach
is given the address, the request is answered with `SDSKV_ERR_UNKNOWN_DB`. -/
theorem findDatabase_after_remove (p p' p'' : Provider) (id : UInt64)
    (removal : ProviderOp) (after : List ProviderOp)
    (hremoval : removal = .remove id ∨ removal = .removeAll)
    (hstep : p.step removal = some p') (hafter : run? step p' after = some p'') :
    p''.findDatabase id =
        (match p.reattached id after with
          | none => .error .errUnknownDb
          | some db => .ok db) ∧
      ((∀ config, .attach config (some id) ∉ after) →
        p''.findDatabase id = .error .errUnknownDb) := by
  have hgone : lookup idLess p'.databases id = none := by
    rw [lookup_databases_step hstep]
    rcases hremoval with rfl | rfl
    · exact if_pos rfl
    · rfl
  have hlookup : lookup idLess p''.databases id = p.reattached id after := by
    rw [lookup_databases_run hafter, hgone, afterCall_congr (compfunctions_step hstep),
      reattached]
  constructor
  · rw [findDatabase, hlookup]
  · intro hnone
    rw [findDatabase, hlookup, reattached_eq_none hnone]

/-- An attach at the address of a removed database: the id leads to the new one. -/
theorem findDatabase_after_remove_reused :
    ∃ p'', run? step (new []) [.attach (plainConfig [97]) (some 16), .remove 16,
        .attach (plainConfig [98]) (some 16)] = some p'' ∧
      p''.findDatabase 16 = .ok (configure (plainConfig [98]) none) := by
  refine ⟨_, rfl, ?_⟩
  exact (findDatabase_after_remove ((new []).attachDatabase (plainConfig [97]) (some 16)).2
    _ _ 16 (.remove 16) [.attach (plainConfig [98]) (some 16)] (Or.inl rfl) rfl rfl).1

/-- A removed id may lead to another database later. -/
theorem removed_id_reused :
    ¬ ∀ (compfunctions : List (Bulk × ComparatorFn)) (before after : List ProviderOp)
      (p p' p'' : Provider) (id : UInt64) (db : Datastore),
      run? step (new compfunctions) before = some p → p.Live id db →
        p.step (.remove id) = some p' → run? step p' after = some p'' →
          p''.findDatabase id = .error .errUnknownDb := by
  intro h
  have hunknown := h [] [.attach (plainConfig [97]) (some 16)]
    [.attach (plainConfig [98]) (some 16)] _ _ _ 16 (configure (plainConfig [97]) none)
    rfl rfl rfl rfl
  have hfound : ∀ p'' : Provider, p''.databases = [(16, configure (plainConfig [98]) none)] →
      p''.findDatabase 16 = .ok (configure (plainConfig [98]) none) := by
    intro p'' hp
    rw [findDatabase, hp]
    rfl
  rw [hfound _ rfl] at hunknown
  cases hunknown

end Provider

end Sdskv
