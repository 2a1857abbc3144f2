import Sdskv.Config.Schema
import Sdskv.Provider.Tables

/-!
# Populating a provider from its configuration

`populate_provider_from_config` looks up the comparison functions of the configuration and
attaches its databases. A comparison function that is not found and a type that is not
known end the function and the loop; an attach that fails does not, and the next attach
overwrites its return value. The databases are removed when the last value is an error.

What the function asks of its surroundings is in `PopulateEnv`: the symbols that the dynamic
linker finds, and the addresses of the datastores that the factory creates. No datastore is
deleted in the loop, so these addresses differ.
-/

namespace Sdskv

open Json OrderedMap

/-- `sdskv_db_type_t`, as far as a configuration can name the types. -/
inductive SdskvDbType
  | map
  | null
  | leveldb
  | berkeleydb
  | forwarddb
  deriving DecidableEq, Repr

/-- The bytes of a string constant of the source. -/
def stringBytes (s : String) : Bulk := s.toUTF8.data.toList

/-- The type that a configuration names. -/
def dbTypeOf (type : Bulk) : Option SdskvDbType :=
  if type = stringBytes "map" then some .map
  else if type = stringBytes "null" then some .null
  else if type = stringBytes "leveldb" ∨ type = stringBytes "ldb" then some .leveldb
  else if type = stringBytes "berkeleydb" ∨ type = stringBytes "bdb" then some .berkeleydb
  else if type = stringBytes "forward" ∨ type = stringBytes "fwd" then some .forwarddb
  else none

/-- The C string at `s.c_str()`, which ends at the first null character. -/
def cString (s : Bulk) : Bulk := s.takeWhile (· ≠ 0)

/-- What `dlsym` finds for the `i`-th comparator, and the address of the datastore that is
created for the `i`-th database. -/
structure PopulateEnv where
  dlsym : ℕ → Bulk → Bulk → Option ComparatorFn
  created : ℕ → Option UInt64
  distinct : ∀ i j id, created i = some id → created j = some id → i = j

/-- `datastore_factory::open_datastore`; it has no case for a forwarding database. -/
def PopulateEnv.openDatastore (env : PopulateEnv) (i : ℕ) : SdskvDbType → Option UInt64
  | .forwarddb => none
  | _ => env.created i

section Entries

variable (it : Value Bulk)

/-- `(*it)[key].asString()`, for a member that was checked to be a string. -/
def stringMember (key : String) : Bulk :=
  match it.find? key with
  | some (.string s) => s
  | _ => []

/-- `(*it)[key].asBool()`, for a member that was checked to be a boolean. -/
def boolMember (key : String) : Bool :=
  match it.find? key with
  | some (.boolean b) => b
  | _ => false

/-- The `sdskv_config_t` of a database. -/
def dbConfig : SdskvConfig :=
  { dbName := cString (stringMember it "name")
    dbPath := cString (stringMember it "path")
    dbCompFnName := some (cString (stringMember it "comparator"))
    dbNoOverwrite := boolMember it "no_overwrite" }

/-- What the dynamic linker finds for a comparator. -/
def comparatorFound (env : PopulateEnv) (i : ℕ) : Option ComparatorFn :=
  env.dlsym i (cString (stringMember it "library")) (cString (stringMember it "name"))

end Entries

/-- `sdskv_provider_find_comparison_function`, given what the dynamic linker finds. -/
def Provider.findComparisonFunction (p : Provider) (found : Option ComparatorFn)
    (functionName : Bulk) : SdskvReturn × Provider :=
  match found with
  | none => (.errCompFunc, p)
  | some compFn =>
      (.success, { p with compfunctions := assign stringLess p.compfunctions functionName compFn })

/-- The loop over the comparators, from the `i`-th on. -/
def findComparators (env : PopulateEnv) (p : Provider) (i : ℕ) :
    List (Value Bulk) → SdskvReturn × Provider
  | [] => (.success, p)
  | it :: items =>
      match p.findComparisonFunction (comparatorFound it env i)
        (cString (stringMember it "name")) with
      | (.success, p) => findComparators env p (i + 1) items
      | (ret, p) => (ret, p)

/-- The loop over the databases, from the `i`-th on with the return value so far. -/
def attachDatabases (env : PopulateEnv) (p : Provider) (i : ℕ) (ret : SdskvReturn) :
    List (Value Bulk) → Except ConfigFailure (SdskvReturn × Provider × List (Value Bulk))
  | [] => .ok (ret, p, [])
  | it :: items =>
      match dbTypeOf (stringMember it "type") with
      | none => .ok (.errConfig, p, it :: items)
      | some type =>
          match p.attachDatabase (dbConfig it) (env.openDatastore i type) with
          | (.error ret, p) => do
              let (ret, p, items) ← attachDatabases env p (i + 1) ret items
              .ok (ret, p, it :: items)
          | (.ok id, p) => do
              let it ← access (it.set "__database_id__" (.uint id))
              let (ret, p, items) ← attachDatabases env p (i + 1) .success items
              .ok (ret, p, it :: items)

/-- `populate_provider_from_config`: the return value, the provider and its document. A
check that is not passed is returned before anything else happens. -/
def populateProviderFromConfig (env : PopulateEnv) (p : Provider) (cfg : Value Bulk) :
    Except ConfigFailure (SdskvReturn × Provider × Value Bulk) := do
  let cfg ← checkProviderConfig cfg
  -- the subscript operator adds a member that is not there
  let cfg ← withDefault cfg "comparators" .null
  let comparators ← access (cfg.get "comparators")
  match findComparators env p 0 comparators.items with
  | (.success, p) =>
      let cfg ← withDefault cfg "databases" .null
      let databases ← access (cfg.get "databases")
      let (ret, p, items) ← attachDatabases env p 0 .success databases.items
      let cfg ← if databases.isArray then access (cfg.set "databases" (.array items)) else .ok cfg
      .ok (ret, if ret ≠ .success then p.removeAllDatabases.2 else p, cfg)
  | (ret, p) => .ok (ret, p, cfg)

section Comparators

variable (env : PopulateEnv)

/-- The loop over the comparators registers all of them or stops at the first that is not
found. -/
theorem findComparators_of_found (items : List (Value Bulk)) (p : Provider) (i : ℕ)
    (hfound : ∀ j it, items[j]? = some it → (comparatorFound it env (i + j)).isSome) :
    ∃ compfunctions, findComparators env p i items =
        (.success, { p with compfunctions := compfunctions }) ∧
      ∀ name, (lookup stringLess compfunctions name).isSome ↔
        (lookup stringLess p.compfunctions name).isSome ∨
          ∃ it ∈ items, cString (stringMember it "name") = name := by
  induction items generalizing p i with
  | nil => exact ⟨p.compfunctions, rfl, fun name => by simp⟩
  | cons it items ih =>
      have hfirst : (comparatorFound it env i).isSome := hfound 0 it rfl
      obtain ⟨compFn, hfirst⟩ := Option.isSome_iff_exists.1 hfirst
      have hrest : ∀ j it', items[j]? = some it' →
          (comparatorFound it' env (i + 1 + j)).isSome := by
        intro j it' hit'
        rw [Nat.add_right_comm]
        exact hfound (j + 1) it' hit'
      obtain ⟨compfunctions, hloop, hnames⟩ := ih { p with
        compfunctions := assign stringLess p.compfunctions (cString (stringMember it "name"))
          compFn } (i + 1) hrest
      refine ⟨compfunctions, ?_, ?_⟩
      · rw [findComparators, hfirst]
        exact hloop
      · intro name
        rw [hnames, lookup_assign_of_total]
        simp only [List.exists_mem_cons_iff]
        split_ifs with hname
        · simp [hname]
        · simp [hname]

theorem findComparators_of_not_found (items : List (Value Bulk)) (p : Provider) (i : ℕ)
    (hnot : ∃ j it, items[j]? = some it ∧ comparatorFound it env (i + j) = none) :
    ∃ compfunctions, findComparators env p i items =
      (.errCompFunc, { p with compfunctions := compfunctions }) := by
  induction items generalizing p i with
  | nil =>
      obtain ⟨j, it, hit, -⟩ := hnot
      cases hit
  | cons it items ih =>
      cases hfirst : comparatorFound it env i with
      | none =>
          refine ⟨p.compfunctions, ?_⟩
          rw [findComparators, hfirst]
          rfl
      | some compFn =>
          obtain ⟨j, it', hit', hnone⟩ := hnot
          cases j with
          | zero =>
              cases hit'
              rw [add_zero, hfirst] at hnone
              cases hnone
          | succ j =>
              obtain ⟨compfunctions, hloop⟩ := ih { p with
                compfunctions := assign stringLess p.compfunctions
                  (cString (stringMember it "name")) compFn } (i + 1)
                ⟨j, it', hit', by rwa [Nat.add_right_comm]⟩
              refine ⟨compfunctions, ?_⟩
              rw [findComparators, hfirst]
              exact hloop

end Comparators

section Databases

/-- A comparison function that a database may name: none, or one that is registered. -/
def Provider.KnownCompFn (p : Provider) (name : Bulk) : Prop :=
  name = [] ∨ (lookup stringLess p.compfunctions name).isSome

/-- The `i`-th database can be attached when the names of the comparison functions are
known: its type is known and the factory creates a datastore. -/
def Attaches (env : PopulateEnv) (known : Bulk → Prop) (i : ℕ) (it : Value Bulk) : Prop :=
  known (cString (stringMember it "comparator")) ∧
    ∃ type, dbTypeOf (stringMember it "type") = some type ∧ (env.openDatastore i type).isSome

theorem findCompFn_isSome_iff (p : Provider) (it : Value Bulk) :
    (p.findCompFn (dbConfig it)).isSome ↔
      p.KnownCompFn (cString (stringMember it "comparator")) := by
  rw [Provider.findCompFn, Provider.KnownCompFn, dbConfig]
  cases cString (stringMember it "comparator") with
  | nil => simp
  | cons c k => simp

/-- What an attach can do: fail without a change, or enter a database under its address. -/
theorem attachDatabase_cases (p : Provider) (config : SdskvConfig) (opened : Option UInt64) :
    (∃ ret, ret ≠ .success ∧ ¬ ((p.findCompFn config).isSome ∧ opened.isSome) ∧
      p.attachDatabase config opened = (.error ret, p)) ∨
    ∃ id db p', opened = some id ∧ (p.findCompFn config).isSome ∧
      p.attachDatabase config opened = (.ok id, p') ∧ db.name = config.dbName ∧
      p'.compfunctions = p.compfunctions ∧
      ∀ id', lookup idLess p'.databases id' =
        if id = id' then some db else lookup idLess p.databases id' := by
  rw [Provider.attachDatabase]
  cases hcomp : p.findCompFn config with
  | none => exact Or.inl ⟨.errCompFunc, by decide, by simp, rfl⟩
  | some compFn =>
      cases opened with
      | none => exact Or.inl ⟨.errDbCreate, by decide, by simp, rfl⟩
      | some id =>
          exact Or.inr ⟨id, Provider.configure config compFn, _, rfl, rfl, rfl, rfl, rfl,
            fun id' => lookup_assign_of_total _ _ _ _ _⟩

theorem created_of_openDatastore {env : PopulateEnv} {i : ℕ} {type : SdskvDbType} {id : UInt64}
    (h : env.openDatastore i type = some id) : env.created i = some id := by
  cases type with
  | forwarddb => cases h
  | _ => exact h

variable (env : PopulateEnv) {known : Bulk → Prop}

/-- One round of the loop, on a database of a known type. -/
theorem attachDatabases_cons {it : Value Bulk} {p : Provider} (hit : it.isObject = true)
    (htype : (dbTypeOf (stringMember it "type")).isSome)
    (hknown : ∀ name, p.KnownCompFn name ↔ known name) (i : ℕ) (ret : SdskvReturn)
    (items : List (Value Bulk)) :
    ∃ ret₁ p₁ it₁, attachDatabases env p i ret (it :: items) =
        (attachDatabases env p₁ (i + 1) ret₁ items >>= fun r =>
          .ok (r.1, r.2.1, it₁ :: r.2.2)) ∧
      (ret₁ = .success ↔ Attaches env known i it) ∧
      (∀ name, p₁.KnownCompFn name ↔ known name) ∧
      (Attaches env known i it → ∃ id db, env.created i = some id ∧ p₁.Live id db ∧
        db.name = (dbConfig it).dbName) ∧
      ∀ id db, p.Live id db → env.created i ≠ some id → p₁.Live id db := by
  obtain ⟨type, htype⟩ := Option.isSome_iff_exists.1 htype
  have hattaches : Attaches env known i it ↔
      (p.findCompFn (dbConfig it)).isSome ∧ (env.openDatastore i type).isSome := by
    rw [Attaches, htype, findCompFn_isSome_iff, hknown]
    simp
  rw [attachDatabases, htype]
  obtain ⟨ret₁, hret, hfails, hattach⟩ |
      ⟨id, db, p₁, hopened, hcomp, hattach, hname, hfns, hlive⟩ :=
    attachDatabase_cases p (dbConfig it) (env.openDatastore i type)
  · refine ⟨ret₁, p, it, by simp only [hattach], iff_of_false hret ?_, hknown, ?_, ?_⟩
    · exact fun h => hfails (hattaches.1 h)
    · exact fun h => absurd (hattaches.1 h) hfails
    · exact fun id db hlive _ => hlive
  · obtain ⟨it₁, hset, -⟩ := Value.set_of_isObject hit "__database_id__" (.uint id)
    have hopens : (env.openDatastore i type).isSome := by
      rw [hopened]
      rfl
    have hcreated := created_of_openDatastore hopened
    refine ⟨.success, p₁, it₁, by simp only [hattach, hset]; rfl,
      iff_of_true rfl (hattaches.2 ⟨hcomp, hopens⟩), ?_, ?_, ?_⟩
    · intro name
      rw [← hknown, Provider.KnownCompFn, hfns]
      rfl
    · intro _
      exact ⟨id, db, hcreated, by rw [Provider.Live, hlive, if_pos rfl], hname⟩
    · intro id' db' hlive' hne
      have hid : id ≠ id' := by
        rintro rfl
        exact hne hcreated
      rw [Provider.Live, hlive, if_neg hid]
      exact hlive'

/-- A type that is not known ends the loop with an error. -/
theorem attachDatabases_of_unknown (items : List (Value Bulk)) (p : Provider) (i : ℕ)
    (ret : SdskvReturn) (hobject : ∀ it ∈ items, it.isObject = true)
    (hunknown : ∃ it ∈ items, dbTypeOf (stringMember it "type") = none) :
    ∃ p' items', attachDatabases env p i ret items = .ok (.errConfig, p', items') := by
  induction items generalizing p i ret with
  | nil =>
      obtain ⟨it, hit, -⟩ := hunknown
      cases hit
  | cons it items ih =>
      obtain ⟨hit, hobject⟩ := List.forall_mem_cons.1 hobject
      cases htype : dbTypeOf (stringMember it "type") with
      | none =>
          rw [attachDatabases, htype]
          exact ⟨_, _, rfl⟩
      | some type =>
          have hrest : ∃ it ∈ items, dbTypeOf (stringMember it "type") = none := by
            simpa [htype] using hunknown
          obtain ⟨ret₁, p₁, it₁, hstep, -⟩ := attachDatabases_cons env hit
            (by rw [htype]; rfl) (fun _ => Iff.rfl) i ret items
          obtain ⟨p', items', hloop⟩ := ih p₁ (i + 1) ret₁ hobject hrest
          rw [hstep, hloop, ok_bind]
          exact ⟨_, _, rfl⟩

/-- What holds at the last entry of a list, when an entry is put in front. -/
theorem forall_last_cons {P : ℕ → Value Bulk → Prop} {it : Value Bulk}
    {items : List (Value Bulk)} :
    (∀ j it', (it :: items)[j]? = some it' → j + 1 = (it :: items).length → P j it') ↔
      (items = [] → P 0 it) ∧
        ∀ j it', items[j]? = some it' → j + 1 = items.length → P (j + 1) it' := by
  constructor
  · intro hlast
    constructor
    · rintro rfl
      exact hlast 0 it rfl rfl
    · intro j it' hit' hj
      exact hlast (j + 1) it' hit' (by rw [List.length_cons, hj])
  · rintro ⟨hempty, hlast⟩ j it' hit' hj
    cases j with
    | zero =>
        cases hit'
        exact hempty (List.length_eq_zero_iff.1 (by simpa using hj.symm))
    | succ j => exact hlast j it' hit' (by simpa using hj)

/-- When the types are known, the return value is that of the last attach. Each database
that is attached is there at the end, and so is one that was there before. -/
theorem attachDatabases_of_known (items : List (Value Bulk)) (p : Provider) (i : ℕ)
    (ret : SdskvReturn) (hobject : ∀ it ∈ items, it.isObject = true)
    (htypes : ∀ it ∈ items, (dbTypeOf (stringMember it "type")).isSome)
    (hknown : ∀ name, p.KnownCompFn name ↔ known name) :
    ∃ ret' p' items', attachDatabases env p i ret items = .ok (ret', p', items') ∧
      (ret' = .success ↔ (items = [] → ret = .success) ∧
        ∀ j it, items[j]? = some it → j + 1 = items.length → Attaches env known (i + j) it) ∧
      (∀ j it, items[j]? = some it → Attaches env known (i + j) it →
        ∃ id db, env.created (i + j) = some id ∧ p'.Live id db ∧
          db.name = (dbConfig it).dbName) ∧
      ∀ id db, p.Live id db → (∀ j, i ≤ j → env.created j ≠ some id) → p'.Live id db := by
  induction items generalizing p i ret with
  | nil =>
      refine ⟨ret, p, [], rfl, ?_, ?_, fun id db hlive _ => hlive⟩
      · simp
      · intro j it hit
        cases hit
  | cons it items ih =>
      obtain ⟨hit, hobject⟩ := List.forall_mem_cons.1 hobject
      obtain ⟨htype, htypes⟩ := List.forall_mem_cons.1 htypes
      obtain ⟨ret₁, p₁, it₁, hstep, hret₁, hknown₁, hfirst, hkept₁⟩ :=
        attachDatabases_cons env hit htype hknown i ret items
      obtain ⟨ret', p', items', hloop, hret, hattached, hkept⟩ :=
        ih p₁ (i + 1) ret₁ hobject htypes hknown₁
      refine ⟨ret', p', it₁ :: items', by rw [hstep, hloop]; rfl, ?_, ?_, ?_⟩
      · rw [hret, hret₁, forall_last_cons]
        simp only [Nat.add_zero, reduceCtorEq, false_implies, true_and, Nat.add_assoc,
          Nat.add_comm 1]
      · intro j it' hit' hattaches
        cases j with
        | zero =>
            cases hit'
            obtain ⟨id, db, hcreated, hlive, hname⟩ := hfirst hattaches
            refine ⟨id, db, hcreated, hkept id db hlive ?_, hname⟩
            intro j hj hcreated'
            have := env.distinct _ _ _ hcreated hcreated'
            omega
        | succ j =>
            rw [← Nat.add_assoc, Nat.add_right_comm] at hattaches ⊢
            exact hattached j it' hit' hattaches
      · intro id db hlive hother
        exact hkept id db (hkept₁ id db hlive (hother i le_rfl)) fun j hj =>
          hother j (by omega)

end Databases

section Populate

variable (env : PopulateEnv) (compfunctions : List (Bulk × ComparatorFn)) {config cfg : Value Bulk}

/-- The entries of an array of the configuration. -/
def configured (cfg : Value Bulk) (key : String) : List (Value Bulk) :=
  (memberItems cfg key).getD []

/-- The dynamic linker finds every comparator of the configuration. -/
def ComparatorsFound (cfg : Value Bulk) : Prop :=
  ∀ i it, (configured cfg "comparators")[i]? = some it → (comparatorFound it env i).isSome

/-- The name of a comparison function that is registered beforehand or by the
configuration. -/
def NamedCompFn (cfg : Value Bulk) (name : Bulk) : Prop :=
  name = [] ∨ (lookup stringLess compfunctions name).isSome ∨
    ∃ it ∈ configured cfg "comparators", cString (stringMember it "name") = name

/-- The attach of the `i`-th database of the configuration succeeds. -/
def DatabaseAttaches (cfg : Value Bulk) (i : ℕ) (it : Value Bulk) : Prop :=
  Attaches env (NamedCompFn compfunctions cfg) i it

/-- What a provider is populated with: the return value tells whether everything was found
and attached, and an error leaves no database behind. -/
structure PopulateOutcome (cfg : Value Bulk) (ret : SdskvReturn) (p' : Provider) : Prop where
  success_iff : ret = .success ↔ ComparatorsFound env cfg ∧
    ∀ i it, (configured cfg "databases")[i]? = some it →
      DatabaseAttaches env compfunctions cfg i it
  attached : ret = .success → ∀ i it, (configured cfg "databases")[i]? = some it →
    ∃ id db, env.created i = some id ∧ p'.Live id db ∧ db.name = (dbConfig it).dbName
  detached : ret ≠ .success → p'.databases = [] ∧ p'.name2id = [] ∧ p'.id2name = []

theorem configured_of_find? {key : String} {items : List (Value Bulk)}
    (h : cfg.find? key = some (.array items)) : configured cfg key = items := by
  rw [configured, memberItems, h]
  rfl

/-- What is done with a document of the schema. -/
theorem populateProviderFromConfig_of_schema (h : ConfigSchema cfg) (p : Provider) :
    populateProviderFromConfig env p cfg =
      match findComparators env p 0 (configured cfg "comparators") with
      | (.success, p) => do
          let (ret, p, items) ← attachDatabases env p 0 .success (configured cfg "databases")
          let cfg ← access (cfg.set "databases" (.array items))
          .ok (ret, if ret ≠ .success then p.removeAllDatabases.2 else p, cfg)
      | (ret, p) => .ok (ret, p, cfg) := by
  obtain ⟨comparators, hfind, -⟩ := h.comparators
  obtain ⟨databases, hfind', -⟩ := h.databases
  rw [configured_of_find? hfind, configured_of_find? hfind', populateProviderFromConfig,
    checkProviderConfig_of_schema h, ok_bind, withDefault_of_find? hfind, ok_bind,
    Value.get_of_isObject h.isObject, hfind]
  change (match findComparators env p 0 comparators with
    | (.success, p) => _
    | (ret, p) => _) = _
  rcases findComparators env p 0 comparators with ⟨ret, p⟩
  cases ret with
  | success =>
      change (withDefault cfg "databases" .null >>= _) = _
      rw [withDefault_of_find? hfind', ok_bind, Value.get_of_isObject h.isObject, hfind']
      rfl
  | _ => rfl

/-- Without all comparators the function returns before the databases. -/
theorem populate_of_not_found (h : ConfigSchema cfg) (hnot : ¬ ComparatorsFound env cfg) :
    ∃ fns, populateProviderFromConfig env (Provider.new compfunctions) cfg =
      .ok (.errCompFunc, Provider.new fns, cfg) := by
  simp only [ComparatorsFound, not_forall] at hnot
  obtain ⟨i, it, hit, hnone⟩ := hnot
  obtain ⟨fns, hloop⟩ := findComparators_of_not_found env (configured cfg "comparators")
    (Provider.new compfunctions) 0 ⟨i, it, hit, by simpa using hnone⟩
  refine ⟨fns, ?_⟩
  rw [populateProviderFromConfig_of_schema env h, hloop]
  rfl

/-- With all comparators, the outcome is that of the loop over the databases. -/
theorem populate_of_found (h : ConfigSchema cfg) (hfound : ComparatorsFound env cfg) :
    ∃ fns, (∀ name, (Provider.new fns).KnownCompFn name ↔ NamedCompFn compfunctions cfg name) ∧
      ∀ ret p' items, attachDatabases env (Provider.new fns) 0 .success
          (configured cfg "databases") = .ok (ret, p', items) →
        ∃ cfg', populateProviderFromConfig env (Provider.new compfunctions) cfg =
          .ok (ret, if ret ≠ .success then p'.removeAllDatabases.2 else p', cfg') := by
  obtain ⟨fns, hloop, hnames⟩ := findComparators_of_found env (configured cfg "comparators")
    (Provider.new compfunctions) 0 (by simpa [ComparatorsFound] using hfound)
  refine ⟨fns, fun name => or_congr_right (hnames name), ?_⟩
  intro ret p' items hattach
  obtain ⟨cfg', hset, -⟩ := Value.set_of_isObject h.isObject "databases" (.array items)
  refine ⟨cfg', ?_⟩
  rw [populateProviderFromConfig_of_schema env h, hloop]
  change (attachDatabases env (Provider.new fns) 0 .success (configured cfg "databases") >>= _) = _
  rw [hattach, ok_bind]
  change (access (cfg.set "databases" (.array items)) >>= _) = _
  rw [hset]
  rfl

/-- The outcome when a comparison function is not found. -/
theorem exists_outcome_of_not_found (h : ConfigSchema cfg) (hnot : ¬ ComparatorsFound env cfg) :
    ∃ ret p' cfg', populateProviderFromConfig env (Provider.new compfunctions) cfg =
        .ok (ret, p', cfg') ∧ PopulateOutcome env compfunctions cfg ret p' := by
  obtain ⟨fns, hpopulate⟩ := populate_of_not_found env compfunctions h hnot
  refine ⟨_, _, cfg, hpopulate, ?_, fun h => absurd h (by decide), fun _ => ⟨rfl, rfl, rfl⟩⟩
  exact iff_of_false (by decide) fun h => hnot h.1

/-- The outcome when the type of a database is not known. -/
theorem exists_outcome_of_unknown (h : ConfigSchema cfg) (hfound : ComparatorsFound env cfg)
    (hobject : ∀ it ∈ configured cfg "databases", it.isObject = true)
    (hunknown : ∃ it ∈ configured cfg "databases", dbTypeOf (stringMember it "type") = none) :
    ∃ ret p' cfg', populateProviderFromConfig env (Provider.new compfunctions) cfg =
        .ok (ret, p', cfg') ∧ PopulateOutcome env compfunctions cfg ret p' := by
  obtain ⟨fns, -, hpopulate⟩ := populate_of_found env compfunctions h hfound
  obtain ⟨p', items, hloop⟩ := attachDatabases_of_unknown env (configured cfg "databases")
    (Provider.new fns) 0 .success hobject hunknown
  obtain ⟨cfg', hpopulate⟩ := hpopulate _ p' items hloop
  refine ⟨_, _, cfg', hpopulate, ?_, fun h => absurd h (by decide), fun _ => ⟨rfl, rfl, rfl⟩⟩
  refine iff_of_false (by decide) ?_
  rintro ⟨-, hall⟩
  obtain ⟨it, hit, hnone⟩ := hunknown
  obtain ⟨i, hi⟩ := List.mem_iff_getElem?.1 hit
  obtain ⟨-, type, htype, -⟩ := hall i it hi
  rw [hnone] at htype
  cases htype

/-- A validated configuration populates a provider as its return value says exactly when, with
all comparators found and all types known, no failed attach is followed by one that succeeds
at the end. -/
theorem populate_outcome_iff (hvalid : validateAndCompleteConfig config = .ok cfg) :
    (∃ ret p' cfg', populateProviderFromConfig env (Provider.new compfunctions) cfg =
        .ok (ret, p', cfg') ∧ PopulateOutcome env compfunctions cfg ret p') ↔
      (ComparatorsFound env cfg →
        (∀ it ∈ configured cfg "databases", (dbTypeOf (stringMember it "type")).isSome) →
        (∀ i it, (configured cfg "databases")[i]? = some it →
          i + 1 = (configured cfg "databases").length →
            DatabaseAttaches env compfunctions cfg i it) →
        ∀ i it, (configured cfg "databases")[i]? = some it →
          DatabaseAttaches env compfunctions cfg i it) := by
  have hschema := schema_of_validate hvalid
  have hobject : ∀ it ∈ configured cfg "databases", it.isObject = true := by
    obtain ⟨databases, hfind, hentries⟩ := hschema.databases
    rw [configured_of_find? hfind]
    exact fun it hit => (hentries.entry it hit).isObject
  by_cases hfound : ComparatorsFound env cfg
  swap
  · exact iff_of_true (exists_outcome_of_not_found env compfunctions hschema hfound)
      fun h => absurd h hfound
  by_cases htypes : ∀ it ∈ configured cfg "databases", (dbTypeOf (stringMember it "type")).isSome
  swap
  · refine iff_of_true ?_ fun _ h => absurd h htypes
    simp only [not_forall, Bool.not_eq_true, Option.isSome_eq_false_iff,
      Option.isNone_iff_eq_none, exists_prop] at htypes
    exact exists_outcome_of_unknown env compfunctions hschema hfound hobject htypes
  obtain ⟨fns, hknown, hpopulate⟩ := populate_of_found env compfunctions hschema hfound
  obtain ⟨ret, p', items, hloop, hret, hattached, -⟩ := attachDatabases_of_known env
    (configured cfg "databases") (Provider.new fns) 0 .success hobject htypes hknown
  obtain ⟨cfg', hpopulate⟩ := hpopulate ret p' items hloop
  simp only [Nat.zero_add, implies_true, true_and] at hret hattached
  constructor
  · rintro ⟨ret', p'', cfg'', hresult, houtcome⟩ - - hlast
    rw [hpopulate] at hresult
    cases hresult
    exact (houtcome.success_iff.1 (hret.2 hlast)).2
  · intro hall
    have hall := hall hfound htypes
    refine ⟨_, _, cfg', hpopulate, ?_, ?_, ?_⟩
    · rw [hret]
      exact ⟨fun hlast => ⟨hfound, hall hlast⟩, fun h i it hit _ => h.2 i it hit⟩
    · intro hsuccess i it hit
      rw [if_neg (not_not.2 hsuccess)]
      exact hattached i it hit (hall (hret.1 hsuccess) i it hit)
    · intro herror
      rw [if_pos herror]
      exact ⟨rfl, rfl, rfl⟩

/-- Two databases, the first with the given comparison function. -/
def twoDatabases (comparator : Bulk) : Value Bulk :=
  .object
    [("comparators", .array []),
      ("databases", .array
        [.object [("name", .string [97]), ("type", .string (stringBytes "map")),
          ("path", .string []), ("comparator", .string comparator),
          ("no_overwrite", .boolean false)],
        .object [("name", .string [98]), ("type", .string (stringBytes "map")),
          ("path", .string []), ("comparator", .string []),
          ("no_overwrite", .boolean false)]])]

/-- The dynamic linker finds nothing, and the factory creates two datastores. -/
def twoDatastores : PopulateEnv where
  dlsym _ _ _ := none
  created i := if i = 0 then some 16 else if i = 1 then some 32 else none
  distinct i j id hi hj := by grind

theorem twoDatabases_valid (comparator : Bulk) :
    validateAndCompleteConfig (twoDatabases comparator) = .ok (twoDatabases comparator) := rfl

theorem twoDatabases_populated :
    ∃ ret p' cfg', populateProviderFromConfig twoDatastores (Provider.new [])
        (twoDatabases []) = .ok (ret, p', cfg') ∧
      PopulateOutcome twoDatastores [] (twoDatabases []) ret p' := by
  refine (populate_outcome_iff twoDatastores [] (twoDatabases_valid [])).2 ?_
  intro _ _ _ i it hit
  match i with
  | 0 =>
      cases hit
      exact ⟨Or.inl rfl, .map, rfl, rfl⟩
  | 1 =>
      cases hit
      exact ⟨Or.inl rfl, .map, rfl, rfl⟩
  | i + 2 => cases hit

/-- The first of two databases names a comparison function that is not registered: the
provider is populated with the second only, and the return value is a success. -/
theorem twoDatabases_hidden_failure :
    (∃ p' cfg', populateProviderFromConfig twoDatastores (Provider.new [])
        (twoDatabases [120]) = .ok (.success, p', cfg') ∧ p'.countDatabases = 1) ∧
      ¬ ∃ ret p' cfg', populateProviderFromConfig twoDatastores (Provider.new [])
          (twoDatabases [120]) = .ok (ret, p', cfg') ∧
        PopulateOutcome twoDatastores [] (twoDatabases [120]) ret p' := by
  have hpopulate : ∃ p' cfg', populateProviderFromConfig twoDatastores (Provider.new [])
      (twoDatabases [120]) = .ok (.success, p', cfg') ∧ p'.countDatabases = 1 :=
    ⟨_, _, rfl, rfl⟩
  refine ⟨hpopulate, ?_⟩
  rintro ⟨ret, p'', cfg'', hresult, houtcome⟩
  obtain ⟨p', cfg', hpopulate, -⟩ := hpopulate
  rw [hpopulate] at hresult
  cases hresult
  obtain ⟨hknown, -⟩ := (houtcome.success_iff.1 rfl).2 0 _ rfl
  obtain hempty | hregistered | ⟨it, hit, -⟩ := hknown
  · cases hempty
  · cases hregistered
  · cases hit

end Populate

end Sdskv
