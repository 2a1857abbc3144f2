import Sdskv.Config.Populate
import Sdskv.Datastore.Paths

/-!
# The metadata of a migrated database

A database that is kept in files is migrated by REMI as a fileset. The source registers the
type, the name, the comparison function and the overwrite mode of the database as metadata
of the fileset; at the destination, `sdskv_pre_migration_callback` checks them before the
files are sent and `sdskv_post_migration_callback` attaches a database from them afterwards.

A configuration whose type was not set is one with `none`; the post-migration callback opens
a datastore of that type. `postMigrationCallback_fileset` says that what is attached is
described by the fileset that it came with.
-/

namespace Sdskv

open OrderedMap

/-- A fileset of REMI. -/
structure RemiFileset where
  root : Bulk
  directories : List Bulk
  metadata : List (String × Bulk)

/-- `sdskv_config_t`, with the type of the database if it was set. -/
structure MigrationConfig where
  config : SdskvConfig
  dbType : Option SdskvDbType

/-- The name of the type that a backend registers. -/
def FileBackend.typeName : FileBackend → Bulk
  | levelDB => stringBytes "leveldb"
  | berkeleyDB => stringBytes "berkeleydb"

/-- The type that the factory opens a backend for. -/
def FileBackend.dbType : FileBackend → SdskvDbType
  | levelDB => .leveldb
  | berkeleyDB => .berkeleydb

/-- The backend that implements `create_and_populate_fileset` for a type; the others return
`REMI_FILESET_NULL`. -/
def SdskvDbType.fileBackend : SdskvDbType → Option FileBackend
  | leveldb => some .levelDB
  | berkeleydb => some .berkeleyDB
  | _ => none

/-- The registered metadata of a fileset. -/
def Fileset.metadata (f : Fileset) : List (String × Bulk) :=
  [("database_type", f.databaseType.typeName), ("comparison_function", f.comparisonFunction),
    ("database_name", f.databaseName)] ++ if f.noOverwrite then [("no_overwrite", [])] else []

/-- `create_and_populate_fileset` of a datastore of a provider. -/
def Datastore.createAndPopulateFileset (b : FileBackend) (db : Datastore) : Option Fileset :=
  (withLastSlash db.path).map fun localRoot =>
    { root := localRoot
      directories := [db.name ++ [slash]]
      databaseType := b
      comparisonFunction := db.compFunName
      databaseName := db.name
      noOverwrite := db.noOverwrite }

/-- The fields of a datastore of a provider are those of its backend. -/
theorem Datastore.createAndPopulateFileset_eq (b : FileBackend) (s : StoreFields)
    (less : Option ComparatorFn) :
    Datastore.createAndPopulateFileset b
        { name := s.name.1, path := s.path.1, compFunName := s.compFunName, less := less,
          noOverwrite := s.noOverwrite } = b.createAndPopulateFileset s := by
  cases b <;> rfl

/-- `get_metadata`. -/
def getMetadata (md : String → Option Bulk) (key : String) (value : Bulk) :
    String → Option Bulk :=
  Function.update md key (some value)

/-- The metadata that the callbacks collect from a fileset. -/
def migrationMetadata (fileset : RemiFileset) : String → Option Bulk :=
  fileset.metadata.foldl (fun md entry => getMetadata md entry.1 entry.2) fun _ => none

/-- The configuration that both callbacks fill up. -/
def migrationConfig (md : String → Option Bulk) (root : Bulk) : MigrationConfig :=
  let dbName := (md "database_name").getD []
  let dbType := (md "database_type").getD []
  let compFn := (md "comparison_function").getD []
  { config :=
      { dbName := cString dbName
        dbPath := cString root
        dbCompFnName := if compFn.length ≠ 0 then some (cString compFn) else none
        dbNoOverwrite := (md "no_overwrite").isSome }
    dbType :=
      if dbType = stringBytes "berkeleydb" then some .berkeleydb
      else if dbType = stringBytes "leveldb" then some .leveldb
      else none }

namespace Provider

/-- `sdskv_pre_migration_callback`: its return value, and the configuration that a
pre-migration callback of the user is given. -/
def preMigrationCallback (p : Provider) (fileset : RemiFileset) : Int × Option MigrationConfig :=
  let md := migrationMetadata fileset
  if md "database_type" = none ∨ md "database_name" = none ∨ md "comparison_function" = none then
    (-101, none)
  else
    let dbName := (md "database_name").getD []
    let dbType := (md "database_type").getD []
    let compFn := (md "comparison_function").getD []
    if (lookup stringLess p.name2id dbName).isSome then (-102, none)
    else if dbType ≠ stringBytes "berkeleydb" ∧ dbType ≠ stringBytes "leveldb" then (-103, none)
    else if compFn.length ≠ 0 ∧ lookup stringLess p.compfunctions compFn = none then (-104, none)
    else (0, some (migrationConfig md fileset.root))

/-- `sdskv_post_migration_callback`; `opened` is the address of the datastore that the
factory creates. A type that was not set is read: the result is `none`. -/
def postMigrationCallback (p : Provider) (fileset : RemiFileset) (opened : Option UInt64) :
    Option (Int × Provider × Option (MigrationConfig × UInt64)) :=
  let config := migrationConfig (migrationMetadata fileset) fileset.root
  match config.dbType with
  | none => none
  | some _ =>
      match p.attachDatabase config.config opened with
      | (.ok id, p) => some (0, p, some (config, id))
      | (.error _, p) => some (-106, p, none)

end Provider

/-- The fileset as it is given to the callbacks, below the root at the destination. -/
def Fileset.arrivedAt (f : Fileset) (root : Bulk) : RemiFileset :=
  { root := root, directories := f.directories, metadata := f.metadata }

section Metadata

variable (f : Fileset) (root : Bulk)

theorem metadata_databaseType :
    migrationMetadata (f.arrivedAt root) "database_type" = some f.databaseType.typeName := by
  cases h : f.noOverwrite <;>
    simp [migrationMetadata, Fileset.arrivedAt, Fileset.metadata, getMetadata, h,
      Function.update]

theorem metadata_databaseName :
    migrationMetadata (f.arrivedAt root) "database_name" = some f.databaseName := by
  cases h : f.noOverwrite <;>
    simp [migrationMetadata, Fileset.arrivedAt, Fileset.metadata, getMetadata, h,
      Function.update]

theorem metadata_comparisonFunction :
    migrationMetadata (f.arrivedAt root) "comparison_function" = some f.comparisonFunction := by
  cases h : f.noOverwrite <;>
    simp [migrationMetadata, Fileset.arrivedAt, Fileset.metadata, getMetadata, h,
      Function.update]

theorem metadata_noOverwrite :
    (migrationMetadata (f.arrivedAt root) "no_overwrite").isSome = f.noOverwrite := by
  cases h : f.noOverwrite <;>
    simp [migrationMetadata, Fileset.arrivedAt, Fileset.metadata, getMetadata, h,
      Function.update]

end Metadata

theorem stringBytes_leveldb_ne : stringBytes "leveldb" ≠ stringBytes "berkeleydb" := by decide

theorem cString_of_notMem {s : Bulk} (h : (0 : UInt8) ∉ s) : cString s = s := by
  rw [cString, List.takeWhile_eq_self_iff]
  intro c hc
  rw [decide_eq_true_iff]
  rintro rfl
  exact h hc

/-- The configuration that the callbacks make from a fileset says what the fileset says. -/
theorem migrationConfig_arrivedAt (f : Fileset) (root : Bulk) (hname : (0 : UInt8) ∉ f.databaseName)
    (hcomp : (0 : UInt8) ∉ f.comparisonFunction) :
    migrationConfig (migrationMetadata (f.arrivedAt root)) root =
      { config :=
          { dbName := f.databaseName
            dbPath := cString root
            dbCompFnName := if f.comparisonFunction.length ≠ 0 then some f.comparisonFunction
              else none
            dbNoOverwrite := f.noOverwrite }
        dbType := some f.databaseType.dbType } := by
  simp only [migrationConfig, metadata_databaseType, metadata_databaseName,
    metadata_comparisonFunction, metadata_noOverwrite, Option.getD_some, cString_of_notMem hname,
    cString_of_notMem hcomp]
  cases f.databaseType with
  | levelDB => simp [FileBackend.typeName, FileBackend.dbType, stringBytes_leveldb_ne]
  | berkeleyDB => simp [FileBackend.typeName, FileBackend.dbType]

namespace Provider

/-- The tables after a database was entered under its name and its address. -/
def enter (p : Provider) (id : UInt64) (db : Datastore) : Provider :=
  { p with
    name2id := assign stringLess p.name2id db.name id
    id2name := assign idLess p.id2name id db.name
    databases := assign idLess p.databases id db }

theorem live_enter {p : Provider} {id id' : UInt64} {db db' : Datastore} :
    (p.enter id db).Live id' db' ↔ if id = id' then db = db' else p.Live id' db' := by
  rw [Live, enter, lookup_assign_of_total]
  split_ifs
  · rw [Option.some.injEq]
  · rfl

theorem tables_enter {p : Provider} {id : UInt64} {db : Datastore} (h : p.Tables)
    (hid : lookup idLess p.databases id = none)
    (hfresh : ∀ id' db', p.Live id' db' → db'.name ≠ db.name) : (p.enter id db).Tables :=
  tables_attach h
    { dbName := db.name, dbPath := [], dbCompFnName := none, dbNoOverwrite := false } db id rfl
    hid hfresh

/-- An attach fails without a change, or enters the configured database. -/
theorem attachDatabase_enter (p : Provider) (config : SdskvConfig) (opened : Option UInt64) :
    (∃ ret, p.attachDatabase config opened = (.error ret, p)) ∨
      ∃ id compFn, opened = some id ∧ p.findCompFn config = some compFn ∧
        p.attachDatabase config opened = (.ok id, p.enter id (configure config compFn)) := by
  rw [attachDatabase]
  cases hcomp : p.findCompFn config with
  | none => exact Or.inl ⟨_, rfl⟩
  | some compFn =>
      cases opened with
      | none => exact Or.inl ⟨_, rfl⟩
      | some id => exact Or.inr ⟨id, compFn, rfl, rfl, rfl⟩

end Provider

/-- The comparison function of a configuration that names the registered `name`. -/
theorem Provider.findCompFn_of_name (p : Provider) {config : SdskvConfig} {name : Bulk}
    (hconfig : config.dbCompFnName = if name.length ≠ 0 then some name else none) :
    p.findCompFn config =
      if name.length ≠ 0 then (lookup stringLess p.compfunctions name).map some
      else some none := by
  cases name with
  | nil =>
      rw [if_neg (by simp)] at hconfig ⊢
      simp only [findCompFn, hconfig]
  | cons c k =>
      rw [if_pos (by simp)] at hconfig ⊢
      simp only [findCompFn, hconfig]

/-- A provider accepts a fileset exactly when it has no database of that name and knows the
comparison function. -/
theorem Provider.preMigrationCallback_eq_zero_iff (p : Provider) (f : Fileset) (root : Bulk) :
    (p.preMigrationCallback (f.arrivedAt root)).1 = 0 ↔
      lookup stringLess p.name2id f.databaseName = none ∧
        (f.comparisonFunction.length ≠ 0 →
          (lookup stringLess p.compfunctions f.comparisonFunction).isSome) := by
  have htype : ¬ (f.databaseType.typeName ≠ stringBytes "berkeleydb" ∧
      f.databaseType.typeName ≠ stringBytes "leveldb") := by
    rintro ⟨hne, hne'⟩
    cases hb : f.databaseType with
    | levelDB => exact hne' (by rw [hb, FileBackend.typeName])
    | berkeleyDB => exact hne (by rw [hb, FileBackend.typeName])
  simp only [preMigrationCallback, metadata_databaseType, metadata_databaseName,
    metadata_comparisonFunction, Option.getD_some, reduceCtorEq, or_self, if_false,
    if_neg htype]
  cases lookup stringLess p.name2id f.databaseName with
  | some id => simp
  | none =>
      cases lookup stringLess p.compfunctions f.comparisonFunction with
      | some compFn => simp
      | none => by_cases hnil : f.comparisonFunction = [] <;> simp [hnil]

/-- The post-migration callback fails without a change, or enters the database that the
fileset describes; the comparison function is that of the destination. -/
theorem Provider.postMigrationCallback_arrivedAt (p : Provider) (f : Fileset) (root : Bulk)
    (opened : Option UInt64) (hname : (0 : UInt8) ∉ f.databaseName)
    (hcomp : (0 : UInt8) ∉ f.comparisonFunction) :
    p.postMigrationCallback (f.arrivedAt root) opened = some (-106, p, none) ∨
      ∃ id db config, opened = some id ∧ db.name = f.databaseName ∧
        db.compFunName = f.comparisonFunction ∧ db.noOverwrite = f.noOverwrite ∧
        config.dbType = some f.databaseType.dbType ∧
        p.postMigrationCallback (f.arrivedAt root) opened =
          some (0, p.enter id db, some (config, id)) := by
  set config := migrationConfig (migrationMetadata (f.arrivedAt root)) (f.arrivedAt root).root
    with hset
  have hconfig := hset.trans (migrationConfig_arrivedAt f root hname hcomp)
  have htype : config.dbType = some f.databaseType.dbType := by rw [hconfig]
  have hfind := p.findCompFn_of_name (show config.config.dbCompFnName =
    if f.comparisonFunction.length ≠ 0 then some f.comparisonFunction else none by rw [hconfig])
  simp only [postMigrationCallback, ← hset, htype]
  rcases p.attachDatabase_enter config.config opened with
    ⟨ret, hattach⟩ | ⟨id, compFn, hopened, hcompFn, hattach⟩
  · left
    rw [hattach]
  · right
    refine ⟨id, _, config, hopened, ?_, ?_, ?_, htype, by rw [hattach]⟩
    · rw [hconfig]
      rfl
    · rw [hfind] at hcompFn
      rw [hconfig]
      simp only [configure]
      split_ifs at hcompFn with hlength
      · obtain ⟨compFn', -, rfl⟩ := Option.map_eq_some_iff.1 hcompFn
        simp [hlength]
      · cases hcompFn
        have hnil : f.comparisonFunction = [] := by simpa using hlength
        simp [hnil]
    · rw [hconfig]
      rfl

end Sdskv
