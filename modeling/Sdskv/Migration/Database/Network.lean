import Sdskv.Migration.Database.Callbacks

/-!
# Migrating databases between providers

`migrate_database` moves a whole database to another provider. Its handler makes a fileset
of the database, has REMI call the pre-migration callback of the destination, send the files
and call the post-migration callback, and then removes the database at the source when it was
asked to. Any number of such requests are in progress at once, between any providers, next to
other calls that attach and remove databases; each of these actions is a step here. What REMI
and Mercury do between the callbacks is not in the source: a request may `fail` at any time.

`names_survive` says that no database is lost, and `descriptors_survive` that what a database
is called, its type, its comparison function and its overwrite mode, goes with it.
-/

namespace Sdskv

open OrderedMap Transition Function

/-- The fields of `sdskv_config_t`. -/
structure DbConfig where
  dbName : CString
  dbPath : CString
  dbType : SdskvDbType
  dbCompFnName : Option CString
  dbNoOverwrite : Bool

/-- The fields that the attach reads besides the type. -/
def DbConfig.config (config : DbConfig) : SdskvConfig :=
  { dbName := config.dbName.1
    dbPath := config.dbPath.1
    dbCompFnName := config.dbCompFnName.map Subtype.val
    dbNoOverwrite := config.dbNoOverwrite }

/-- A provider, and the types that its datastores were opened with. -/
structure RemiProvider where
  tables : Provider
  dbType : UInt64 → SdskvDbType

/-- The provider after a datastore of some type was entered. -/
def RemiProvider.enter (p : RemiProvider) (type : SdskvDbType) (id : UInt64) (db : Datastore) :
    RemiProvider :=
  { tables := p.tables.enter id db, dbType := update p.dbType id type }

/-- The provider after a database was removed. -/
def RemiProvider.removeDatabase (p : RemiProvider) (dbId : UInt64) : RemiProvider :=
  { p with tables := (p.tables.removeDatabase dbId).2 }

/-- What the handler of a `migrate_database` request knows once it has made the fileset. -/
structure DbMigration (ι : Type*) where
  source : ι
  sourceDbId : UInt64
  dest : ι
  destRoot : Bulk
  removeSrc : Bool
  fileset : Fileset

/-- How far a `migrate_database` request is. -/
inductive MigrationPhase (ι : Type*)
  | idle
  | issued (m : DbMigration ι)
  | accepted (m : DbMigration ι)
  | attached (m : DbMigration ι)
  | answered (ret : Int)

/-- The migration that is in progress. -/
def MigrationPhase.migration {ι : Type*} : MigrationPhase ι → Option (DbMigration ι)
  | issued m => some m
  | accepted m => some m
  | attached m => some m
  | _ => none

/-- The providers, and the requests that migrate databases. -/
structure Network (ι Req : Type*) where
  provider : ι → RemiProvider
  phase : Req → MigrationPhase ι

/-- A step in the network; `opened` is the address of the datastore that the factory creates,
and `failed` what is answered when REMI cannot be called. -/
inductive NetworkAction (ι Req : Type*)
  | attach (p : ι) (config : DbConfig) (opened : Option UInt64)
  | remove (p : ι) (dbId : UInt64)
  | migrate (r : Req) (source : ι) (sourceDbId : UInt64) (dest : ι) (destRoot : Bulk)
      (removeSrc : Bool) (failed : Option Int)
  | arrive (r : Req)
  | deliver (r : Req) (opened : Option UInt64)
  | fail (r : Req)
  | finish (r : Req)

namespace Network

variable {ι Req : Type*}

/-- Providers without databases. -/
def start (compfunctions : ι → List (Bulk × ComparatorFn)) : Network ι Req :=
  { provider := fun p => { tables := Provider.new (compfunctions p), dbType := fun _ => .null }
    phase := fun _ => .idle }

/-- A database of a provider. -/
def Live (c : Network ι Req) (p : ι) (id : UInt64) (db : Datastore) : Prop :=
  (c.provider p).tables.Live id db

/-- A new datastore is created at the address of a live one. -/
def AtLive (c : Network ι Req) (p : ι) (opened : Option UInt64) : Prop :=
  ∃ id ∈ opened, (lookup idLess (c.provider p).tables.databases id).isSome

instance (c : Network ι Req) (p : ι) (opened : Option UInt64) : Decidable (c.AtLive p opened) :=
  inferInstanceAs (Decidable (∃ id ∈ opened, _))

/-- The part of `sdskv_migrate_database_ult` before the call of REMI: the phase that the
request comes to. `create_and_populate_fileset` reads the last character of the path, which
an empty path does not have. -/
def issue (c : Network ι Req) (source : ι) (sourceDbId : UInt64) (dest : ι) (destRoot : Bulk)
    (removeSrc : Bool) (failed : Option Int) : Option (MigrationPhase ι) :=
  match lookup idLess (c.provider source).tables.databases sourceDbId with
  | none => some (.answered SdskvReturn.errUnknownDb.code)
  | some db =>
      match failed with
      | some ret => some (.answered ret)
      | none =>
          match ((c.provider source).dbType sourceDbId).fileBackend with
          | none => some (.answered SdskvReturn.opNotImpl.code)
          | some b => (db.createAndPopulateFileset b).map fun fileset => .issued
              { source := source
                sourceDbId := sourceDbId
                dest := dest
                destRoot := destRoot
                removeSrc := removeSrc
                fileset := fileset }

/-- The names and the names of comparison functions have no null character. -/
structure CStrings (c : Network ι Req) : Prop where
  live : ∀ p id db, c.Live p id db → (0 : UInt8) ∉ db.name ∧ (0 : UInt8) ∉ db.compFunName
  fileset : ∀ r m, (c.phase r).migration = some m →
    (0 : UInt8) ∉ m.fileset.databaseName ∧ (0 : UInt8) ∉ m.fileset.comparisonFunction

theorem notLive_of_not_atLive {c : Network ι Req} {p : ι} {id : UInt64}
    (h : ¬ c.AtLive p (some id)) : lookup idLess (c.provider p).tables.databases id = none := by
  by_contra hne
  exact h ⟨id, rfl, Option.ne_none_iff_isSome.1 hne⟩

variable [DecidableEq ι] [DecidableEq Req]

/-- The network with another state of one provider. -/
def setProvider (c : Network ι Req) (p : ι) (provider : RemiProvider) : Network ι Req :=
  { c with provider := update c.provider p provider }

/-- The network with another phase of one request. -/
def setPhase (c : Network ι Req) (r : Req) (phase : MigrationPhase ι) : Network ι Req :=
  { c with phase := update c.phase r phase }

/-- `sdskv_provider_attach_database`. -/
def attach (c : Network ι Req) (p : ι) (config : DbConfig) (opened : Option UInt64) :
    Network ι Req :=
  match (c.provider p).tables.attachDatabase config.config opened with
  | (.error _, _) => c
  | (.ok id, tables) =>
      c.setProvider p
        { tables := tables, dbType := update (c.provider p).dbType id config.dbType }

/-- The pre-migration callback at the destination. -/
def arrive (c : Network ι Req) (r : Req) (m : DbMigration ι) : Network ι Req :=
  let ret := ((c.provider m.dest).tables.preMigrationCallback
    (m.fileset.arrivedAt m.destRoot)).1
  if ret = 0 then c.setPhase r (.accepted m) else c.setPhase r (.answered ret)

/-- The post-migration callback at the destination. -/
def deliver (c : Network ι Req) (r : Req) (m : DbMigration ι) (opened : Option UInt64) :
    Option (Network ι Req) :=
  match (c.provider m.dest).tables.postMigrationCallback (m.fileset.arrivedAt m.destRoot)
    opened with
  | none => none
  | some (ret, _, none) => some (c.setPhase r (.answered ret))
  | some (_, tables, some (config, id)) =>
      let type := config.dbType.getD .null
      some ((c.setProvider m.dest
        { tables := tables, dbType := update (c.provider m.dest).dbType id type }).setPhase r
          (.attached m))

/-- The end of `sdskv_migrate_database_ult`. -/
def finish (c : Network ι Req) (r : Req) (m : DbMigration ι) : Network ι Req :=
  if m.removeSrc then
    let ret := ((c.provider m.source).tables.removeDatabase m.sourceDbId).1
    (c.setProvider m.source ((c.provider m.source).removeDatabase m.sourceDbId)).setPhase r
      (.answered ret.code)
  else c.setPhase r (.answered SdskvReturn.success.code)

/-- The steps of the network. -/
def step (c : Network ι Req) : NetworkAction ι Req → Option (Network ι Req)
  | .attach p config opened => if c.AtLive p opened then none else some (c.attach p config opened)
  | .remove p dbId => some (c.setProvider p ((c.provider p).removeDatabase dbId))
  | .migrate r source sourceDbId dest destRoot removeSrc failed =>
      match c.phase r with
      | .idle => (c.issue source sourceDbId dest destRoot removeSrc failed).map (c.setPhase r)
      | _ => none
  | .arrive r =>
      match c.phase r with
      | .issued m => some (c.arrive r m)
      | _ => none
  | .deliver r opened =>
      match c.phase r with
      | .accepted m => if c.AtLive m.dest opened then none else c.deliver r m opened
      | _ => none
  | .fail r =>
      match (c.phase r).migration with
      | some _ => some (c.setPhase r (.answered SdskvReturn.errRemi.code))
      | none => none
  | .finish r =>
      match c.phase r with
      | .attached m => some (c.finish r m)
      | _ => none

/-- What a step has done, by its action. -/
inductive Stepped (c : Network ι Req) : NetworkAction ι Req → Network ι Req → Prop
  | unattached {p : ι} {config : DbConfig} {opened : Option UInt64} :
      Stepped c (.attach p config opened) c
  | attached {p : ι} {config : DbConfig} {id : UInt64} {compFn : Option ComparatorFn}
      (hfree : lookup idLess (c.provider p).tables.databases id = none)
      (hfind : (c.provider p).tables.findCompFn config.config = some compFn) :
      Stepped c (.attach p config (some id)) (c.setProvider p
        ((c.provider p).enter config.dbType id (Provider.configure config.config compFn)))
  | removed {p : ι} {dbId : UInt64} :
      Stepped c (.remove p dbId) (c.setProvider p ((c.provider p).removeDatabase dbId))
  | refused {r : Req} {source dest : ι} {sourceDbId : UInt64} {destRoot : Bulk}
      {removeSrc : Bool} {failed : Option Int} {ret : Int} :
      Stepped c (.migrate r source sourceDbId dest destRoot removeSrc failed)
        (c.setPhase r (.answered ret))
  | issued {r : Req} {source dest : ι} {sourceDbId : UInt64} {destRoot : Bulk}
      {removeSrc : Bool} {failed : Option Int} {db : Datastore} {b : FileBackend}
      {fileset : Fileset} (hlive : c.Live source sourceDbId db)
      (hb : ((c.provider source).dbType sourceDbId).fileBackend = some b)
      (hfileset : db.createAndPopulateFileset b = some fileset) :
      Stepped c (.migrate r source sourceDbId dest destRoot removeSrc failed)
        (c.setPhase r (.issued ⟨source, sourceDbId, dest, destRoot, removeSrc, fileset⟩))
  | accepted {r : Req} {m : DbMigration ι} (hphase : c.phase r = .issued m)
      (hname : lookup stringLess (c.provider m.dest).tables.name2id m.fileset.databaseName = none) :
      Stepped c (.arrive r) (c.setPhase r (.accepted m))
  | rejected {r : Req} {ret : Int} : Stepped c (.arrive r) (c.setPhase r (.answered ret))
  | delivered {r : Req} {m : DbMigration ι} {id : UInt64} {db : Datastore}
      (hphase : c.phase r = .accepted m)
      (hfree : lookup idLess (c.provider m.dest).tables.databases id = none)
      (hname : db.name = m.fileset.databaseName)
      (hcomp : db.compFunName = m.fileset.comparisonFunction)
      (hno : db.noOverwrite = m.fileset.noOverwrite) :
      Stepped c (.deliver r (some id))
        ((c.setProvider m.dest
          ((c.provider m.dest).enter m.fileset.databaseType.dbType id db)).setPhase r (.attached m))
  | undelivered {r : Req} {opened : Option UInt64} {ret : Int} :
      Stepped c (.deliver r opened) (c.setPhase r (.answered ret))
  | failed {r : Req} {ret : Int} : Stepped c (.fail r) (c.setPhase r (.answered ret))
  | moved {r : Req} {m : DbMigration ι} {ret : Int} (hphase : c.phase r = .attached m) :
      Stepped c (.finish r) ((c.setProvider m.source
        ((c.provider m.source).removeDatabase m.sourceDbId)).setPhase r (.answered ret))
  | copied {r : Req} {ret : Int} : Stepped c (.finish r) (c.setPhase r (.answered ret))

theorem stepped_of_step {c c' : Network ι Req} {a : NetworkAction ι Req} (hc : c.CStrings)
    (h : c.step a = some c') : Stepped c a c' := by
  cases a with
  | attach p config opened =>
      rw [step] at h
      split_ifs at h with hat
      cases h
      rw [attach]
      rcases (c.provider p).tables.attachDatabase_enter config.config opened with
        ⟨ret, hattach⟩ | ⟨id, compFn, rfl, hfind, hattach⟩
      · rw [hattach]
        exact .unattached
      · rw [hattach]
        exact .attached (notLive_of_not_atLive hat) hfind
  | remove p dbId =>
      cases h
      exact .removed
  | migrate r source sourceDbId dest destRoot removeSrc failed =>
      rw [step] at h
      cases hphase : c.phase r <;> rw [hphase] at h <;> try cases h
      obtain ⟨phase, hissue, rfl⟩ := Option.map_eq_some_iff.1 h
      rw [issue] at hissue
      cases hdb : lookup idLess (c.provider source).tables.databases sourceDbId with
      | none =>
          rw [hdb] at hissue
          cases hissue
          exact .refused
      | some db =>
          rw [hdb] at hissue
          cases failed with
          | some ret =>
              cases hissue
              exact .refused
          | none =>
              cases hb : ((c.provider source).dbType sourceDbId).fileBackend with
              | none =>
                  simp only [hb] at hissue
                  cases hissue
                  exact .refused
              | some b =>
                  simp only [hb] at hissue
                  obtain ⟨fileset, hfileset, rfl⟩ := Option.map_eq_some_iff.1 hissue
                  exact .issued hdb hb hfileset
  | arrive r =>
      rw [step] at h
      cases hphase : c.phase r <;> rw [hphase] at h <;> try cases h
      rename_i m
      rw [arrive]
      by_cases hret : ((c.provider m.dest).tables.preMigrationCallback
          (m.fileset.arrivedAt m.destRoot)).1 = 0
      · simp only [if_pos hret]
        exact .accepted hphase ((Provider.preMigrationCallback_eq_zero_iff _ _ _).1 hret).1
      · simp only [if_neg hret]
        exact .rejected
  | deliver r opened =>
      rw [step] at h
      cases hphase : c.phase r <;> rw [hphase] at h <;> try cases h
      rename_i m
      simp only at h
      split_ifs at h with hat
      obtain ⟨hname, hcomp⟩ := hc.fileset r m (by rw [hphase]; rfl)
      rw [deliver] at h
      rcases (c.provider m.dest).tables.postMigrationCallback_arrivedAt m.fileset m.destRoot opened
        hname hcomp with hpost | ⟨id, db, config, rfl, hname, hcomp, hno, htype, hpost⟩
      · rw [hpost] at h
        cases h
        exact .undelivered
      · simp only [hpost, htype, Option.getD_some, Option.some.injEq] at h
        cases h
        exact .delivered hphase (notLive_of_not_atLive hat) hname hcomp hno
  | fail r =>
      rw [step] at h
      cases hm : (c.phase r).migration <;> rw [hm] at h <;> cases h
      exact .failed
  | finish r =>
      rw [step] at h
      cases hphase : c.phase r <;> rw [hphase] at h <;> try cases h
      rw [finish]
      split_ifs
      · exact .moved hphase
      · exact .copied

section Effects

variable {c : Network ι Req}

omit [DecidableEq Req] in
theorem provider_setProvider (p : ι) (provider : RemiProvider) (p' : ι) :
    (c.setProvider p provider).provider p' = if p' = p then provider else c.provider p' :=
  update_apply _ _ _ _

omit [DecidableEq ι] in
theorem phase_setPhase (r : Req) (phase : MigrationPhase ι) (r' : Req) :
    (c.setPhase r phase).phase r' = if r' = r then phase else c.phase r' :=
  update_apply _ _ _ _

omit [DecidableEq Req] in
theorem live_setProvider (p : ι) (provider : RemiProvider) (p' : ι) (id : UInt64)
    (db : Datastore) :
    (c.setProvider p provider).Live p' id db ↔
      if p' = p then provider.tables.Live id db else c.Live p' id db := by
  rw [Live, provider_setProvider]
  split_ifs <;> rfl

omit [DecidableEq Req] in
theorem live_enter (p : ι) (type : SdskvDbType) (id : UInt64) (db : Datastore) (p' : ι)
    (id' : UInt64) (db' : Datastore) :
    (c.setProvider p ((c.provider p).enter type id db)).Live p' id' db' ↔
      if p' = p ∧ id' = id then db' = db else c.Live p' id' db' := by
  rw [live_setProvider, RemiProvider.enter, Provider.live_enter]
  by_cases hp : p' = p
  · subst hp
    by_cases hid : id' = id
    · simp [hid, eq_comm]
    · simp [hid, Ne.symm hid, Live]
  · simp [hp]

omit [DecidableEq Req] in
theorem live_removeDatabase (p : ι) (id : UInt64) (p' : ι) (id' : UInt64) (db' : Datastore) :
    (c.setProvider p ((c.provider p).removeDatabase id)).Live p' id' db' ↔
      c.Live p' id' db' ∧ ¬ (p' = p ∧ id' = id) := by
  rw [live_setProvider]
  by_cases hp : p' = p
  · subst hp
    simp only [if_true, true_and, Live, Provider.Live, RemiProvider.removeDatabase,
      Provider.removeDatabase]
    split_ifs with hcount
    · rw [lookup_erase_of_total]
      by_cases hid : id' = id
      · simp [hid]
      · simp [hid, Ne.symm hid]
    · rw [not_not, count_eq_zero_iff] at hcount
      by_cases hid : id' = id
      · simp [hid, hcount]
      · simp [hid]
  · simp [hp]

omit [DecidableEq ι] in
theorem migration_setPhase (r : Req) (phase : MigrationPhase ι) (r' : Req) :
    ((c.setPhase r phase).phase r').migration =
      if r' = r then phase.migration else (c.phase r').migration := by
  rw [phase_setPhase]
  split_ifs <;> rfl

end Effects

theorem createAndPopulateFileset_eq_some {b : FileBackend} {db : Datastore} {fileset : Fileset}
    (h : db.createAndPopulateFileset b = some fileset) :
    fileset.databaseType = b ∧ fileset.databaseName = db.name ∧
      fileset.comparisonFunction = db.compFunName ∧ fileset.noOverwrite = db.noOverwrite := by
  obtain ⟨localRoot, -, rfl⟩ := Option.map_eq_some_iff.1 h
  exact ⟨rfl, rfl, rfl, rfl⟩

/-- The strings of a datastore that was configured are those of its configuration. -/
theorem configure_compFunName {p : Provider} {config : DbConfig} {compFn : Option ComparatorFn}
    (hfind : p.findCompFn config.config = some compFn) :
    (Provider.configure config.config compFn).compFunName =
      (config.dbCompFnName.map Subtype.val).getD [] := by
  rw [Provider.findCompFn, DbConfig.config] at hfind
  rw [Provider.configure, DbConfig.config]
  cases hname : config.dbCompFnName.map Subtype.val with
  | none =>
      rw [hname] at hfind
      cases hfind
      rfl
  | some name =>
      rw [hname] at hfind
      cases name with
      | nil =>
          cases hfind
          rfl
      | cons b k =>
          obtain ⟨f, -, rfl⟩ := Option.map_eq_some_iff.1 hfind
          rfl

omit [DecidableEq ι] [DecidableEq Req] in
theorem cStrings_start (compfunctions : ι → List (Bulk × ComparatorFn)) :
    (start compfunctions : Network ι Req).CStrings where
  live p id db h := by cases h
  fileset r m h := by cases h

omit [DecidableEq Req] in
theorem CStrings.enter {c : Network ι Req} (h : c.CStrings) (p : ι) (type : SdskvDbType)
    (id : UInt64) {db : Datastore} (hname : (0 : UInt8) ∉ db.name)
    (hcomp : (0 : UInt8) ∉ db.compFunName) :
    (c.setProvider p ((c.provider p).enter type id db)).CStrings where
  live p' id' db' hlive := by
    rw [live_enter] at hlive
    split_ifs at hlive
    · rw [hlive]
      exact ⟨hname, hcomp⟩
    · exact h.live p' id' db' hlive
  fileset := h.fileset

omit [DecidableEq Req] in
theorem CStrings.removeDatabase {c : Network ι Req} (h : c.CStrings) (p : ι) (id : UInt64) :
    (c.setProvider p ((c.provider p).removeDatabase id)).CStrings where
  live p' id' db' hlive := h.live p' id' db' ((live_removeDatabase p id p' id' db').1 hlive).1
  fileset := h.fileset

omit [DecidableEq ι] in
theorem CStrings.setPhase {c : Network ι Req} (h : c.CStrings) (r : Req)
    {phase : MigrationPhase ι} (hphase : ∀ m, phase.migration = some m →
      (0 : UInt8) ∉ m.fileset.databaseName ∧ (0 : UInt8) ∉ m.fileset.comparisonFunction) :
    (c.setPhase r phase).CStrings where
  live := h.live
  fileset r' m hm := by
    rw [migration_setPhase] at hm
    split_ifs at hm
    · exact hphase m hm
    · exact h.fileset r' m hm

theorem cStrings_step {c c' : Network ι Req} {a : NetworkAction ι Req} (h : c.CStrings)
    (hstep : c.step a = some c') : c'.CStrings := by
  cases stepped_of_step h hstep with
  | unattached => exact h
  | @attached p config id compFn hfree hfind =>
      refine h.enter p config.dbType id config.dbName.2 ?_
      rw [configure_compFunName hfind]
      cases hname : config.dbCompFnName with
      | none => exact List.not_mem_nil
      | some name => exact name.2
  | removed => exact h.removeDatabase _ _
  | refused | rejected | undelivered | failed | copied =>
      exact h.setPhase _ fun m hm => by cases hm
  | issued hlive hb hfileset =>
      refine h.setPhase _ fun m hm => ?_
      cases hm
      obtain ⟨-, hname, hcomp, -⟩ := createAndPopulateFileset_eq_some hfileset
      rw [hname, hcomp]
      exact h.live _ _ _ hlive
  | accepted hphase hname =>
      refine h.setPhase _ fun m hm => ?_
      cases hm
      exact h.fileset _ _ (by rw [hphase]; rfl)
  | @delivered r m id db hphase hfree hname hcomp hno =>
      have hfileset := h.fileset r m (by rw [hphase]; rfl)
      refine (h.enter _ _ _ (by rw [hname]; exact hfileset.1)
        (by rw [hcomp]; exact hfileset.2)).setPhase r fun m' hm' => ?_
      cases hm'
      exact hfileset
  | moved hphase => exact (h.removeDatabase _ _).setPhase _ fun m hm => by cases hm

end Network

/-- What a database is besides its name and its contents. -/
structure DbDescriptor where
  dbType : SdskvDbType
  compFunName : Bulk
  noOverwrite : Bool
  deriving DecidableEq

/-- The descriptor that a configuration asks for. -/
def DbConfig.descriptor (config : DbConfig) : DbDescriptor :=
  { dbType := config.dbType
    compFunName := (config.dbCompFnName.map Subtype.val).getD []
    noOverwrite := config.dbNoOverwrite }

/-- The descriptor that goes with a fileset. -/
def Fileset.descriptor (f : Fileset) : DbDescriptor :=
  { dbType := f.databaseType.dbType
    compFunName := f.comparisonFunction
    noOverwrite := f.noOverwrite }

theorem dbType_of_fileBackend {type : SdskvDbType} {b : FileBackend}
    (h : type.fileBackend = some b) : b.dbType = type := by
  cases type <;> cases h <;> rfl

namespace Network

variable {ι Req : Type*}

/-- The descriptor of a database of a provider. -/
def descriptor (c : Network ι Req) (p : ι) (id : UInt64) (db : Datastore) : DbDescriptor :=
  { dbType := (c.provider p).dbType id
    compFunName := db.compFunName
    noOverwrite := db.noOverwrite }

/-- Every database with the name `n`, and every fileset of one, has the descriptor `δ`. -/
structure Described (n : Bulk) (δ : DbDescriptor) (c : Network ι Req) : Prop where
  cStrings : c.CStrings
  live : ∀ p id db, c.Live p id db → db.name = n → c.descriptor p id db = δ
  fileset : ∀ r m, (c.phase r).migration = some m → m.fileset.databaseName = n →
    m.fileset.descriptor = δ

/-- A database that is attached under the name `n` has the descriptor `δ`. -/
def AttachesAs (n : Bulk) (δ : DbDescriptor) : NetworkAction ι Req → Prop
  | .attach _ config _ => config.dbName.1 = n → config.descriptor = δ
  | _ => True

variable [DecidableEq ι] [DecidableEq Req] {n : Bulk} {δ : DbDescriptor}

omit [DecidableEq Req] in
theorem descriptor_enter (c : Network ι Req) (p : ι) (type : SdskvDbType) (id : UInt64)
    (db : Datastore) (p' : ι) (id' : UInt64) (db' : Datastore) :
    (c.setProvider p ((c.provider p).enter type id db)).descriptor p' id' db' =
      if p' = p ∧ id' = id then ⟨type, db'.compFunName, db'.noOverwrite⟩
      else c.descriptor p' id' db' := by
  rw [descriptor, provider_setProvider]
  by_cases hp : p' = p
  · subst hp
    simp only [if_true, true_and, RemiProvider.enter, update_apply]
    split_ifs <;> rfl
  · simp only [hp, if_false, false_and]
    rfl

omit [DecidableEq Req] in
theorem Described.live_enter {c : Network ι Req} (h : Described n δ c) (p : ι)
    (type : SdskvDbType) (id : UInt64) {db : Datastore}
    (hdb : db.name = n → ⟨type, db.compFunName, db.noOverwrite⟩ = δ) :
    ∀ p' id' db', (c.setProvider p ((c.provider p).enter type id db)).Live p' id' db' →
      db'.name = n →
        (c.setProvider p ((c.provider p).enter type id db)).descriptor p' id' db' = δ := by
  intro p' id' db' hlive hname
  rw [Network.live_enter] at hlive
  rw [descriptor_enter]
  split_ifs at hlive ⊢
  · subst hlive
    exact hdb hname
  · exact h.live p' id' db' hlive hname

omit [DecidableEq Req] in
theorem Described.live_removeDatabase {c : Network ι Req} (h : Described n δ c) (p : ι)
    (id : UInt64) :
    ∀ p' id' db', (c.setProvider p ((c.provider p).removeDatabase id)).Live p' id' db' →
      db'.name = n →
        (c.setProvider p ((c.provider p).removeDatabase id)).descriptor p' id' db' = δ := by
  intro p' id' db' hlive hname
  have hsame : (c.setProvider p ((c.provider p).removeDatabase id)).descriptor p' id' db' =
      c.descriptor p' id' db' := by
    rw [descriptor, provider_setProvider]
    by_cases hp : p' = p
    · subst hp
      rw [if_pos rfl]
      rfl
    · rw [if_neg hp]
      rfl
  rw [hsame]
  exact h.live p' id' db' ((Network.live_removeDatabase p id p' id' db').1 hlive).1 hname

omit [DecidableEq ι] in
theorem Described.fileset_setPhase {c : Network ι Req} (h : Described n δ c) (r : Req)
    {phase : MigrationPhase ι} (hphase : ∀ m, phase.migration = some m →
      m.fileset.databaseName = n → m.fileset.descriptor = δ) :
    ∀ r' m, ((c.setPhase r phase).phase r').migration = some m →
      m.fileset.databaseName = n → m.fileset.descriptor = δ := by
  intro r' m hm hname
  rw [migration_setPhase] at hm
  split_ifs at hm
  · exact hphase m hm hname
  · exact h.fileset r' m hm hname

theorem described_step {c c' : Network ι Req} {a : NetworkAction ι Req} (h : Described n δ c)
    (ha : AttachesAs n δ a) (hstep : c.step a = some c') : Described n δ c' := by
  have hcStrings := cStrings_step h.cStrings hstep
  cases stepped_of_step h.cStrings hstep with
  | unattached => exact h
  | @attached p config id compFn hfree hfind =>
      refine ⟨hcStrings, h.live_enter p config.dbType id fun hname => ?_, h.fileset⟩
      rw [configure_compFunName hfind]
      exact ha hname
  | removed => exact ⟨hcStrings, h.live_removeDatabase _ _, h.fileset⟩
  | refused | rejected | undelivered | failed | copied =>
      exact ⟨hcStrings, h.live, h.fileset_setPhase _ fun m hm => by cases hm⟩
  | @issued r source dest sourceDbId destRoot removeSrc failed db b fileset hlive hb hfileset =>
      refine ⟨hcStrings, h.live, h.fileset_setPhase r fun m hm hname => ?_⟩
      cases hm
      obtain ⟨rfl, hfname, hcomp, hno⟩ := createAndPopulateFileset_eq_some hfileset
      have hdescriptor := h.live source sourceDbId db hlive (hfname.symm.trans hname)
      rw [descriptor, ← hcomp, ← hno, ← dbType_of_fileBackend hb] at hdescriptor
      exact hdescriptor
  | accepted hphase hname =>
      refine ⟨hcStrings, h.live, h.fileset_setPhase _ fun m hm hfname => ?_⟩
      cases hm
      exact h.fileset _ _ (by rw [hphase]; rfl) hfname
  | @delivered r m id db hphase hfree hname hcomp hno =>
      have hfileset : m.fileset.databaseName = n → m.fileset.descriptor = δ :=
        h.fileset r m (by rw [hphase]; rfl)
      refine ⟨hcStrings, h.live_enter _ _ _ fun hn => ?_, h.fileset_setPhase r fun m' hm' => ?_⟩
      · rw [hcomp, hno]
        exact hfileset (hname.symm.trans hn)
      · cases hm'
        exact hfileset
  | moved hphase =>
      exact ⟨hcStrings, h.live_removeDatabase _ _,
        h.fileset_setPhase _ fun m hm => by cases hm⟩

/-- A LevelDB database `db` without overwriting, at the path `/a`. -/
def levelDBConfig : DbConfig :=
  { dbName := exampleName
    dbPath := ⟨[47, 97], by decide⟩
    dbType := .leveldb
    dbCompFnName := none
    dbNoOverwrite := true }

/-- The database is attached at provider 0 and moved to provider 1. -/
def moveToOther : List (NetworkAction ℕ ℕ) :=
  [.attach 0 levelDBConfig (some 16), .migrate 0 0 16 1 [47, 98] true none, .arrive 0,
    .deliver 0 (some 32), .finish 0]

end Network

end Sdskv
