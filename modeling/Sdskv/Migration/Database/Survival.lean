import Sdskv.Migration.Database.Network

/-!
# No database is lost

The pre-migration callback checks that the name is free at the destination, but it does not
reserve it, and the handler at the source removes the database by its address, which may
belong to another datastore by then. `Admitted` are the runs in which neither matters: no
database is attached under a name that is on its way to the provider, and no datastore is
created at an address that a request in progress is going to remove.

In such a run the tables of every provider stay consistent, and a database that is not
removed by its name is at some provider in every state. Several requests may move one
database at the same time. Every copy of a database has a `stamp`, the moment it was made at,
and a request that is about to remove a copy has seen a later one; so the latest copy is
never removed.
-/

namespace Sdskv

open OrderedMap Transition Function

namespace Network

variable {ι Req : Type*}

/-- No request in progress has the database at this address as its source. -/
def Unreferenced (c : Network ι Req) (p : ι) (id : UInt64) : Prop :=
  ∀ r m, (c.phase r).migration = some m → m.source = p → m.sourceDbId ≠ id

/-- No database of this name is on its way to the provider. -/
def Unreserved (c : Network ι Req) (p : ι) (name : Bulk) : Prop :=
  ∀ r m, c.phase r = .accepted m → m.dest = p → m.fileset.databaseName ≠ name

/-- A step that takes no name and no address that a request in progress relies on, and removes
no database with the name `n`. -/
def Admitted (n : Bulk) (c : Network ι Req) : NetworkAction ι Req → Prop
  | .attach p config opened =>
      (∀ id db, c.Live p id db → db.name ≠ config.dbName.1) ∧
        c.Unreserved p config.dbName.1 ∧ ∀ id ∈ opened, c.Unreferenced p id
  | .remove p id => ∀ db, c.Live p id db → db.name ≠ n
  | .arrive r => ∀ m, c.phase r = .issued m → c.Unreserved m.dest m.fileset.databaseName
  | .deliver r opened => ∀ m, c.phase r = .accepted m → ∀ id ∈ opened, c.Unreferenced m.dest id
  | _ => True

/-- Some provider has a database with the name `n`. -/
def Survives (n : Bulk) (c : Network ι Req) : Prop :=
  ∃ p id db, c.Live p id db ∧ db.name = n

/-- A copy of the database `n` that is later than the one at the address `id` of `p`. -/
def LaterCopy (n : Bulk) (stamp : ι → UInt64 → ℕ) (c : Network ι Req) (p : ι) (id : UInt64) :
    Prop :=
  ∃ p' id' db, c.Live p' id' db ∧ db.name = n ∧ stamp p id < stamp p' id'

/-- The invariant: the tables agree, names on their way are free at their destination and on
their way only once, the source of a request is what it was, and a request that has copied
the database `n` has made a later copy. -/
structure Safe (n : Bulk) (clock : ℕ) (stamp : ι → UInt64 → ℕ) (c : Network ι Req) : Prop where
  cStrings : c.CStrings
  tables : ∀ p, (c.provider p).tables.Tables
  reserved : ∀ r m, c.phase r = .accepted m → ∀ id db, c.Live m.dest id db →
    db.name ≠ m.fileset.databaseName
  unique : ∀ r r' m m', c.phase r = .accepted m → c.phase r' = .accepted m' →
    m.dest = m'.dest → m.fileset.databaseName = m'.fileset.databaseName → r = r'
  source : ∀ r m, (c.phase r).migration = some m → ∀ db, c.Live m.source m.sourceDbId db →
    db.name = m.fileset.databaseName
  young : ∀ p id db, c.Live p id db → stamp p id < clock
  youngSource : ∀ r m, (c.phase r).migration = some m → stamp m.source m.sourceDbId < clock
  copied : ∀ r m, c.phase r = .attached m → m.fileset.databaseName = n →
    c.LaterCopy n stamp m.source m.sourceDbId

theorem safe_start (compfunctions : ι → List (Bulk × ComparatorFn)) (n : Bulk) :
    Safe n 0 (fun _ _ => 0) (start compfunctions : Network ι Req) where
  cStrings := cStrings_start compfunctions
  tables p := Provider.tables_new (compfunctions p)
  reserved r m h := by cases h
  unique r r' m m' h := by cases h
  source r m h := by cases h
  young p id db h := by cases h
  youngSource r m h := by cases h
  copied r m h := by cases h

variable [DecidableEq ι] [DecidableEq Req] {n : Bulk} {clock : ℕ} {stamp : ι → UInt64 → ℕ}
  {c : Network ι Req}

omit [DecidableEq ι] in
/-- A step of one request outside the tables. -/
theorem Safe.setPhase (h : Safe n clock stamp c) (r : Req) (phase : MigrationPhase ι)
    (hmigration : ∀ m, phase.migration = some m →
      ((0 : UInt8) ∉ m.fileset.databaseName ∧ (0 : UInt8) ∉ m.fileset.comparisonFunction) ∧
        (∀ db, c.Live m.source m.sourceDbId db → db.name = m.fileset.databaseName) ∧
        stamp m.source m.sourceDbId < clock)
    (haccepted : ∀ m, phase = .accepted m →
      (∀ id db, c.Live m.dest id db → db.name ≠ m.fileset.databaseName) ∧
        c.Unreserved m.dest m.fileset.databaseName)
    (hattached : ∀ m, phase = .attached m → m.fileset.databaseName = n →
      c.LaterCopy n stamp m.source m.sourceDbId) :
    Safe n clock stamp (c.setPhase r phase) where
  cStrings := h.cStrings.setPhase r fun m hm => (hmigration m hm).1
  tables := h.tables
  reserved r' m hm := by
    rw [phase_setPhase] at hm
    split_ifs at hm
    · exact (haccepted m hm).1
    · exact h.reserved r' m hm
  unique r₁ r₂ m₁ m₂ h₁ h₂ hdest hname := by
    rw [phase_setPhase] at h₁ h₂
    split_ifs at h₁ h₂ with hr₁ hr₂ hr₂
    · rw [hr₁, hr₂]
    · exact absurd hname.symm ((haccepted m₁ h₁).2 r₂ m₂ h₂ hdest.symm)
    · exact absurd hname ((haccepted m₂ h₂).2 r₁ m₁ h₁ hdest)
    · exact h.unique r₁ r₂ m₁ m₂ h₁ h₂ hdest hname
  source r' m hm := by
    rw [migration_setPhase] at hm
    split_ifs at hm
    · exact (hmigration m hm).2.1
    · exact h.source r' m hm
  young := h.young
  youngSource r' m hm := by
    rw [migration_setPhase] at hm
    split_ifs at hm
    · exact (hmigration m hm).2.2
    · exact h.youngSource r' m hm
  copied r' m hm hname := by
    rw [phase_setPhase] at hm
    split_ifs at hm
    · exact hattached m hm hname
    · exact h.copied r' m hm hname

omit [DecidableEq ι] in
/-- A request that is answered. -/
theorem Safe.answered (h : Safe n clock stamp c) (r : Req) (ret : Int) :
    Safe n clock stamp (c.setPhase r (.answered ret)) :=
  h.setPhase r _ (fun m hm => by cases hm) (fun m hm => by cases hm) (fun m hm => by cases hm)

/-- The stamps after a copy was made. -/
def stampAt (stamp : ι → UInt64 → ℕ) (clock : ℕ) (p : ι) (id : UInt64) : ι → UInt64 → ℕ :=
  fun p' id' => if p' = p ∧ id' = id then clock else stamp p' id'

omit [DecidableEq Req] in
theorem LaterCopy.enter {p : ι} {type : SdskvDbType} {id : UInt64} {db : Datastore}
    (hfree : ∀ db', ¬ c.Live p id db') {p₀ : ι} {id₀ : UInt64} (hne : ¬ (p₀ = p ∧ id₀ = id))
    (h : c.LaterCopy n stamp p₀ id₀) :
    (c.setProvider p ((c.provider p).enter type id db)).LaterCopy n (stampAt stamp clock p id)
      p₀ id₀ := by
  obtain ⟨p', id', db', hlive, hname, hlt⟩ := h
  have hne' : ¬ (p' = p ∧ id' = id) := by
    rintro ⟨rfl, rfl⟩
    exact hfree db' hlive
  refine ⟨p', id', db', ?_, hname, ?_⟩
  · rw [live_enter, if_neg hne']
    exact hlive
  · rw [stampAt, stampAt, if_neg hne, if_neg hne']
    exact hlt

omit [DecidableEq Req] in
/-- A later copy than the one that is removed is left, if the removed one has a later copy
itself. -/
theorem LaterCopy.removeDatabase {p : ι} {id : UInt64}
    (hremoved : ∀ db, c.Live p id db → db.name = n → c.LaterCopy n stamp p id) {p₀ : ι}
    {id₀ : UInt64} (h : c.LaterCopy n stamp p₀ id₀) :
    (c.setProvider p ((c.provider p).removeDatabase id)).LaterCopy n stamp p₀ id₀ := by
  obtain ⟨p', id', db', hlive, hname, hlt⟩ := h
  by_cases hsame : p' = p ∧ id' = id
  · obtain ⟨rfl, rfl⟩ := hsame
    obtain ⟨p'', id'', db'', hlive'', hname'', hlt''⟩ := hremoved db' hlive hname
    have hne : ¬ (p'' = p' ∧ id'' = id') := by
      rintro ⟨rfl, rfl⟩
      omega
    exact ⟨p'', id'', db'', (live_removeDatabase _ _ _ _ _).2 ⟨hlive'', hne⟩, hname'',
      hlt.trans hlt''⟩
  · exact ⟨p', id', db', (live_removeDatabase _ _ _ _ _).2 ⟨hlive, hsame⟩, hname, hlt⟩

omit [DecidableEq Req] in
/-- A datastore is entered under a free name and at a free address. -/
theorem Safe.enter (h : Safe n clock stamp c) {p : ι} {id : UInt64} {db : Datastore}
    (type : SdskvDbType) (hfree : lookup idLess (c.provider p).tables.databases id = none)
    (hname : (0 : UInt8) ∉ db.name) (hcomp : (0 : UInt8) ∉ db.compFunName)
    (hfresh : ∀ id' db', c.Live p id' db' → db'.name ≠ db.name)
    (hunreserved : c.Unreserved p db.name) (hunreferenced : c.Unreferenced p id) :
    Safe n (clock + 1) (stampAt stamp clock p id)
      (c.setProvider p ((c.provider p).enter type id db)) := by
  have hdead : ∀ db', ¬ c.Live p id db' := by
    intro db' hlive
    rw [Live, Provider.Live, hfree] at hlive
    cases hlive
  have hsource : ∀ r m, (c.phase r).migration = some m →
      ¬ (m.source = p ∧ m.sourceDbId = id) := fun r m hm heq =>
    hunreferenced r m hm heq.1 heq.2
  refine ⟨h.cStrings.enter p type id hname hcomp, ?_, ?_, h.unique, ?_, ?_, ?_, ?_⟩
  · intro p'
    rw [provider_setProvider]
    split_ifs with hp
    · subst hp
      exact Provider.tables_enter (h.tables p') hfree hfresh
    · exact h.tables p'
  · intro r m hm id' db' hlive
    rw [live_enter] at hlive
    split_ifs at hlive with hsame
    · subst hlive
      exact (hunreserved r m hm hsame.1).symm
    · exact h.reserved r m hm id' db' hlive
  · intro r m hm db' hlive
    rw [live_enter, if_neg (hsource r m hm)] at hlive
    exact h.source r m hm db' hlive
  · intro p' id' db' hlive
    rw [live_enter] at hlive
    rw [stampAt]
    split_ifs at hlive ⊢
    · omega
    · exact (h.young p' id' db' hlive).trans (Nat.lt_succ_self clock)
  · intro r m hm
    rw [stampAt, if_neg (hsource r m hm)]
    exact (h.youngSource r m hm).trans (Nat.lt_succ_self clock)
  · intro r m hm hmname
    have hne := hsource r m (by rw [show c.phase r = .attached m from hm]; rfl)
    exact LaterCopy.enter hdead hne (h.copied r m hm hmname)

omit [DecidableEq Req] in
/-- A database is removed whose copies of the name `n` are not the latest. -/
theorem Safe.removeDatabase (h : Safe n clock stamp c) {p : ι} {id : UInt64}
    (hremoved : ∀ db, c.Live p id db → db.name = n → c.LaterCopy n stamp p id) :
    Safe n clock stamp (c.setProvider p ((c.provider p).removeDatabase id)) := by
  have hlive : ∀ {p' id' db'},
      (c.setProvider p ((c.provider p).removeDatabase id)).Live p' id' db' →
        c.Live p' id' db' := fun hlive => ((live_removeDatabase _ _ _ _ _).1 hlive).1
  refine ⟨h.cStrings.removeDatabase p id, ?_, ?_, h.unique, ?_, ?_, h.youngSource, ?_⟩
  · intro p'
    rw [provider_setProvider]
    split_ifs with hp
    · subst hp
      exact Provider.tables_remove (h.tables p') id
    · exact h.tables p'
  · exact fun r m hm id' db' hlive' => h.reserved r m hm id' db' (hlive hlive')
  · exact fun r m hm db' hlive' => h.source r m hm db' (hlive hlive')
  · exact fun p' id' db' hlive' => h.young p' id' db' (hlive hlive')
  · exact fun r m hm hname => LaterCopy.removeDatabase hremoved (h.copied r m hm hname)

omit [DecidableEq Req] in
theorem Survives.enter (h : c.Survives n) {p : ι} {type : SdskvDbType} {id : UInt64}
    {db : Datastore} (hfree : lookup idLess (c.provider p).tables.databases id = none) :
    (c.setProvider p ((c.provider p).enter type id db)).Survives n := by
  obtain ⟨p', id', db', hlive, hname⟩ := h
  refine ⟨p', id', db', ?_, hname⟩
  rw [live_enter, if_neg]
  · exact hlive
  · rintro ⟨rfl, rfl⟩
    rw [Live, Provider.Live, hfree] at hlive
    cases hlive

omit [DecidableEq Req] in
theorem Survives.removeDatabase (h : c.Survives n) {p : ι} {id : UInt64}
    (hremoved : ∀ db, c.Live p id db → db.name = n → c.LaterCopy n stamp p id) :
    (c.setProvider p ((c.provider p).removeDatabase id)).Survives n := by
  obtain ⟨p', id', db', hlive, hname⟩ := h
  by_cases hsame : p' = p ∧ id' = id
  · obtain ⟨rfl, rfl⟩ := hsame
    obtain ⟨p'', id'', db'', hlive'', hname'', -⟩ :=
      LaterCopy.removeDatabase hremoved (hremoved db' hlive hname)
    exact ⟨p'', id'', db'', hlive'', hname''⟩
  · exact ⟨p', id', db', (live_removeDatabase _ _ _ _ _).2 ⟨hlive, hsame⟩, hname⟩

/-- The post-migration callback has attached a database: the name is no longer on its way, and
the new copy is the latest one. -/
theorem Safe.deliver (h : Safe n clock stamp c) {r : Req} {m : DbMigration ι} {id : UInt64}
    {db : Datastore} (hphase : c.phase r = .accepted m)
    (hfree : lookup idLess (c.provider m.dest).tables.databases id = none)
    (hname : db.name = m.fileset.databaseName)
    (hcomp : db.compFunName = m.fileset.comparisonFunction)
    (hunreferenced : c.Unreferenced m.dest id) :
    Safe n (clock + 1) (stampAt stamp clock m.dest id)
      ((c.setProvider m.dest
        ((c.provider m.dest).enter m.fileset.databaseType.dbType id db)).setPhase r
          (.attached m)) := by
  have hm : (c.phase r).migration = some m := by rw [hphase]; rfl
  have hissued : Safe n clock stamp (c.setPhase r (.issued m)) := by
    refine h.setPhase r (.issued m) (fun m' hm' => ?_) (fun m' hm' => by cases hm')
      (fun m' hm' => by cases hm')
    cases hm'
    exact ⟨h.cStrings.fileset r m hm, h.source r m hm, h.youngSource r m hm⟩
  have hunreserved : (c.setPhase r (.issued m)).Unreserved m.dest db.name := by
    intro r' m' hm' hdest hname'
    rw [phase_setPhase] at hm'
    split_ifs at hm' with hr
    exact hr (h.unique r' r m' m hm' hphase hdest (hname'.trans hname))
  have hunreferenced' : (c.setPhase r (.issued m)).Unreferenced m.dest id := by
    intro r' m' hm'
    rw [migration_setPhase] at hm'
    split_ifs at hm' with hr
    · cases hm'
      exact hunreferenced r m hm
    · exact hunreferenced r' m' hm'
  have hentered := hissued.enter m.fileset.databaseType.dbType hfree
    (by rw [hname]; exact (h.cStrings.fileset r m hm).1)
    (by rw [hcomp]; exact (h.cStrings.fileset r m hm).2)
    (fun id' db' hlive => by rw [hname]; exact h.reserved r m hphase id' db' hlive)
    hunreserved hunreferenced'
  have hmoved : (((c.setPhase r (.issued m)).setProvider m.dest
      (((c.setPhase r (.issued m)).provider m.dest).enter m.fileset.databaseType.dbType id
        db)).phase r).migration = some m := by
    show ((c.setPhase r (.issued m)).phase r).migration = some m
    rw [migration_setPhase, if_pos rfl]
    rfl
  have hattached := hentered.setPhase r (.attached m)
    (fun m' hm' => by
      cases hm'
      exact ⟨h.cStrings.fileset r m hm, hentered.source r m hmoved,
        hentered.youngSource r m hmoved⟩)
    (fun m' hm' => by cases hm')
    (fun m' hm' hn => by
      cases hm'
      refine ⟨m.dest, id, db, ?_, hname.trans hn, ?_⟩
      · rw [live_enter, if_pos ⟨rfl, rfl⟩]
      · have hsource : ¬ (m.source = m.dest ∧ m.sourceDbId = id) := fun heq =>
          hunreferenced r m hm heq.1 heq.2
        rw [stampAt, stampAt, if_neg hsource, if_pos ⟨rfl, rfl⟩]
        exact h.youngSource r m hm)
  have hphases : ((c.setPhase r (.issued m)).setProvider m.dest
      (((c.setPhase r (.issued m)).provider m.dest).enter m.fileset.databaseType.dbType id
        db)).setPhase r (.attached m) =
      (c.setProvider m.dest
        ((c.provider m.dest).enter m.fileset.databaseType.dbType id db)).setPhase r
          (.attached m) := by
    simp only [Network.setPhase, setProvider, update_idem]
  rw [← hphases]
  exact hattached

/-- An admitted step keeps the invariant, and loses no database. -/
theorem safe_step {c' : Network ι Req} {a : NetworkAction ι Req} (h : Safe n clock stamp c)
    (ha : Admitted n c a) (hstep : c.step a = some c') :
    (∃ clock' stamp', Safe n clock' stamp' c') ∧ (c.Survives n → c'.Survives n) := by
  cases stepped_of_step h.cStrings hstep with
  | unattached => exact ⟨⟨clock, stamp, h⟩, id⟩
  | @attached p config id compFn hfree hfind =>
      obtain ⟨hfresh, hunreserved, hunreferenced⟩ := ha
      refine ⟨⟨_, _, h.enter config.dbType hfree config.dbName.2 ?_ hfresh hunreserved
        (hunreferenced id rfl)⟩, fun hsurvives => hsurvives.enter hfree⟩
      rw [configure_compFunName hfind]
      cases config.dbCompFnName with
      | none => exact List.not_mem_nil
      | some name => exact name.2
  | @removed p dbId =>
      have hremoved : ∀ db, c.Live p dbId db → db.name = n → c.LaterCopy n stamp p dbId :=
        fun db hlive hname => absurd hname (ha db hlive)
      exact ⟨⟨_, _, h.removeDatabase hremoved⟩, fun hsurvives => hsurvives.removeDatabase hremoved⟩
  | refused | rejected | undelivered | failed | copied =>
      exact ⟨⟨_, _, h.answered _ _⟩, id⟩
  | @issued r source dest sourceDbId destRoot removeSrc failed db b fileset hlive hb hfileset =>
      obtain ⟨-, hname, hcomp, -⟩ := createAndPopulateFileset_eq_some hfileset
      refine ⟨⟨_, _, h.setPhase r _ (fun m hm => ?_) (fun m hm => by cases hm)
        (fun m hm => by cases hm)⟩, id⟩
      cases hm
      refine ⟨?_, fun db' hlive' => ?_, h.young source sourceDbId db hlive⟩
      · rw [hname, hcomp]
        exact h.cStrings.live source sourceDbId db hlive
      · cases (hlive.symm.trans hlive' : some db = some db')
        exact hname.symm
  | @accepted r m hphase hname =>
      have hm : (c.phase r).migration = some m := by rw [hphase]; rfl
      refine ⟨⟨_, _, h.setPhase r _ (fun m' hm' => ?_) (fun m' hm' => ?_)
        (fun m' hm' => by cases hm')⟩, id⟩
      · cases hm'
        exact ⟨h.cStrings.fileset r m hm, h.source r m hm, h.youngSource r m hm⟩
      · cases hm'
        refine ⟨fun id db hlive hdb => ?_, ha m hphase⟩
        have hlookup := ((h.tables m.dest).name2id_iff m.fileset.databaseName id).2
          ⟨db, hlive, hdb⟩
        rw [hname] at hlookup
        cases hlookup
  | @delivered r m id db hphase hfree hname hcomp hno =>
      refine ⟨⟨_, _, h.deliver hphase hfree hname hcomp (ha m hphase id rfl)⟩, ?_⟩
      exact fun hsurvives => hsurvives.enter hfree
  | @moved r m ret hphase =>
      have hremoved : ∀ db, c.Live m.source m.sourceDbId db → db.name = n →
          c.LaterCopy n stamp m.source m.sourceDbId := by
        intro db hlive hname
        have hsource := h.source r m (by rw [hphase]; rfl) db hlive
        exact h.copied r m hphase (hsource.symm.trans hname)
      refine ⟨⟨_, _, (h.removeDatabase hremoved).answered r ret⟩, ?_⟩
      exact fun hsurvives => hsurvives.removeDatabase hremoved

/-- Moving a database to another provider is admitted. -/
theorem admitted_moveToOther :
    holdsAlong step (Admitted exampleName.1) (start fun _ => [] : Network ℕ ℕ) moveToOther := by
  refine ⟨⟨?_, ?_, ?_⟩, ?_⟩
  · rintro id db ⟨⟩
  · rintro r m ⟨⟩
  · rintro id - r m ⟨⟩
  rintro c ⟨⟩
  refine ⟨trivial, ?_⟩
  rintro c ⟨⟩
  refine ⟨?_, ?_⟩
  · rintro m ⟨⟩ r' m' hm'
    cases r' with
    | zero => cases hm'
    | succ r' => cases hm'
  rintro c ⟨⟩
  refine ⟨?_, ?_⟩
  · rintro m ⟨⟩ id - r' m' hm' hsource
    cases r' with
    | zero =>
        cases hm'
        cases hsource
    | succ r' => cases hm'
  rintro c ⟨⟩
  exact ⟨trivial, fun _ _ => trivial⟩

end Network

end Sdskv
