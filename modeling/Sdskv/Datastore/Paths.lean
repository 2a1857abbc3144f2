import Sdskv.Datastore.Mkdirs

/-!
# The directories of the LevelDB and the BerkeleyDB backend

A database is opened with a path and a name and keeps its data in the directory `path/name`,
and `create_and_populate_fileset` describes a directory for a migration. Four functions join
path and name: `openDatabase` of the LevelDB backend leaves an empty path alone, and the three
others look at the last character of the path, which an empty path does not have.

The file system is a parameter. LevelDB makes the directory that it is given, if the one above
it is there; the environment of BerkeleyDB has to be there, and the file of the database is made
in it. An access to a character that is not there is `none`, and so is the place of a database
whose `openDatabase` returns `false`.

`pathsAgree_iff` says when a backend keeps its data in `path/name` on every file system and
describes that directory to a migration: the path is not empty, `mkdirs` makes what the library
needs, and the name does not lead on from there.
-/

namespace Sdskv

open Path

/-- The backends that keep their data in files. -/
inductive FileBackend
  | levelDB
  | berkeleyDB
  deriving DecidableEq

/-- The fields of a datastore that the functions below read. -/
structure StoreFields where
  name : CString
  path : CString
  compFunName : Bulk
  noOverwrite : Bool

/-- Where a database is opened: the directory that the library is given, and the files that it
is asked for by name. -/
structure OpenedAt where
  directory : Bulk
  files : List Bulk
  deriving DecidableEq

/-- A fileset of REMI with the metadata that a migration registers. -/
structure Fileset where
  root : Bulk
  directories : List Bulk
  databaseType : FileBackend
  comparisonFunction : Bulk
  databaseName : Bulk
  noOverwrite : Bool
  deriving DecidableEq

/-- The slash that is added to a path that does not end in one. -/
def withLastSlash (path : Bulk) : Option Bulk :=
  path.getLast?.map fun c => if c ≠ slash then path ++ [slash] else path

/-- What `openDatabase` leaves: the fields of the datastore, the file system, and where the
database is; the place is `none` when `false` is returned. -/
abbrev Opening (F : FileSystem UInt8 dots) : Type :=
  StoreFields × Option (F.State × Option OpenedAt)

namespace LevelDBDataStore

/-- `mkdirs` for a path that is not empty. -/
def makePath (path : Bulk) : Option (List Bulk) := if path ≠ [] then mkdirs path else some []

/-- The name that `openDatabase` gives to `leveldb::DB::Open`. -/
def fullname (name path : Bulk) : Bulk := (if path ≠ [] then path ++ [slash] else path) ++ name

/-- `leveldb::DB::Open`, which makes the directory itself and puts its files there. -/
def openIn (F : FileSystem UInt8 dots) (fs : F.State) (directory : Bulk) :
    F.State × Option OpenedAt :=
  let fs := F.mkdir fs (Directory.ofString slash directory)
  (fs, if F.has fs (Directory.ofString slash directory) then
    some { directory := directory, files := [] } else none)

/-- `openDatabase`. -/
def openDatabase (F : FileSystem UInt8 dots) (fs : F.State) (s : StoreFields)
    (dbName dbPath : CString) : Opening F :=
  ({ s with name := dbName, path := dbPath },
    (makePath dbPath.1).map fun calls =>
      openIn F (F.mkdirAll fs (madeBy calls)) (fullname dbName.1 dbPath.1))

end LevelDBDataStore

namespace BerkeleyDBDataStore

/-- The file that `Db::open` opens in the environment `home`; an absolute name is used as it
is. -/
def databaseFile (home name : Bulk) : Bulk :=
  if name.head? = some slash then name else home ++ slash :: name

/-- `Db::open` can make the file: the string is not the name of a directory, and the directory
above it is there. -/
def createsFile (F : FileSystem UInt8 dots) (fs : F.State) (file : Bulk) : Bool :=
  file.getLast? ≠ some slash ∧
    (∀ c ∈ (Directory.ofString slash file).components.getLast?, ¬ dots.contains c) ∧
      F.has fs (Directory.ofString slash file).parent

/-- `DbEnv::open` of a directory that has to be there, and `Db::open` of a file in it. -/
def openIn (F : FileSystem UInt8 dots) (fs : F.State) (home name : Bulk) :
    F.State × Option OpenedAt :=
  (fs, if F.has fs (Directory.ofString slash home) ∧ createsFile F fs (databaseFile home name) then
    some { directory := home, files := [databaseFile home name] } else none)

/-- `openDatabase`. -/
def openDatabase (F : FileSystem UInt8 dots) (fs : F.State) (s : StoreFields)
    (dbName dbPath : CString) : Opening F :=
  ({ s with name := dbName, path := dbPath },
    (withLastSlash dbPath.1).bind fun fullpath =>
      (mkdirs (fullpath ++ dbName.1)).map fun calls =>
        openIn F (F.mkdirAll fs (madeBy calls)) (fullpath ++ dbName.1) dbName.1)

end BerkeleyDBDataStore

/-- `create_and_populate_fileset`, which is the same in both backends but for the type. -/
def populateFileset (databaseType : FileBackend) (s : StoreFields) : Option Fileset :=
  (withLastSlash s.path.1).map fun localRoot =>
    { root := localRoot
      directories := [s.name.1 ++ [slash]]
      databaseType := databaseType
      comparisonFunction := s.compFunName
      databaseName := s.name.1
      noOverwrite := s.noOverwrite }

/-- `LevelDBDataStore::create_and_populate_fileset`. -/
def LevelDBDataStore.createAndPopulateFileset : StoreFields → Option Fileset :=
  populateFileset .levelDB

/-- `BerkeleyDBDataStore::create_and_populate_fileset`. -/
def BerkeleyDBDataStore.createAndPopulateFileset : StoreFields → Option Fileset :=
  populateFileset .berkeleyDB

namespace FileBackend

/-- `openDatabase` of a backend. -/
def openDatabase (F : FileSystem UInt8 dots) (fs : F.State) :
    FileBackend → StoreFields → CString → CString → Opening F
  | levelDB => LevelDBDataStore.openDatabase F fs
  | berkeleyDB => BerkeleyDBDataStore.openDatabase F fs

/-- `create_and_populate_fileset` of a backend. -/
def createAndPopulateFileset : FileBackend → StoreFields → Option Fileset
  | levelDB => LevelDBDataStore.createAndPopulateFileset
  | berkeleyDB => BerkeleyDBDataStore.createAndPopulateFileset

end FileBackend

/-- The directory `path/name`, and `name` when the path is empty. -/
def dataDirectory (name path : Bulk) : Directory UInt8 :=
  if path = [] then Directory.ofString slash name
  else (Directory.ofString slash path).join (Directory.ofString slash name)

/-- A file below the directory, from which its name does not lead back. -/
def FileIn (directory file : Bulk) : Prop :=
  ∃ rel, file = directory ++ slash :: rel ∧
    [46, 46] ∉ (Directory.ofString slash rel).components

/-- On the file system, the database is opened in `path/name` with all its files, the fileset
describes the same directory, and no character outside a string is read. -/
def PathsAgreeOn (F : FileSystem UInt8 dots) (fs : F.State) (b : FileBackend) (s : StoreFields)
    (name path : CString) : Prop :=
  ∃ fs' opened fileset, (b.openDatabase F fs s name path).2 = some (fs', some opened) ∧
    b.createAndPopulateFileset (b.openDatabase F fs s name path).1 = some fileset ∧
    Directory.ofString slash opened.directory = dataDirectory name.1 path.1 ∧
    F.has fs' (dataDirectory name.1 path.1) ∧
    (∀ file ∈ opened.files, FileIn opened.directory file) ∧
    ∃ dir, fileset.directories = [dir] ∧
      Directory.ofString slash (fileset.root ++ dir) = dataDirectory name.1 path.1

/-- A backend keeps its data in `path/name`, whatever the file system has been. -/
def PathsAgree (b : FileBackend) (s : StoreFields) (name path : CString) : Prop :=
  ∀ (F : FileSystem UInt8 dots) (fs : F.State), PathsAgreeOn F fs b s name path

/-- The string that the BerkeleyDB backend gives to `mkdirs` for a path that is not empty. -/
def BerkeleyDBDataStore.fullpath (name path : Bulk) : Bulk :=
  (if path.getLast? = some slash then path else path ++ [slash]) ++ name

/-- `mkdirs` makes the path, and the name leads at most one directory further; a name without
components does not need the last character of the path. -/
structure LevelDBDataStore.FindsDirectory (name path : Bulk) : Prop where
  length : path.length ≤ 256
  made : (Directory.ofString slash name).components = [] ∨ FitsBuffer path
  dots : ∀ c ∈ (Directory.ofString slash name).components.dropLast, c ∈ dots

/-- `mkdirs` makes the directory, and the name is that of a file in it. -/
structure BerkeleyDBDataStore.FindsDirectory (name path : Bulk) : Prop where
  length : (BerkeleyDBDataStore.fullpath name path).length ≤ 255
  relative : name.head? ≠ some slash
  file : ∃ c, name.getLast? = some c ∧ c ≠ slash
  dot : ∀ c ∈ (Directory.ofString slash name).components.dropLast, c = [46]
  last : ∀ c ∈ (Directory.ofString slash name).components.getLast?, c ∉ dots

/-- The condition on path and name of a backend. -/
def FileBackend.FindsDirectory (name path : Bulk) : FileBackend → Prop
  | levelDB => LevelDBDataStore.FindsDirectory name path
  | berkeleyDB => BerkeleyDBDataStore.FindsDirectory name path

section Joined

variable {path : Bulk}

theorem withLastSlash_of_ne_nil (h : path ≠ []) :
    withLastSlash path =
      some (if path.getLast? = some slash then path else path ++ [slash]) := by
  rw [withLastSlash, List.getLast?_eq_some_getLast h, Option.map_some]
  by_cases hlast : path.getLast h = slash
  · simp [hlast]
  · simp [hlast]

/-- A path with a slash at its end and a string behind it is the directory below the path. -/
theorem ofString_withLastSlash_append (h : path ≠ []) (t : Bulk) :
    Directory.ofString slash
        ((if path.getLast? = some slash then path else path ++ [slash]) ++ t) =
      (Directory.ofString slash path).join (Directory.ofString slash t) := by
  split_ifs with hlast
  · exact Directory.ofString_append_of_getLast slash hlast t
  · rw [List.append_assoc]
    exact Directory.ofString_append_sep slash h t

end Joined

theorem populateFileset_spec (b : FileBackend) (s : StoreFields) (h : s.path.1 ≠ []) :
    ∃ fileset, populateFileset b s = some fileset ∧ ∃ dir, fileset.directories = [dir] ∧
      Directory.ofString slash (fileset.root ++ dir) = dataDirectory s.name.1 s.path.1 := by
  refine ⟨_, by rw [populateFileset, withLastSlash_of_ne_nil h]; rfl, _, rfl, ?_⟩
  rw [dataDirectory, if_neg h, ofString_withLastSlash_append h, Directory.join_concat_sep]

theorem populateFileset_of_nil (b : FileBackend) {s : StoreFields} (h : s.path.1 = []) :
    populateFileset b s = none := by
  rw [populateFileset, h]
  rfl

namespace LevelDBDataStore

theorem ofString_fullname {path : Bulk} (h : path ≠ []) (name : Bulk) :
    Directory.ofString slash (fullname name path) = dataDirectory name path := by
  rw [fullname, if_pos h, dataDirectory, if_neg h, List.append_assoc]
  exact Directory.ofString_append_sep slash h name

theorem openIn_eq_some_iff {F : FileSystem UInt8 dots} {fs fs' : F.State} {directory : Bulk}
    {opened : OpenedAt} : openIn F fs directory = (fs', some opened) ↔
      F.mkdir fs (Directory.ofString slash directory) = fs' ∧
        F.has fs' (Directory.ofString slash directory) ∧
          { directory := directory, files := [] } = opened := by
  rw [openIn, Prod.mk.injEq]
  constructor
  · rintro ⟨rfl, h⟩
    split_ifs at h with hhas
    exact ⟨rfl, hhas, Option.some.inj h⟩
  · rintro ⟨rfl, hhas, rfl⟩
    exact ⟨rfl, if_pos hhas⟩

theorem makePath_of_ne_nil {path : Bulk} (h : path ≠ []) : makePath path = mkdirs path := if_pos h

end LevelDBDataStore

namespace BerkeleyDBDataStore

theorem length_le_fullpath (name path : Bulk) : name.length ≤ (fullpath name path).length := by
  rw [fullpath, List.length_append]
  exact Nat.le_add_left _ _

theorem fullpath_ne_nil (name : Bulk) {path : Bulk} (h : path ≠ []) : fullpath name path ≠ [] := by
  rw [fullpath]
  split_ifs
  · simp [h]
  · simp

theorem ofString_fullpath {path : Bulk} (h : path ≠ []) (name : Bulk) :
    Directory.ofString slash (fullpath name path) = dataDirectory name path := by
  rw [dataDirectory, if_neg h]
  exact ofString_withLastSlash_append h name

theorem openDatabase_of_ne_nil (F : FileSystem UInt8 dots) (fs : F.State) (s : StoreFields)
    (name : CString) {path : CString} (h : path.1 ≠ []) :
    (openDatabase F fs s name path).2 = (mkdirs (fullpath name.1 path.1)).map fun calls =>
      openIn F (F.mkdirAll fs (madeBy calls)) (fullpath name.1 path.1) name.1 := by
  rw [openDatabase, withLastSlash_of_ne_nil h]
  rfl

theorem openIn_eq_some_iff {F : FileSystem UInt8 dots} {fs fs' : F.State} {home name : Bulk}
    {opened : OpenedAt} : openIn F fs home name = (fs', some opened) ↔
      fs = fs' ∧ F.has fs (Directory.ofString slash home) ∧
        createsFile F fs (databaseFile home name) ∧
          { directory := home, files := [databaseFile home name] } = opened := by
  rw [openIn, Prod.mk.injEq]
  refine and_congr_right fun _ => ?_
  constructor
  · intro h
    split_ifs at h with hopen
    exact ⟨hopen.1, hopen.2, Option.some.inj h⟩
  · rintro ⟨hhas, hcreates, rfl⟩
    exact if_pos ⟨hhas, hcreates⟩

/-- The file is below the directory of the environment exactly when its name is not absolute and
does not lead back. -/
theorem fileIn_databaseFile_iff (home name : Bulk) (hlength : name.length ≤ home.length) :
    FileIn home (databaseFile home name) ↔
      name.head? ≠ some slash ∧ [46, 46] ∉ (Directory.ofString slash name).components := by
  rw [databaseFile]
  by_cases habsolute : name.head? = some slash
  · rw [if_pos habsolute]
    refine iff_of_false ?_ fun h => h.1 habsolute
    rintro ⟨rel, heq, -⟩
    have hlonger := congrArg List.length heq
    rw [List.length_append, List.length_cons] at hlonger
    omega
  · rw [if_neg habsolute, and_iff_right habsolute]
    constructor
    · rintro ⟨rel, heq, hrel⟩
      rw [List.append_cancel_left_eq, List.cons.injEq] at heq
      rwa [heq.2]
    · intro h
      exact ⟨name, rfl, h⟩

/-- What `Db::open` needs for a file in a directory that is there. -/
theorem createsFile_iff {F : FileSystem UInt8 dots} {fs : F.State} {home name : Bulk}
    (hhome : home ≠ []) (hrelative : name.head? ≠ some slash) {c : UInt8}
    (hc : name.getLast? = some c) (hslash : c ≠ slash) :
    createsFile F fs (databaseFile home name) ↔
      (∀ c ∈ (Directory.ofString slash name).components.getLast?, c ∉ dots) ∧
        F.has fs ((Directory.ofString slash home).join (Directory.ofString slash name)).parent := by
  have hne : (Directory.ofString slash name).components ≠ [] :=
    Directory.components_ne_nil slash (List.mem_of_getLast? hc) hslash
  have hfile : (home ++ slash :: name).getLast? = some c := by
    rw [List.getLast?_append_of_ne_nil _ (List.cons_ne_nil _ _), List.getLast?_cons, hc]
    rfl
  rw [createsFile, databaseFile, if_neg hrelative, decide_eq_true_iff, hfile,
    Directory.ofString_append_sep slash hhome, Directory.join,
    List.getLast?_append_of_ne_nil _ hne, and_iff_right (by simpa using hslash)]
  simp only [List.contains_iff_mem]

end BerkeleyDBDataStore

section Agree

variable {s : StoreFields} {name path : CString}

theorem PathsAgreeOn.path_ne_nil {F : FileSystem UInt8 dots} {fs : F.State} {b : FileBackend}
    (h : PathsAgreeOn F fs b s name path) : path.1 ≠ [] := by
  obtain ⟨fs', opened, fileset, -, hfileset, -⟩ := h
  intro hnil
  have hnone : b.createAndPopulateFileset (b.openDatabase F fs s name path).1 = none := by
    cases b with
    | levelDB => exact populateFileset_of_nil .levelDB hnil
    | berkeleyDB => exact populateFileset_of_nil .berkeleyDB hnil
  rw [hnone] at hfileset
  cases hfileset

/-- LevelDB makes the directory on every file system. -/
theorem LevelDBDataStore.pathsAgreeOn (F : FileSystem UInt8 dots) (fs : F.State)
    (hne : path.1 ≠ []) (h : FindsDirectory name.1 path.1) :
    PathsAgreeOn F fs .levelDB s name path := by
  obtain ⟨calls, hcalls⟩ := (mkdirs_isSome_iff hne).2 h.length
  obtain ⟨fileset, hfileset, hdirectory⟩ :=
    populateFileset_spec .levelDB { s with name := name, path := path } hne
  have hparent : F.has (F.mkdirAll fs (madeBy calls)) (dataDirectory name.1 path.1).parent := by
    rw [dataDirectory, if_neg hne]
    by_cases hname : (Directory.ofString slash name.1).components = []
    · rw [Directory.join, hname, List.append_nil]
      exact has_parent_mkdirs hne hcalls
    · rw [Directory.parent_join hname]
      exact FileSystem.has_of_everywhere
        (has_mkdirs hne hcalls (h.made.resolve_left hname)) h.dots
  have hhas := F.has_mkdir_self hparent
  refine ⟨_, { directory := fullname name.1 path.1, files := [] }, fileset, ?_, hfileset,
    ofString_fullname hne name.1, hhas, by simp, hdirectory⟩
  rw [FileBackend.openDatabase, openDatabase, makePath_of_ne_nil hne, hcalls, Option.map_some,
    Option.some.injEq, openIn_eq_some_iff, ofString_fullname hne]
  exact ⟨rfl, hhas, rfl⟩

/-- BerkeleyDB finds the directory on every file system and makes its file there. -/
theorem BerkeleyDBDataStore.pathsAgreeOn (F : FileSystem UInt8 dots) (fs : F.State)
    (hne : path.1 ≠ []) (h : FindsDirectory name.1 path.1) :
    PathsAgreeOn F fs .berkeleyDB s name path := by
  have hhome := fullpath_ne_nil name.1 hne
  obtain ⟨calls, hcalls⟩ := (mkdirs_isSome_iff hhome).2 (h.length.trans (by decide))
  obtain ⟨fileset, hfileset, hdirectory⟩ :=
    populateFileset_spec .berkeleyDB { s with name := name, path := path } hne
  obtain ⟨c, hc, hslash⟩ := h.file
  have hname : (Directory.ofString slash name.1).components ≠ [] :=
    Directory.components_ne_nil slash (List.mem_of_getLast? hc) hslash
  have hhas : F.has (F.mkdirAll fs (madeBy calls)) _ := has_mkdirs_of_fits hhome hcalls h.length
  have hback : [46, 46] ∉ (Directory.ofString slash name.1).components := by
    rw [← List.dropLast_append_getLast hname, List.mem_append, List.mem_singleton]
    rintro (hmem | heq)
    · exact absurd (h.dot _ hmem) (by decide)
    · exact h.last _ (List.getLast?_eq_some_getLast hname) (by rw [← heq]; decide)
  have hcreates : createsFile F (F.mkdirAll fs (madeBy calls))
      (databaseFile (fullpath name.1 path.1) name.1) := by
    rw [createsFile_iff hhome h.relative hc hslash, Directory.parent_join hname]
    refine ⟨h.last, FileSystem.has_of_everywhere hhas fun c hc => ?_⟩
    rw [h.dot c hc]
    decide
  refine ⟨F.mkdirAll fs (madeBy calls),
    ⟨fullpath name.1 path.1, [databaseFile (fullpath name.1 path.1) name.1]⟩, fileset, ?_, hfileset,
    ofString_fullpath hne name.1, ?_, ?_, hdirectory⟩
  · rw [FileBackend.openDatabase, openDatabase_of_ne_nil F fs s name hne, hcalls, Option.map_some,
      Option.some.injEq, openIn_eq_some_iff]
    exact ⟨rfl, hhas, hcreates, rfl⟩
  · rwa [← ofString_fullpath hne name.1]
  · intro file hmem
    rw [List.mem_singleton.1 hmem]
    exact (fileIn_databaseFile_iff _ _ (length_le_fullpath name.1 path.1)).2 ⟨h.relative, hback⟩

end Agree

section Needed

/-- What is there on a file system where a directory has one name is among the calls. -/
theorem mem_of_has_atOrAbove {ds : List (Directory UInt8)} {d e : Directory UInt8} {c : Bulk}
    (hhas : (FileSystem.named dots).has
      ((FileSystem.named dots).mkdirAll (FileSystem.nothingMade dots) ds) e)
    (hde : d.AtOrAbove e) (hlast : d.components.getLast? = some c) (hc : c ∉ dots) : d ∈ ds :=
  FileSystem.mem_of_named_has (FileSystem.has_of_atOrAbove hhas hde) hlast hc

/-- The directories between two that are there have names that every directory has, if no call
is for one of them. -/
theorem mem_dots_of_has {ds : List (Directory UInt8)} {d : Directory UInt8} {cs : List Bulk}
    (hhas : (FileSystem.named dots).has
      ((FileSystem.named dots).mkdirAll (FileSystem.nothingMade dots) ds)
      { d with components := d.components ++ cs })
    (hdepth : ∀ e ∈ ds, e.depth ≤ d.depth ∨ d.depth + cs.length < e.depth) :
    ∀ c ∈ cs, c ∈ dots := by
  intro c hc
  by_contra hdots
  obtain ⟨front, back, rfl⟩ := List.append_of_mem hc
  have hmem := mem_of_has_atOrAbove (d := d.join { d with components := front ++ [c] }) hhas
    ⟨rfl, ?_⟩ ?_ hdots
  · have hbetween := hdepth _ hmem
    simp only [Directory.depth, Directory.join, List.length_append, List.length_cons,
      List.length_nil] at hbetween
    omega
  · simp [Directory.join]
  · simp [Directory.join, ← List.append_assoc]

variable {s : StoreFields} {name path : CString}

theorem LevelDBDataStore.findsDirectory (h : PathsAgreeOn (FileSystem.named dots)
    (FileSystem.nothingMade dots) .levelDB s name path) : FindsDirectory name.1 path.1 := by
  have hne := h.path_ne_nil
  obtain ⟨fs', opened, -, hopen, -⟩ := h
  rw [FileBackend.openDatabase, openDatabase, makePath_of_ne_nil hne] at hopen
  obtain ⟨calls, hcalls, hopen⟩ := Option.map_eq_some_iff.1 hopen
  obtain ⟨rfl, hhas, -⟩ := openIn_eq_some_iff.1 hopen
  rw [ofString_fullname hne, dataDirectory, if_neg hne, ← FileSystem.mkdirAll_concat] at hhas
  have hdepth := fun d => depth_le_of_mem_madeBy (d := d) hne hcalls
  refine ⟨((mkdirs_eq_some_iff hne).1 hcalls).1, ?_, ?_⟩
  · refine or_iff_not_imp_left.2 fun hname => ?_
    by_contra hcut
    have hpath : (Directory.ofString slash path.1).components ≠ [] := by
      refine Directory.components_ne_nil slash (List.getLast_mem hne) fun hlast => hcut ?_
      exact Or.inr (Or.inl (by rw [List.getLast?_eq_some_getLast hne, hlast]))
    have hlast := List.getLast?_eq_some_getLast hpath
    have hmem := mem_of_has_atOrAbove (d := Directory.ofString slash path.1) hhas
      ⟨rfl, List.prefix_append _ _⟩ hlast fun hdots => hcut (Or.inr (Or.inr ⟨_, hdots, hlast⟩))
    rcases List.mem_append.1 hmem with hmem | hmem
    · exact hcut (fitsBuffer_of_mem_madeBy hne hcalls hmem)
    · have heq := congrArg Directory.components (List.mem_singleton.1 hmem)
      rw [Directory.join, List.self_eq_append_right] at heq
      exact hname heq
  · by_cases hname : (Directory.ofString slash name.1).components = []
    · simp [hname]
    · have hpos := List.length_pos_iff.2 hname
      have hparent := (FileSystem.named dots).has_parent hhas
      rw [Directory.parent_join hname] at hparent
      refine mem_dots_of_has hparent fun e he => ?_
      rcases List.mem_append.1 he with he | he
      · exact Or.inl (hdepth e he)
      · right
        rw [List.mem_singleton.1 he, Directory.depth, Directory.depth, Directory.join,
          List.length_append, List.length_dropLast]
        omega

theorem BerkeleyDBDataStore.exists_getLast_of_createsFile {F : FileSystem UInt8 dots} {fs : F.State}
    {home name : Bulk} (h : createsFile F fs (databaseFile home name))
    (hrelative : name.head? ≠ some slash) : ∃ c, name.getLast? = some c ∧ c ≠ slash := by
  rw [databaseFile, if_neg hrelative, createsFile, decide_eq_true_iff] at h
  have hlast := h.1
  rw [List.getLast?_append_of_ne_nil _ (List.cons_ne_nil _ _), List.getLast?_cons] at hlast
  cases hname : name.getLast? with
  | none => simp [hname] at hlast
  | some c => exact ⟨c, rfl, by simpa [hname] using hlast⟩

theorem BerkeleyDBDataStore.findsDirectory (h : PathsAgreeOn (FileSystem.named dots)
    (FileSystem.nothingMade dots) .berkeleyDB s name path) : FindsDirectory name.1 path.1 := by
  have hne := h.path_ne_nil
  have hhome := fullpath_ne_nil name.1 hne
  obtain ⟨fs', opened, -, hopen, -, -, -, hfiles, -⟩ := h
  rw [FileBackend.openDatabase, openDatabase_of_ne_nil _ _ s name hne] at hopen
  obtain ⟨calls, hcalls, hopen⟩ := Option.map_eq_some_iff.1 hopen
  obtain ⟨rfl, hhas, hcreates, rfl⟩ := openIn_eq_some_iff.1 hopen
  obtain ⟨hrelative, hback⟩ := (fileIn_databaseFile_iff _ _
    (length_le_fullpath name.1 path.1)).1 (hfiles _ List.mem_cons_self)
  obtain ⟨c, hc, hslash⟩ := exists_getLast_of_createsFile hcreates hrelative
  obtain ⟨hlast, hparent⟩ := (createsFile_iff hhome hrelative hc hslash).1 hcreates
  have hname : (Directory.ofString slash name.1).components ≠ [] :=
    Directory.components_ne_nil slash (List.mem_of_getLast? hc) hslash
  refine ⟨?_, hrelative, ⟨c, hc, hslash⟩, ?_, hlast⟩
  · have hlastName := List.getLast?_eq_some_getLast hname
    have hlastHome : (Directory.ofString slash (fullpath name.1 path.1)).components.getLast? =
        some ((Directory.ofString slash name.1).components.getLast hname) := by
      rw [ofString_fullpath hne, dataDirectory, if_neg hne, Directory.join,
        List.getLast?_append_of_ne_nil _ hname, hlastName]
    have hmem := mem_of_has_atOrAbove hhas ⟨rfl, List.prefix_rfl⟩ hlastHome (hlast _ hlastName)
    rcases fitsBuffer_of_mem_madeBy hhome hcalls hmem with hfits | hend | ⟨dot, hdot, hend⟩
    · exact hfits
    · rw [fullpath, List.getLast?_append_of_ne_nil _ (List.ne_nil_of_mem (List.mem_of_getLast? hc)),
        hc, Option.some.injEq] at hend
      exact absurd hend hslash
    · rw [hlastHome] at hend
      exact absurd hdot (hlast dot (hlastName.trans hend))
  · rw [Directory.parent_join hname] at hparent
    intro c hmem
    have hdots := mem_dots_of_has hparent
      (fun e he => Or.inl (depth_le_of_mem_madeBy hhome hcalls he)) c hmem
    rcases List.mem_cons.1 hdots with hdot | hdotdot
    · exact hdot
    · rw [List.mem_singleton.1 hdotdot] at hmem
      exact absurd (List.mem_of_mem_dropLast hmem) hback

end Needed

/-- A backend opens a database in `path/name` and describes that directory to a migration,
without an access outside a string and whatever the file system has been, exactly when the path
is not empty, `mkdirs` makes the directories that the library needs and the name does not lead
further. -/
theorem pathsAgree_iff (b : FileBackend) (s : StoreFields) (name path : CString) :
    PathsAgree b s name path ↔ path.1 ≠ [] ∧ b.FindsDirectory name.1 path.1 := by
  constructor
  · intro h
    have hnamed := h (FileSystem.named dots) (FileSystem.nothingMade dots)
    refine ⟨hnamed.path_ne_nil, ?_⟩
    cases b with
    | levelDB => exact LevelDBDataStore.findsDirectory hnamed
    | berkeleyDB => exact BerkeleyDBDataStore.findsDirectory hnamed
  · rintro ⟨hne, hfinds⟩ F fs
    cases b with
    | levelDB => exact LevelDBDataStore.pathsAgreeOn F fs hne hfinds
    | berkeleyDB => exact BerkeleyDBDataStore.pathsAgreeOn F fs hne hfinds

theorem zero_notMem_nil : (0 : UInt8) ∉ ([] : Bulk) := List.not_mem_nil

theorem zero_notMem_db : (0 : UInt8) ∉ [100, 98] := by decide

/-- The name `db`. -/
def exampleName : CString := ⟨[100, 98], zero_notMem_db⟩

/-- The empty path. -/
def emptyPath : CString := ⟨[], zero_notMem_nil⟩

/-- A datastore before it is opened. -/
def newStore : StoreFields :=
  { name := emptyPath, path := emptyPath, compFunName := [], noOverwrite := false }

/-- With an empty path, `openDatabase` of the BerkeleyDB backend and the filesets of both
backends read a character that the path does not have. -/
theorem not_pathsAgree_emptyPath :
    ((FileBackend.levelDB.openDatabase (FileSystem.named dots) (FileSystem.nothingMade dots)
        newStore exampleName emptyPath).2.map Prod.snd =
      some (some { directory := [100, 98], files := [] })) ∧
      FileBackend.levelDB.createAndPopulateFileset
        { newStore with name := exampleName, path := emptyPath } = none ∧
      (FileBackend.berkeleyDB.openDatabase (FileSystem.named dots) (FileSystem.nothingMade dots)
        newStore exampleName emptyPath).2 = none ∧
      ∀ b, ¬ PathsAgree b newStore exampleName emptyPath :=
  ⟨by decide, rfl, rfl, fun _ h =>
    (h (FileSystem.named dots) (FileSystem.nothingMade dots)).path_ne_nil rfl⟩

end Sdskv
