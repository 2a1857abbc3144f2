import Sdskv.Common.Types
import Sdskv.Json.Value
import Sdskv.Provider.Registration

/-!
# The configuration of a provider

A provider is configured by a JSON document with an array of comparators and an array of
databases. `validate_and_complete_config` checks the document when the provider is
registered and fills in the members that are missing; `check_provider_config` checks the
result once more, separately written, when the provider is populated.

Both go through their arrays by reference, so an entry that is completed is completed in
the document. A check that is not passed is a return with `SDSKV_ERR_CONFIG`, and an access
by name to a value that is neither an object nor null is an exception. The first function
tests that an entry is an object for the comparators only.
-/

namespace Sdskv

open Json Transition

/-- The checks that a configuration may fail. -/
inductive ConfigError
  | configNotObject
  | comparatorsNotArray
  | comparatorNotObject
  | comparatorNameMissing
  | comparatorNameNotString
  | comparatorNameEmpty
  | comparatorLibraryNotString
  | comparatorRepeated (name : Bulk)
  | databasesNotArray
  | databaseNotObject
  | databaseNameMissing
  | databaseNameNotString
  | databaseNameEmpty
  | databaseTypeMissing
  | databaseTypeNotString
  | databaseTypeEmpty
  | databasePathNotString
  | databaseComparatorNotString
  | databaseNoOverwriteNotBool
  | databaseRepeated (name : Bulk)
  deriving DecidableEq, Repr

/-- Why a check of a configuration does not succeed: an exception, or a failed check, which
is answered with `SDSKV_ERR_CONFIG`. -/
inductive ConfigFailure
  | raises (error : LogicError)
  | rejects (error : ConfigError)
  deriving DecidableEq, Repr

/-- An access by name. -/
def access {α : Type} (r : Except LogicError α) : Except ConfigFailure α :=
  r.mapError .raises

/-- The return value of a check, unless it raises an exception. -/
def configRet {α : Type} : Except ConfigFailure α → Except LogicError SdskvReturn
  | .ok _ => .ok .success
  | .error (.rejects _) => .ok .errConfig
  | .error (.raises e) => .error e

section Members

variable (v : Value Bulk) (key : String)

/-- The member has to pass a test of its type. -/
def expectMember (test : Value Bulk → Bool) (error : ConfigError) :
    Except ConfigFailure Unit := do
  if test (← access (v.get key)) then .ok () else .error (.rejects error)

/-- The member has to be there and to be a string. -/
def requireString (missing notString : ConfigError) : Except ConfigFailure Bulk := do
  if ← access (v.isMember key) then
    match ← access (v.get key) with
    | .string s => .ok s
    | _ => .error (.rejects notString)
  else .error (.rejects missing)

/-- The member has to be there and to be a string that is not empty. -/
def requireText (missing notString empty : ConfigError) : Except ConfigFailure Bulk := do
  let s ← requireString v key missing notString
  if s = [] then .error (.rejects empty) else .ok s

/-- A member that is not there is set to a default. -/
def withDefault (default : Value Bulk) : Except ConfigFailure (Value Bulk) := do
  if ← access (v.isMember key) then .ok v else access (v.set key default)

end Members

section Validate

/-- The body of the loop over the comparators up to the test of the name: the name and the
completed entry. -/
def completeComparator (it : Value Bulk) : Except ConfigFailure (Bulk × Value Bulk) := do
  if it.isObject then
    let name ← requireText it "name" .comparatorNameMissing .comparatorNameNotString
      .comparatorNameEmpty
    let it ← withDefault it "library" (.string [])
    expectMember it "library" Value.isString .comparatorLibraryNotString
    .ok (name, it)
  else .error (.rejects .comparatorNotObject)

/-- The body of the loop over the databases up to the test of the name. -/
def completeDatabase (db : Value Bulk) : Except ConfigFailure (Bulk × Value Bulk) := do
  let name ← requireText db "name" .databaseNameMissing .databaseNameNotString .databaseNameEmpty
  let _ ← requireText db "type" .databaseTypeMissing .databaseTypeNotString .databaseTypeEmpty
  let db ← withDefault db "path" (.string [])
  let db ← withDefault db "comparator" (.string [])
  let db ← withDefault db "no_overwrite" (.boolean false)
  expectMember db "path" Value.isString .databasePathNotString
  expectMember db "comparator" Value.isString .databaseComparatorNotString
  expectMember db "no_overwrite" Value.isBool .databaseNoOverwriteNotBool
  .ok (name, db)

/-- A loop over the entries of an array with a set of the names that it has met. -/
def completeEntries (complete : Value Bulk → Except ConfigFailure (Bulk × Value Bulk))
    (repeated : Bulk → ConfigError) :
    List Bulk → List (Value Bulk) → Except ConfigFailure (List (Value Bulk))
  | _, [] => .ok []
  | names, it :: items => do
      let (name, it) ← complete it
      if name ∈ names then .error (.rejects (repeated name))
      else
        let items ← completeEntries complete repeated (name :: names) items
        .ok (it :: items)

/-- The member that holds an array, which is added when it is not there. -/
def arrayMember (config : Value Bulk) (key : String) (notArray : ConfigError) :
    Except ConfigFailure (Value Bulk) := do
  if ← access (config.isMember key) then
    expectMember config key Value.isArray notArray
    .ok config
  else access (config.set key (.array []))

/-- One of the two arrays of the configuration with its entries. -/
def completeArray (config : Value Bulk) (key : String) (notArray : ConfigError)
    (complete : Value Bulk → Except ConfigFailure (Bulk × Value Bulk))
    (repeated : Bulk → ConfigError) : Except ConfigFailure (Value Bulk) := do
  let config ← arrayMember config key notArray
  let entries ← access (config.get key)
  let items ← completeEntries complete repeated [] entries.items
  -- the loop has changed the entries in place
  access (config.set key (.array items))

/-- `validate_and_complete_config`. -/
def validateAndCompleteConfig (config : Value Bulk) : Except ConfigFailure (Value Bulk) := do
  let config := if config.isNull then .object [] else config
  let config ← completeArray config "comparators" .comparatorsNotArray completeComparator
    .comparatorRepeated
  completeArray config "databases" .databasesNotArray completeDatabase .databaseRepeated

end Validate

section Check

/-- The body of the loop of `check_provider_config` over the comparators. -/
def checkComparator (it : Value Bulk) : Except ConfigFailure (Value Bulk) := do
  if it.isObject then
    let _ ← requireString it "name" .comparatorNameMissing .comparatorNameNotString
    let it ← withDefault it "library" (.string [])
    expectMember it "library" Value.isString .comparatorLibraryNotString
    .ok it
  else .error (.rejects .comparatorNotObject)

/-- The body of the loop of `check_provider_config` over the databases. -/
def checkDatabase (it : Value Bulk) : Except ConfigFailure (Value Bulk) := do
  if it.isObject then
    let _ ← requireString it "name" .databaseNameMissing .databaseNameNotString
    let _ ← requireString it "type" .databaseTypeMissing .databaseTypeNotString
    let it ← withDefault it "path" (.string [])
    expectMember it "path" Value.isString .databasePathNotString
    let it ← withDefault it "no_overwrite" (.boolean false)
    expectMember it "no_overwrite" Value.isBool .databaseNoOverwriteNotBool
    let it ← withDefault it "comparator" (.string [])
    expectMember it "comparator" Value.isString .databaseComparatorNotString
    .ok it
  else .error (.rejects .databaseNotObject)

/-- One of the two arrays, if it is there. -/
def checkArray (cfg : Value Bulk) (key : String) (notArray : ConfigError)
    (check : Value Bulk → Except ConfigFailure (Value Bulk)) :
    Except ConfigFailure (Value Bulk) := do
  if ← access (cfg.isMember key) then
    expectMember cfg key Value.isArray notArray
    let entries ← access (cfg.get key)
    let items ← entries.items.mapM check
    access (cfg.set key (.array items))
  else .ok cfg

/-- `check_provider_config`. -/
def checkProviderConfig (cfg : Value Bulk) : Except ConfigFailure (Value Bulk) := do
  if cfg.isNull then .ok cfg
  else if cfg.isObject then
    let cfg ← checkArray cfg "comparators" .comparatorsNotArray checkComparator
    checkArray cfg "databases" .databasesNotArray checkDatabase
  else .error (.rejects .configNotObject)

end Check

section Schema

variable (v : Value Bulk) (key : String)

/-- The member is a string. -/
def HasString : Prop := ∃ s, v.find? key = some (.string s)

/-- The member is a string that is not empty. -/
def HasText : Prop := ∃ s, v.find? key = some (.string s) ∧ s ≠ []

/-- The member passes a test, if it is there. -/
def Optional (test : Value Bulk → Bool) : Prop := ∀ x, v.find? key = some x → test x = true

/-- The name of an entry. -/
def entryName : Bulk :=
  match v.find? "name" with
  | some (.string name) => name
  | _ => []

/-- A comparator as the documentation of the format has it, with the optional member filled
in. -/
structure CompleteComparator : Prop where
  isObject : v.isObject = true
  name : HasText v "name"
  library : HasString v "library"

/-- A database as the documentation of the format has it, with the optional members filled
in. -/
structure CompleteDatabase : Prop where
  isObject : v.isObject = true
  name : HasText v "name"
  type : HasText v "type"
  path : HasString v "path"
  comparator : HasString v "comparator"
  noOverwrite : ∃ b, v.find? "no_overwrite" = some (.boolean b)

/-- A comparator with the members that are required. -/
structure AcceptableComparator : Prop where
  isObject : v.isObject = true
  name : HasText v "name"
  library : Optional v "library" Value.isString

/-- A database with the members that are required. -/
structure AcceptableDatabase : Prop where
  isObject : v.isObject = true
  name : HasText v "name"
  type : HasText v "type"
  path : Optional v "path" Value.isString
  comparator : Optional v "comparator" Value.isString
  noOverwrite : Optional v "no_overwrite" Value.isBool

/-- The entries of an array are as they should be, and their names differ. -/
structure Entries (P : Value Bulk → Prop) (items : List (Value Bulk)) : Prop where
  entry : ∀ it ∈ items, P it
  nodup : (items.map entryName).Nodup

/-- The documented schema: two arrays of complete entries. -/
structure ConfigSchema : Prop where
  isObject : v.isObject = true
  comparators : ∃ items, v.find? "comparators" = some (.array items) ∧
    Entries CompleteComparator items
  databases : ∃ items, v.find? "databases" = some (.array items) ∧
    Entries CompleteDatabase items

end Schema

section Members

variable {v : Value Bulk} {key : String}

theorem entryName_of_find? {name : Bulk} (h : v.find? "name" = some (.string name)) :
    entryName v = name := by
  rw [entryName, h]

theorem entryName_of_hasText (h : HasText v "name") :
    v.find? "name" = some (.string (entryName v)) ∧ entryName v ≠ [] := by
  obtain ⟨name, hname, hne⟩ := h
  rw [entryName_of_find? hname]
  exact ⟨hname, hne⟩

section Object

variable (hv : v.isObject = true)
include hv

theorem requireString_of_isObject (key : String) (missing notString : ConfigError) :
    requireString v key missing notString =
      match v.find? key with
      | none => .error (.rejects missing)
      | some (.string s) => .ok s
      | some _ => .error (.rejects notString) := by
  rw [requireString, Value.isMember_of_isObject hv, Value.get_of_isObject hv]
  cases h : v.find? key with
  | none => rfl
  | some x => cases x <;> rfl

theorem expectMember_of_isObject (key : String) (test : Value Bulk → Bool)
    (error : ConfigError) :
    expectMember v key test error =
      if test ((v.find? key).getD .null) then .ok () else .error (.rejects error) := by
  rw [expectMember, Value.get_of_isObject hv]
  rfl

/-- A default is added when the member is not there, and the others are kept. -/
theorem withDefault_of_isObject (key : String) (default : Value Bulk) :
    ∃ v', withDefault v key default = .ok v' ∧ v'.isObject = true ∧
      ∀ key', v'.find? key' =
        if key' = key then some ((v.find? key).getD default) else v.find? key' := by
  rw [withDefault, Value.isMember_of_isObject hv]
  cases h : v.find? key with
  | none =>
      obtain ⟨v', hset, hobject, hfind⟩ := Value.set_of_isObject hv key default
      refine ⟨v', ?_, hobject, hfind⟩
      rw [hset]
      rfl
  | some x =>
      refine ⟨v, rfl, hv, ?_⟩
      intro key'
      split_ifs with hkey
      · rw [hkey, h]
        rfl
      · rfl

end Object

/-- What is required of a value that is not an object is not there. -/
theorem requireString_of_not_isObject (hv : v.isObject = false) (key : String)
    (missing notString : ConfigError) :
    requireString v key missing notString =
      .error (if v.isNull then .rejects missing else .raises .requiresObject) := by
  cases v with
  | object ms => cases hv
  | _ => rfl

theorem requireString_eq_ok_iff {missing notString : ConfigError} {s : Bulk} :
    requireString v key missing notString = .ok s ↔ v.find? key = some (.string s) := by
  by_cases hv : v.isObject = true
  · rw [requireString_of_isObject hv]
    cases h : v.find? key with
    | none => simp
    | some x => cases x <;> simp
  · rw [requireString_of_not_isObject (by simpa using hv)]
    constructor
    · intro h
      cases h
    · intro h
      exact absurd (Value.isObject_of_find? h) hv

theorem requireText_eq_ok_iff {missing notString empty : ConfigError} {s : Bulk} :
    requireText v key missing notString empty = .ok s ↔
      v.find? key = some (.string s) ∧ s ≠ [] := by
  rw [requireText, bind_eq_ok_iff]
  simp only [requireString_eq_ok_iff]
  constructor
  · rintro ⟨s', hfind, hne⟩
    split_ifs at hne with hnil
    cases hne
    exact ⟨hfind, hnil⟩
  · rintro ⟨hfind, hne⟩
    exact ⟨s, hfind, if_neg hne⟩

end Members

section Complete

/-- What a function that completes an entry does: it accepts some entries, makes them
complete under their own name, and leaves a complete entry as it is. -/
structure Completes (complete : Value Bulk → Except ConfigFailure (Bulk × Value Bulk))
    (Acceptable Complete : Value Bulk → Prop) : Prop where
  acceptable : ∀ v r, complete v = .ok r → Acceptable v
  completed : ∀ v, Acceptable v → ∃ v', complete v = .ok (entryName v, v') ∧ Complete v' ∧
    entryName v' = entryName v
  fixed : ∀ v, Complete v → complete v = .ok (entryName v, v)

variable {v : Value Bulk}

theorem entryName_congr {v' : Value Bulk} (h : v'.find? "name" = v.find? "name") :
    entryName v' = entryName v := by
  rw [entryName, entryName, h]

theorem withDefault_of_find? {key : String} {x : Value Bulk} (h : v.find? key = some x)
    (default : Value Bulk) : withDefault v key default = .ok v := by
  rw [withDefault, Value.isMember_of_isObject (Value.isObject_of_find? h), h]
  rfl

theorem expectMember_of_find? {key : String} {x : Value Bulk} {test : Value Bulk → Bool}
    (h : v.find? key = some x) (htest : test x = true) (error : ConfigError) :
    expectMember v key test error = .ok () := by
  rw [expectMember_of_isObject (Value.isObject_of_find? h), h, Option.getD_some, if_pos htest]

/-- A member with a default passes a test that its default passes exactly when it passes the
test if it is there. -/
theorem optional_iff {key : String} {test : Value Bulk → Bool} {d : Value Bulk}
    (hd : test d = true) :
    test ((v.find? key).getD d) = true ↔ Optional v key test := by
  cases h : v.find? key with
  | none => simp [Optional, h, hd]
  | some x => simp [Optional, h]

/-- A comparator with a name: its library is filled in and tested. -/
theorem completeComparator_of_name {name : Bulk} (hname : v.find? "name" = some (.string name))
    (hne : name ≠ []) :
    ∃ v', (∀ key, key ≠ "library" → v'.find? key = v.find? key) ∧
      v'.find? "library" = some ((v.find? "library").getD (.string [])) ∧
      completeComparator v =
        if ((v.find? "library").getD (.string [])).isString then .ok (name, v')
        else .error (.rejects .comparatorLibraryNotString) := by
  have hv := Value.isObject_of_find? hname
  obtain ⟨v', hdefault, hv', hfind⟩ := withDefault_of_isObject hv "library" (.string [])
  refine ⟨v', ?_, ?_, ?_⟩
  · intro key hkey
    rw [hfind, if_neg hkey]
  · rw [hfind, if_pos rfl]
  · rw [completeComparator, if_pos hv, requireText_eq_ok_iff.2 ⟨hname, hne⟩]
    simp only [ok_bind, hdefault, expectMember_of_isObject hv', hfind, if_true, Option.getD_some]
    split_ifs <;> rfl

theorem completeComparator_completes :
    Completes completeComparator AcceptableComparator CompleteComparator where
  acceptable v r h := by
    have hv : v.isObject = true := by
      by_contra hv
      rw [completeComparator, if_neg hv] at h
      cases h
    have hok := h
    rw [completeComparator, if_pos hv] at hok
    obtain ⟨name, htext, -⟩ := bind_eq_ok_iff.1 hok
    obtain ⟨hname, hne⟩ := requireText_eq_ok_iff.1 htext
    refine ⟨hv, ⟨name, hname, hne⟩, ?_⟩
    obtain ⟨v', -, -, hcomplete⟩ := completeComparator_of_name hname hne
    rw [hcomplete] at h
    split_ifs at h with hlibrary
    exact (optional_iff rfl).1 hlibrary
  completed v h := by
    obtain ⟨hname, hne⟩ := entryName_of_hasText h.name
    obtain ⟨v', hkeep, hlibrary, hcomplete⟩ := completeComparator_of_name hname hne
    have htest := (optional_iff (d := .string []) rfl).2 h.library
    rw [if_pos htest] at hcomplete
    have hname' := hkeep "name" (by decide)
    refine ⟨v', hcomplete, ?_, entryName_congr hname'⟩
    rw [hname] at hname'
    refine ⟨Value.isObject_of_find? hname', ⟨_, hname', hne⟩, ?_⟩
    obtain ⟨s, hs⟩ := Value.isString_iff.1 htest
    exact ⟨s, by rw [hlibrary, hs]⟩
  fixed v h := by
    obtain ⟨hname, hne⟩ := entryName_of_hasText h.name
    obtain ⟨library, hlibrary⟩ := h.library
    rw [completeComparator, if_pos h.isObject, requireText_eq_ok_iff.2 ⟨hname, hne⟩, ok_bind,
      withDefault_of_find? hlibrary, ok_bind, expectMember_of_find? hlibrary rfl]
    rfl

/-- The members of a database that have defaults. -/
def databaseDefaults : List String := ["path", "comparator", "no_overwrite"]

/-- A database with a name and a type: the other members are filled in and tested. -/
theorem completeDatabase_of_texts {name type : Bulk}
    (hname : v.find? "name" = some (.string name)) (hne : name ≠ [])
    (htype : v.find? "type" = some (.string type)) (hne' : type ≠ []) :
    ∃ v', (∀ key ∉ databaseDefaults, v'.find? key = v.find? key) ∧
      v'.find? "path" = some ((v.find? "path").getD (.string [])) ∧
      v'.find? "comparator" = some ((v.find? "comparator").getD (.string [])) ∧
      v'.find? "no_overwrite" = some ((v.find? "no_overwrite").getD (.boolean false)) ∧
      completeDatabase v =
        if ((v.find? "path").getD (.string [])).isString then
          if ((v.find? "comparator").getD (.string [])).isString then
            if ((v.find? "no_overwrite").getD (.boolean false)).isBool then .ok (name, v')
            else .error (.rejects .databaseNoOverwriteNotBool)
          else .error (.rejects .databaseComparatorNotString)
        else .error (.rejects .databasePathNotString) := by
  have hv := Value.isObject_of_find? hname
  obtain ⟨v₁, hdefault₁, hv₁, hfind₁⟩ := withDefault_of_isObject hv "path" (.string [])
  obtain ⟨v₂, hdefault₂, hv₂, hfind₂⟩ := withDefault_of_isObject hv₁ "comparator" (.string [])
  obtain ⟨v₃, hdefault₃, hv₃, hfind₃⟩ :=
    withDefault_of_isObject hv₂ "no_overwrite" (.boolean false)
  have hpath : v₃.find? "path" = some ((v.find? "path").getD (.string [])) := by
    simp [hfind₃, hfind₂, hfind₁]
  have hcomparator : v₃.find? "comparator" =
      some ((v.find? "comparator").getD (.string [])) := by
    simp [hfind₃, hfind₂, hfind₁]
  have hoverwrite : v₃.find? "no_overwrite" =
      some ((v.find? "no_overwrite").getD (.boolean false)) := by
    simp [hfind₃, hfind₂, hfind₁]
  refine ⟨v₃, ?_, hpath, hcomparator, hoverwrite, ?_⟩
  · intro key hkey
    simp only [databaseDefaults, List.mem_cons, List.not_mem_nil, or_false, not_or] at hkey
    rw [hfind₃, if_neg hkey.2.2, hfind₂, if_neg hkey.2.1, hfind₁, if_neg hkey.1]
  · rw [completeDatabase, requireText_eq_ok_iff.2 ⟨hname, hne⟩, ok_bind,
      requireText_eq_ok_iff.2 ⟨htype, hne'⟩]
    simp only [ok_bind, hdefault₁, hdefault₂, hdefault₃, expectMember_of_isObject hv₃, hpath,
      hcomparator, hoverwrite, Option.getD_some]
    split_ifs <;> rfl

theorem completeDatabase_completes :
    Completes completeDatabase AcceptableDatabase CompleteDatabase where
  acceptable v r h := by
    have hok := h
    rw [completeDatabase] at hok
    obtain ⟨name, htext, hok⟩ := bind_eq_ok_iff.1 hok
    obtain ⟨type, htext', -⟩ := bind_eq_ok_iff.1 hok
    obtain ⟨hname, hne⟩ := requireText_eq_ok_iff.1 htext
    obtain ⟨htype, hne'⟩ := requireText_eq_ok_iff.1 htext'
    obtain ⟨v', -, -, -, -, hcomplete⟩ := completeDatabase_of_texts hname hne htype hne'
    rw [hcomplete] at h
    split_ifs at h with hpath hcomparator hoverwrite
    exact ⟨Value.isObject_of_find? hname, ⟨name, hname, hne⟩, ⟨type, htype, hne'⟩,
      (optional_iff rfl).1 hpath, (optional_iff rfl).1 hcomparator,
      (optional_iff rfl).1 hoverwrite⟩
  completed v h := by
    obtain ⟨hname, hne⟩ := entryName_of_hasText h.name
    obtain ⟨type, htype, hne'⟩ := h.type
    obtain ⟨v', hkeep, hpath, hcomparator, hoverwrite, hcomplete⟩ :=
      completeDatabase_of_texts hname hne htype hne'
    have hpath' := (optional_iff (d := .string []) rfl).2 h.path
    have hcomparator' := (optional_iff (d := .string []) rfl).2 h.comparator
    have hoverwrite' := (optional_iff (d := .boolean false) rfl).2 h.noOverwrite
    rw [if_pos hpath', if_pos hcomparator', if_pos hoverwrite'] at hcomplete
    have hname' := hkeep "name" (by decide)
    have htype' := hkeep "type" (by decide)
    refine ⟨v', hcomplete, ?_, entryName_congr hname'⟩
    rw [hname] at hname'
    rw [htype] at htype'
    obtain ⟨path, hpath'⟩ := Value.isString_iff.1 hpath'
    obtain ⟨comparator, hcomparator'⟩ := Value.isString_iff.1 hcomparator'
    obtain ⟨noOverwrite, hoverwrite'⟩ := Value.isBool_iff.1 hoverwrite'
    exact ⟨Value.isObject_of_find? hname', ⟨_, hname', hne⟩, ⟨_, htype', hne'⟩,
      ⟨path, by rw [hpath, hpath']⟩, ⟨comparator, by rw [hcomparator, hcomparator']⟩,
      ⟨noOverwrite, by rw [hoverwrite, hoverwrite']⟩⟩
  fixed v h := by
    obtain ⟨hname, hne⟩ := entryName_of_hasText h.name
    obtain ⟨type, htype, hne'⟩ := h.type
    obtain ⟨path, hpath⟩ := h.path
    obtain ⟨comparator, hcomparator⟩ := h.comparator
    obtain ⟨noOverwrite, hoverwrite⟩ := h.noOverwrite
    rw [completeDatabase, requireText_eq_ok_iff.2 ⟨hname, hne⟩, ok_bind,
      requireText_eq_ok_iff.2 ⟨htype, hne'⟩, ok_bind, withDefault_of_find? hpath, ok_bind,
      withDefault_of_find? hcomparator, ok_bind, withDefault_of_find? hoverwrite, ok_bind,
      expectMember_of_find? hpath rfl, ok_bind, expectMember_of_find? hcomparator rfl, ok_bind,
      expectMember_of_find? hoverwrite rfl]
    rfl

end Complete

section Entries

variable {complete : Value Bulk → Except ConfigFailure (Bulk × Value Bulk)}
  {Acceptable Complete : Value Bulk → Prop} (h : Completes complete Acceptable Complete)
  {repeated : Bulk → ConfigError}

theorem completeEntries_cons {it it' : Value Bulk} {name : Bulk}
    (hit : complete it = .ok (name, it')) (names : List Bulk) (items : List (Value Bulk)) :
    completeEntries complete repeated names (it :: items) =
      if name ∈ names then .error (.rejects (repeated name))
      else completeEntries complete repeated (name :: names) items >>= fun items =>
        .ok (it' :: items) := by
  rw [completeEntries, hit]
  rfl

theorem entries_nil (P : Value Bulk → Prop) : Entries P [] :=
  ⟨fun _ hit => absurd hit List.not_mem_nil, List.nodup_nil⟩

theorem entries_cons_iff {P : Value Bulk → Prop} {it : Value Bulk} {items : List (Value Bulk)} :
    Entries P (it :: items) ↔
      P it ∧ Entries P items ∧ entryName it ∉ items.map entryName := by
  constructor
  · rintro ⟨hentry, hnodup⟩
    obtain ⟨hnot, hnodup⟩ := List.nodup_cons.1 hnodup
    obtain ⟨hit, hentry⟩ := List.forall_mem_cons.1 hentry
    exact ⟨hit, ⟨hentry, hnodup⟩, hnot⟩
  · rintro ⟨hit, ⟨hentry, hnodup⟩, hnot⟩
    exact ⟨List.forall_mem_cons.2 ⟨hit, hentry⟩, List.nodup_cons.2 ⟨hnot, hnodup⟩⟩

/-- The names of the entries behind the first are new to the loop after it. -/
theorem fresh_cons {names : List Bulk} {it : Value Bulk} {items : List (Value Bulk)}
    (hfresh : ∀ name ∈ names, name ∉ (it :: items).map entryName)
    (hnot : entryName it ∉ items.map entryName) :
    ∀ name ∈ entryName it :: names, name ∉ items.map entryName := by
  intro name hin hlater
  rcases List.mem_cons.1 hin with rfl | hin
  · exact hnot hlater
  · exact hfresh name hin (List.mem_cons_of_mem _ hlater)

include h

/-- Entries that pass the loop are acceptable, and complete afterwards. -/
theorem entries_of_completeEntries {names : List Bulk} {items items' : List (Value Bulk)}
    (hok : completeEntries complete repeated names items = .ok items') :
    Entries Acceptable items ∧ Entries Complete items' ∧
      items'.map entryName = items.map entryName ∧ ∀ name ∈ names, name ∉ items.map entryName := by
  induction items generalizing names items' with
  | nil =>
      cases hok
      exact ⟨entries_nil _, entries_nil _, rfl, fun _ _ => List.not_mem_nil⟩
  | cons it items ih =>
      obtain ⟨r, hit, -⟩ := bind_eq_ok_iff.1 hok
      have haccept := h.acceptable it r hit
      obtain ⟨it', hit, hcomplete, hname⟩ := h.completed it haccept
      rw [completeEntries_cons hit] at hok
      split_ifs at hok with hmem
      obtain ⟨rest, hrest, hok⟩ := bind_eq_ok_iff.1 hok
      cases hok
      obtain ⟨hentries, hentries', hnames, hfresh⟩ := ih hrest
      have hnot := hfresh (entryName it) List.mem_cons_self
      refine ⟨entries_cons_iff.2 ⟨haccept, hentries, hnot⟩, entries_cons_iff.2
        ⟨hcomplete, hentries', ?_⟩, ?_, ?_⟩
      · rwa [hname, hnames]
      · rw [List.map_cons, List.map_cons, hname, hnames]
      · intro name hin hcons
        rcases List.mem_cons.1 hcons with rfl | hlater
        · exact hmem hin
        · exact hfresh name (List.mem_cons_of_mem _ hin) hlater

/-- Acceptable entries with names that are new pass the loop. -/
theorem completeEntries_of_entries {names : List Bulk} {items : List (Value Bulk)}
    (hitems : Entries Acceptable items) (hfresh : ∀ name ∈ names, name ∉ items.map entryName) :
    ∃ items', completeEntries complete repeated names items = .ok items' := by
  induction items generalizing names with
  | nil => exact ⟨[], rfl⟩
  | cons it items ih =>
      obtain ⟨hit, hitems, hnot⟩ := entries_cons_iff.1 hitems
      obtain ⟨it', hcomplete, -, -⟩ := h.completed it hit
      have hmem : entryName it ∉ names := fun hin => hfresh _ hin List.mem_cons_self
      obtain ⟨items', hrest⟩ := ih hitems (fresh_cons hfresh hnot)
      refine ⟨it' :: items', ?_⟩
      rw [completeEntries_cons hcomplete, if_neg hmem, hrest]
      rfl

/-- The loop leaves complete entries as they are. -/
theorem completeEntries_of_complete {names : List Bulk} {items : List (Value Bulk)}
    (hitems : Entries Complete items) (hfresh : ∀ name ∈ names, name ∉ items.map entryName) :
    completeEntries complete repeated names items = .ok items := by
  induction items generalizing names with
  | nil => rfl
  | cons it items ih =>
      obtain ⟨hit, hitems, hnot⟩ := entries_cons_iff.1 hitems
      have hmem : entryName it ∉ names := fun hin => hfresh _ hin List.mem_cons_self
      have hrest := ih hitems (fresh_cons hfresh hnot)
      rw [completeEntries_cons (h.fixed it hit), if_neg hmem, hrest]
      rfl

end Entries

end Sdskv
