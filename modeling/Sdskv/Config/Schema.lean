import Sdskv.Config.Validate

/-!
# What the validation of a configuration guarantees

A configuration that passes the validation satisfies the documented schema. The schema is
all that the two validators need to leave a document as it is, so a completed configuration
is validated again without a change.

The validation raises an exception where it accesses a value by name before it has tested
its type: on the document itself and on the entries of the databases.
-/

namespace Sdskv

open Json

section Arrays

/-- The entries of an array member; there are none when the member is not there. -/
def memberItems (v : Value Bulk) (key : String) : Option (List (Value Bulk)) :=
  match v.find? key with
  | none => some []
  | some (.array items) => some items
  | some _ => none

variable {config : Value Bulk} (hconfig : config.isObject = true) {key : String}
  {notArray : ConfigError} {complete : Value Bulk → Except ConfigFailure (Bulk × Value Bulk)}
  {repeated : Bulk → ConfigError}

include hconfig

theorem completeArray_of_memberItems_none (hitems : memberItems config key = none) :
    completeArray config key notArray complete repeated = .error (.rejects notArray) := by
  rw [completeArray, arrayMember, Value.isMember_of_isObject hconfig,
    expectMember_of_isObject hconfig]
  rw [memberItems] at hitems
  cases hfind : config.find? key with
  | none =>
      rw [hfind] at hitems
      cases hitems
  | some x =>
      rw [hfind] at hitems
      cases x with
      | array items => cases hitems
      | _ => rfl

variable (notArray) in
/-- The array of the entries is in the document, which only changes when the member was not
there. -/
theorem arrayMember_of_memberItems {items : List (Value Bulk)}
    (hitems : memberItems config key = some items) :
    ∃ config', arrayMember config key notArray = .ok config' ∧
      config'.isObject = true ∧ config'.find? key = some (.array items) ∧
      (∀ key', key' ≠ key → config'.find? key' = config.find? key') ∧
      ∀ items', config.find? key = some (.array items') → config' = config := by
  rw [arrayMember, Value.isMember_of_isObject hconfig, expectMember_of_isObject hconfig]
  rw [memberItems] at hitems
  cases hfind : config.find? key with
  | none =>
      rw [hfind] at hitems
      cases hitems
      obtain ⟨config', hset, hobject, hfind'⟩ :=
        Value.set_of_isObject hconfig key (.array [])
      refine ⟨config', by rw [hset]; rfl, hobject, by rw [hfind', if_pos rfl], ?_, ?_⟩
      · intro key' hkey
        rw [hfind', if_neg hkey]
      · intro items' h
        cases h
  | some x =>
      rw [hfind] at hitems
      cases x with
      | array items' =>
          cases hitems
          exact ⟨config, rfl, hconfig, hfind, fun _ _ => rfl, fun _ _ => rfl⟩
      | _ => cases hitems

variable (notArray complete repeated) in
/-- The entries go through the loop, and what it makes of them is in the document. -/
theorem completeArray_of_memberItems {items : List (Value Bulk)}
    (hitems : memberItems config key = some items) :
    ∃ put : List (Value Bulk) → Value Bulk,
      completeArray config key notArray complete repeated =
        (completeEntries complete repeated [] items).map put ∧
      ∀ items', (put items').isObject = true ∧
        (∀ key', (put items').find? key' =
          if key' = key then some (.array items') else config.find? key') ∧
        (config.find? key = some (.array items') → put items' = config) := by
  obtain ⟨config', harray, hconfig', hfind', hother, hsame⟩ :=
    arrayMember_of_memberItems hconfig notArray hitems
  have hset : ∀ items', ∃ v, config'.set key (.array items') = .ok v ∧ v.isObject = true ∧
      ∀ key', v.find? key' = if key' = key then some (.array items') else config'.find? key' :=
    fun items' => Value.set_of_isObject hconfig' key (.array items')
  choose put hput hobject hfind using hset
  refine ⟨put, ?_, ?_⟩
  · rw [completeArray, harray, ok_bind, Value.get_of_isObject hconfig', hfind']
    change (completeEntries complete repeated [] items >>= _) = _
    cases completeEntries complete repeated [] items with
    | error e => rfl
    | ok items' =>
        rw [ok_bind, hput]
        rfl
  · intro items'
    refine ⟨hobject items', ?_, ?_⟩
    · intro key'
      rw [hfind]
      split_ifs with hkey
      · rfl
      · exact hother key' hkey
    · intro hpresent
      have hsame := hsame items' hpresent
      subst hsame
      have hset := (Value.set_of_find? hpresent).symm.trans (hput items')
      exact (Except.ok.inj hset).symm

end Arrays

section Guarantee

variable {config config' : Value Bulk} {key : String} {notArray : ConfigError}

section Completed

variable {complete : Value Bulk → Except ConfigFailure (Bulk × Value Bulk)}
  {Acceptable Complete : Value Bulk → Prop} (h : Completes complete Acceptable Complete)
  {repeated : Bulk → ConfigError}

theorem completeArray_of_not_isObject (hobject : config.isObject = false)
    (hnull : config.isNull = false) :
    completeArray config key notArray complete repeated = .error (.raises .requiresObject) := by
  cases config with
  | object ms => cases hobject
  | null => cases hnull
  | _ => rfl

theorem isObject_of_completeArray (hnull : config.isNull = false)
    (hok : completeArray config key notArray complete repeated = .ok config') :
    config.isObject = true := by
  by_contra hobject
  rw [completeArray_of_not_isObject (by simpa using hobject) hnull] at hok
  cases hok

include h

/-- An array that passes has complete entries, and the other members are kept. -/
theorem entries_of_completeArray (hconfig : config.isObject = true)
    (hok : completeArray config key notArray complete repeated = .ok config') :
    config'.isObject = true ∧
      (∃ items, config'.find? key = some (.array items) ∧ Entries Complete items) ∧
      ∀ key', key' ≠ key → config'.find? key' = config.find? key' := by
  cases hitems : memberItems config key with
  | none =>
      rw [completeArray_of_memberItems_none hconfig hitems] at hok
      cases hok
  | some items =>
      obtain ⟨put, hput, hspec⟩ :=
        completeArray_of_memberItems hconfig notArray complete repeated hitems
      rw [hput] at hok
      cases hentries : completeEntries complete repeated [] items with
      | error e =>
          rw [hentries] at hok
          cases hok
      | ok items' =>
          rw [hentries] at hok
          cases hok
          obtain ⟨hobject, hfind, -⟩ := hspec items'
          obtain ⟨-, hcomplete, -, -⟩ := entries_of_completeEntries h hentries
          refine ⟨hobject, ⟨items', by rw [hfind, if_pos rfl], hcomplete⟩, ?_⟩
          intro key' hkey
          rw [hfind, if_neg hkey]

/-- An array of complete entries is left as it is. -/
theorem completeArray_of_complete {items : List (Value Bulk)}
    (hfind : config.find? key = some (.array items)) (hitems : Entries Complete items) :
    completeArray config key notArray complete repeated = .ok config := by
  have hmember : memberItems config key = some items := by rw [memberItems, hfind]
  obtain ⟨put, hput, hspec⟩ := completeArray_of_memberItems (Value.isObject_of_find? hfind)
    notArray complete repeated hmember
  rw [hput, completeEntries_of_complete h hitems (fun _ hname => absurd hname List.not_mem_nil)]
  change Except.ok (put items) = _
  rw [(hspec items).2.2 hfind]

end Completed

theorem mapM_eq_self {check : Value Bulk → Except ConfigFailure (Value Bulk)}
    {items : List (Value Bulk)} (h : ∀ it ∈ items, check it = .ok it) :
    items.mapM check = .ok items := by
  induction items with
  | nil => rfl
  | cons it items ih =>
      obtain ⟨hit, hitems⟩ := List.forall_mem_cons.1 h
      rw [List.mapM_cons, hit, ok_bind, ih hitems]
      rfl

theorem checkArray_of_fixed {check : Value Bulk → Except ConfigFailure (Value Bulk)}
    {items : List (Value Bulk)} (hfind : config.find? key = some (.array items))
    (h : ∀ it ∈ items, check it = .ok it) : checkArray config key notArray check = .ok config := by
  have hobject := Value.isObject_of_find? hfind
  rw [checkArray, Value.isMember_of_isObject hobject, expectMember_of_find? hfind rfl,
    Value.get_of_isObject hobject, hfind]
  change (items.mapM check >>= fun items => access (config.set key (.array items))) = _
  rw [mapM_eq_self h, ok_bind, Value.set_of_find? hfind]
  rfl

theorem checkComparator_of_complete {it : Value Bulk} (h : CompleteComparator it) :
    checkComparator it = .ok it := by
  obtain ⟨name, hname, -⟩ := h.name
  obtain ⟨library, hlibrary⟩ := h.library
  rw [checkComparator, if_pos h.isObject, requireString_eq_ok_iff.2 hname, ok_bind,
    withDefault_of_find? hlibrary, ok_bind, expectMember_of_find? hlibrary rfl]
  rfl

theorem checkDatabase_of_complete {it : Value Bulk} (h : CompleteDatabase it) :
    checkDatabase it = .ok it := by
  obtain ⟨name, hname, -⟩ := h.name
  obtain ⟨type, htype, -⟩ := h.type
  obtain ⟨path, hpath⟩ := h.path
  obtain ⟨comparator, hcomparator⟩ := h.comparator
  obtain ⟨noOverwrite, hoverwrite⟩ := h.noOverwrite
  rw [checkDatabase, if_pos h.isObject, requireString_eq_ok_iff.2 hname, ok_bind,
    requireString_eq_ok_iff.2 htype, ok_bind, withDefault_of_find? hpath, ok_bind,
    expectMember_of_find? hpath rfl, ok_bind, withDefault_of_find? hoverwrite, ok_bind,
    expectMember_of_find? hoverwrite rfl, ok_bind, withDefault_of_find? hcomparator, ok_bind,
    expectMember_of_find? hcomparator rfl]
  rfl

theorem isNull_eq_false (h : config.isObject = true) : config.isNull = false := by
  cases config with
  | object ms => rfl
  | _ => cases h

theorem schema_of_validate (hok : validateAndCompleteConfig config = .ok config') :
    ConfigSchema config' := by
  obtain ⟨config₁, hcomparators, hdatabases⟩ := bind_eq_ok_iff.1 hok
  have hnull : (if config.isNull then .object [] else config).isNull = false := by
    split_ifs with hnull
    · rfl
    · simpa using hnull
  have hobject := isObject_of_completeArray hnull hcomparators
  obtain ⟨hobject₁, ⟨items, hfind, hitems⟩, -⟩ :=
    entries_of_completeArray completeComparator_completes hobject hcomparators
  obtain ⟨hobject', hentries, hkeep⟩ :=
    entries_of_completeArray completeDatabase_completes hobject₁ hdatabases
  refine ⟨hobject', ⟨items, ?_, hitems⟩, hentries⟩
  rw [hkeep "comparators" (by decide)]
  exact hfind

theorem validate_of_schema (h : ConfigSchema config) :
    validateAndCompleteConfig config = .ok config := by
  obtain ⟨comparators, hfind, hcomparators⟩ := h.comparators
  obtain ⟨databases, hfind', hdatabases⟩ := h.databases
  rw [validateAndCompleteConfig, isNull_eq_false h.isObject]
  change (completeArray config _ _ _ _ >>= _) = _
  rw [completeArray_of_complete completeComparator_completes hfind hcomparators, ok_bind,
    completeArray_of_complete completeDatabase_completes hfind' hdatabases]

theorem checkProviderConfig_of_schema (h : ConfigSchema config) :
    checkProviderConfig config = .ok config := by
  obtain ⟨comparators, hfind, hcomparators⟩ := h.comparators
  obtain ⟨databases, hfind', hdatabases⟩ := h.databases
  rw [checkProviderConfig, isNull_eq_false h.isObject, if_neg (by decide), if_pos h.isObject,
    checkArray_of_fixed hfind fun it hit => checkComparator_of_complete (hcomparators.entry it hit),
    ok_bind, checkArray_of_fixed hfind' fun it hit =>
      checkDatabase_of_complete (hdatabases.entry it hit)]

/-- A configuration that is validated satisfies the schema, and both validators leave it as
it is. -/
theorem validateAndCompleteConfig_complete
    (hok : validateAndCompleteConfig config = .ok config') :
    ConfigSchema config' ∧ validateAndCompleteConfig config' = .ok config' ∧
      checkProviderConfig config' = .ok config' := by
  have hschema := schema_of_validate hok
  exact ⟨hschema, validate_of_schema hschema, checkProviderConfig_of_schema hschema⟩

/-- A configuration with one database, as a user writes it. -/
def smallConfig : Value Bulk :=
  .object [("databases", .array [.object [("name", .string [100]), ("type", .string [109])]])]

/-- The small configuration with the members that were missing. -/
def smallConfigCompleted : Value Bulk :=
  .object
    [("databases", .array
      [.object [("name", .string [100]), ("type", .string [109]), ("path", .string []),
        ("comparator", .string []), ("no_overwrite", .boolean false)]]),
      ("comparators", .array [])]

theorem smallConfig_completed :
    validateAndCompleteConfig smallConfig = .ok smallConfigCompleted ∧
      ConfigSchema smallConfigCompleted ∧
      validateAndCompleteConfig smallConfigCompleted = .ok smallConfigCompleted ∧
      checkProviderConfig smallConfigCompleted = .ok smallConfigCompleted := by
  have hok : validateAndCompleteConfig smallConfig = .ok smallConfigCompleted := rfl
  exact ⟨hok, validateAndCompleteConfig_complete hok⟩

end Guarantee

section Exceptions

variable {v config : Value Bulk} {e : LogicError}

theorem requireText_of_isObject (hv : v.isObject = true) (key : String)
    (missing notString empty : ConfigError) :
    requireText v key missing notString empty ≠ .error (.raises e) := by
  rw [requireText, requireString_of_isObject hv]
  intro h
  cases hfind : v.find? key with
  | none =>
      rw [hfind] at h
      cases h
  | some x =>
      rw [hfind] at h
      cases x with
      | string s =>
          change (if s = [] then _ else _) = _ at h
          split_ifs at h
          cases h
      | _ => cases h

/-- The loop over the comparators tests that an entry is an object. -/
theorem completeComparator_not_raises : completeComparator v ≠ .error (.raises e) := by
  intro h
  by_cases hv : v.isObject = true
  · have herror := h
    rw [completeComparator, if_pos hv, bind_eq_error_iff] at herror
    obtain herror | ⟨name, htext, -⟩ := herror
    · exact requireText_of_isObject hv _ _ _ _ herror
    · obtain ⟨hname, hne⟩ := requireText_eq_ok_iff.1 htext
      obtain ⟨v', -, -, hcomplete⟩ := completeComparator_of_name hname hne
      rw [hcomplete] at h
      split_ifs at h
      cases h
  · rw [completeComparator, if_neg hv] at h
    cases h

/-- The loop over the databases does not. -/
theorem completeDatabase_raises_iff :
    completeDatabase v = .error (.raises e) ↔ v.isObject = false ∧ v.isNull = false := by
  by_cases hv : v.isObject = true
  · refine iff_of_false ?_ fun h => by simp [hv] at h
    intro h
    have herror := h
    rw [completeDatabase, bind_eq_error_iff] at herror
    obtain herror | ⟨name, htext, herror⟩ := herror
    · exact requireText_of_isObject hv _ _ _ _ herror
    rw [bind_eq_error_iff] at herror
    obtain herror | ⟨type, htext', -⟩ := herror
    · exact requireText_of_isObject hv _ _ _ _ herror
    obtain ⟨hname, hne⟩ := requireText_eq_ok_iff.1 htext
    obtain ⟨htype, hne'⟩ := requireText_eq_ok_iff.1 htext'
    obtain ⟨v', -, -, -, -, hcomplete⟩ := completeDatabase_of_texts hname hne htype hne'
    rw [hcomplete] at h
    split_ifs at h <;> cases h
  · have hv : v.isObject = false := by simpa using hv
    rw [completeDatabase, requireText, requireString_of_not_isObject hv]
    cases e
    cases hnull : v.isNull with
    | true => exact iff_of_false (fun h => by cases h) fun h => by cases h.2
    | false => exact iff_of_true rfl ⟨hv, rfl⟩

/-- An entry that the loop gets to is the first one, or the loop gets to it behind the first
one. -/
theorem exists_reached_cons {P Acceptable : Value Bulk → Prop} {names : List Bulk}
    {first : Value Bulk} {items : List (Value Bulk)} :
    (∃ before it after, first :: items = before ++ it :: after ∧ Entries Acceptable before ∧
        (∀ name ∈ names, name ∉ before.map entryName) ∧ P it) ↔
      P first ∨ (Acceptable first ∧ entryName first ∉ names ∧
        ∃ before it after, items = before ++ it :: after ∧ Entries Acceptable before ∧
          (∀ name ∈ entryName first :: names, name ∉ before.map entryName) ∧ P it) := by
  constructor
  · rintro ⟨before, it, after, hitems, hbefore, hfresh, hit⟩
    cases before with
    | nil =>
        obtain ⟨rfl, rfl⟩ := List.cons.inj hitems
        exact Or.inl hit
    | cons first' before =>
        obtain ⟨rfl, hrest⟩ := List.cons.inj hitems
        obtain ⟨haccept, hbefore, hnot⟩ := entries_cons_iff.1 hbefore
        have hnew : entryName first ∉ names := fun hmem =>
          hfresh _ hmem List.mem_cons_self
        exact Or.inr ⟨haccept, hnew, before, it, after, hrest, hbefore,
          fresh_cons hfresh hnot, hit⟩
  · rintro (hfirst | ⟨haccept, hnew, before, it, after, rfl, hbefore, hfresh, hit⟩)
    · exact ⟨[], first, items, rfl, entries_nil _, fun _ _ => List.not_mem_nil, hfirst⟩
    · refine ⟨first :: before, it, after, rfl,
        entries_cons_iff.2 ⟨haccept, hbefore, hfresh _ List.mem_cons_self⟩, ?_, hit⟩
      intro name hname hin
      rcases List.mem_cons.1 hin with rfl | hin
      · exact hnew hname
      · exact hfresh name (List.mem_cons_of_mem _ hname) hin

section Loop

variable {complete : Value Bulk → Except ConfigFailure (Bulk × Value Bulk)}
  {Acceptable Complete : Value Bulk → Prop} (h : Completes complete Acceptable Complete)
  {repeated : Bulk → ConfigError} {items : List (Value Bulk)}
include h

/-- The loop raises an exception at an entry that it gets to: the entries before it are
acceptable and their names differ. -/
theorem completeEntries_raises_iff {names : List Bulk} :
    completeEntries complete repeated names items = .error (.raises e) ↔
      ∃ before it after, items = before ++ it :: after ∧ Entries Acceptable before ∧
        (∀ name ∈ names, name ∉ before.map entryName) ∧ complete it = .error (.raises e) := by
  induction items generalizing names with
  | nil => exact iff_of_false (fun h => by cases h) fun ⟨_, _, _, h, _⟩ => by simp at h
  | cons first items ih =>
      rw [exists_reached_cons]
      cases hfirst : complete first with
      | error failure =>
          have herror : completeEntries complete repeated names (first :: items) =
              .error failure := by
            rw [completeEntries, hfirst]
            rfl
          rw [herror]
          constructor
          · intro hraises
            exact Or.inl (by rw [Except.error.inj hraises])
          · rintro (hraises | ⟨haccept, -, -⟩)
            · rw [Except.error.inj hraises]
            · obtain ⟨first', hok, -, -⟩ := h.completed first haccept
              rw [hfirst] at hok
              cases hok
      | ok r =>
          have haccept := h.acceptable first r hfirst
          obtain ⟨first', hok, -, -⟩ := h.completed first haccept
          rw [completeEntries_cons hok]
          split_ifs with hmem
          · refine iff_of_false (fun h => by cases h) ?_
            rintro (hraises | ⟨-, hnew, -⟩)
            · cases hraises
            · exact hnew hmem
          · rw [bind_eq_error_iff, ih]
            constructor
            · rintro (hlater | ⟨_, -, hcontra⟩)
              · exact Or.inr ⟨haccept, hmem, hlater⟩
              · cases hcontra
            · rintro (hraises | ⟨-, -, hlater⟩)
              · cases hraises
              · exact Or.inl hlater

omit h in
theorem completeArray_raises_iff (hconfig : config.isObject = true) {key : String}
    {notArray : ConfigError} :
    completeArray config key notArray complete repeated = .error (.raises e) ↔
      ∃ items, memberItems config key = some items ∧
        completeEntries complete repeated [] items = .error (.raises e) := by
  cases hitems : memberItems config key with
  | none =>
      rw [completeArray_of_memberItems_none hconfig hitems]
      exact iff_of_false (fun h => by cases h) fun ⟨_, h, _⟩ => by cases h
  | some items =>
      obtain ⟨put, hput, -⟩ :=
        completeArray_of_memberItems hconfig notArray complete repeated hitems
      simp only [hput, map_eq_error_iff, Option.some.injEq, exists_eq_left']

theorem completeEntries_eq_ok_iff {items : List (Value Bulk)} :
    (∃ items', completeEntries complete repeated [] items = .ok items') ↔
      Entries Acceptable items := by
  constructor
  · rintro ⟨items', hok⟩
    exact (entries_of_completeEntries h hok).1
  · intro hentries
    exact completeEntries_of_entries h hentries fun _ hname => absurd hname List.not_mem_nil

theorem completeArray_eq_ok_iff (hconfig : config.isObject = true) {key : String}
    {notArray : ConfigError} :
    (∃ config', completeArray config key notArray complete repeated = .ok config') ↔
      ∃ items, memberItems config key = some items ∧ Entries Acceptable items := by
  cases hitems : memberItems config key with
  | none =>
      rw [completeArray_of_memberItems_none hconfig hitems]
      exact iff_of_false (fun ⟨_, h⟩ => by cases h) fun ⟨_, h, _⟩ => by cases h
  | some items =>
      obtain ⟨put, hput, -⟩ :=
        completeArray_of_memberItems hconfig notArray complete repeated hitems
      simp only [hput, exists_map_eq_ok_iff, completeEntries_eq_ok_iff h, Option.some.injEq,
        exists_eq_left']

end Loop

/-- The validation only accesses an object or null by name: the document is one, and so is
each database that the loop gets to, after comparators that pass and databases that pass. -/
def AccessesObjects (config : Value Bulk) : Prop :=
  config.isNull = true ∨ config.isObject = true ∧
    ∀ comparators, memberItems config "comparators" = some comparators →
      Entries AcceptableComparator comparators →
      ∀ before it after, memberItems config "databases" = some (before ++ it :: after) →
        Entries AcceptableDatabase before → it.isObject = true ∨ it.isNull = true

theorem validate_raises_iff :
    validateAndCompleteConfig config = .error (.raises e) ↔ ¬ AccessesObjects config := by
  rw [AccessesObjects]
  by_cases hobject : config.isObject = true
  · have hnull := isNull_eq_false hobject
    rw [validateAndCompleteConfig, hnull]
    change completeArray config _ _ _ _ >>= _ = _ ↔ _
    rw [bind_eq_error_iff, completeArray_raises_iff hobject]
    simp only [hobject, Bool.false_eq_true, true_and, false_or, not_forall]
    constructor
    · rintro (⟨items, -, hraises⟩ | ⟨config', hok, hraises⟩)
      · obtain ⟨-, it, -, -, -, -, hit⟩ :=
          (completeEntries_raises_iff completeComparator_completes).1 hraises
        exact absurd hit completeComparator_not_raises
      · obtain ⟨comparators, hmember, hentries⟩ :=
          (completeArray_eq_ok_iff completeComparator_completes hobject).1 ⟨config', hok⟩
        obtain ⟨hobject', -, hkeep⟩ :=
          entries_of_completeArray completeComparator_completes hobject hok
        obtain ⟨items, hitems, hraises⟩ := (completeArray_raises_iff hobject').1 hraises
        obtain ⟨before, it, after, rfl, hbefore, -, hit⟩ :=
          (completeEntries_raises_iff completeDatabase_completes).1 hraises
        refine ⟨comparators, hmember, hentries, before, it, after, ?_, hbefore, ?_⟩
        · rw [← hitems, memberItems, memberItems, hkeep "databases" (by decide)]
        · simpa using completeDatabase_raises_iff.1 hit
    · rintro ⟨comparators, hmember, hentries, before, it, after, hitems, hbefore, hit⟩
      right
      obtain ⟨config', hok⟩ : ∃ config', completeArray config "comparators"
          .comparatorsNotArray completeComparator .comparatorRepeated = .ok config' :=
        (completeArray_eq_ok_iff completeComparator_completes hobject).2
          ⟨comparators, hmember, hentries⟩
      obtain ⟨hobject', -, hkeep⟩ :=
        entries_of_completeArray completeComparator_completes hobject hok
      refine ⟨config', hok, (completeArray_raises_iff hobject').2
        ⟨before ++ it :: after, ?_, (completeEntries_raises_iff completeDatabase_completes).2
          ⟨before, it, after, rfl, hbefore, fun _ h => absurd h List.not_mem_nil, ?_⟩⟩⟩
      · rw [← hitems, memberItems, memberItems, hkeep "databases" (by decide)]
      · exact completeDatabase_raises_iff.2 (by simpa using hit)
  · cases config with
    | object ms => exact absurd rfl hobject
    | null =>
        refine iff_of_false ?_ fun h => h (Or.inl rfl)
        intro h
        cases h
    | _ =>
        cases e
        exact iff_of_true rfl (by simp [Value.isNull, Value.isObject])

/-- `sdskv_provider_register` with the value that the parser has made of the configuration.
The validation comes after the test of the provider id, and an exception is not caught. -/
def registerConfigured (m : MargoInstance) (call : RegisterCall) (config : Value Bulk) :
    Except LogicError (Int × Option ℕ × MargoInstance) := do
  if m.data { rpc := .put, providerId := call.providerId } ≠ none then
    .ok (SdskvReturn.errPrExists.code, none, m)
  else
    let ret ← configRet (validateAndCompleteConfig config)
    .ok (m.providerRegister { call with jsonParses := true, validate := ret })

/-- The validation returns one of its two codes, and the registration answers every
configuration that is not validated with an error code and changes nothing. -/
structure ConfigHandled (config : Value Bulk) : Prop where
  validate : ∃ ret, configRet (validateAndCompleteConfig config) = .ok ret ∧
    (ret = .success ∨ ret = .errConfig)
  register : ∀ m call, ∃ ret provider m', registerConfigured m call config =
      .ok (ret, provider, m') ∧
    ((∀ config', validateAndCompleteConfig config ≠ .ok config') →
      ret ≠ SdskvReturn.success.code ∧ provider = none ∧ m' = m)

/-- No exception leaves the validation exactly when it only accesses an object or null by
name. -/
theorem configHandled_iff : ConfigHandled config ↔ AccessesObjects config := by
  constructor
  · intro h
    by_contra hnot
    obtain ⟨ret, hret, -⟩ := h.validate
    rw [(validate_raises_iff (e := .requiresObject)).2 hnot] at hret
    cases hret
  · intro haccess
    cases hvalidate : validateAndCompleteConfig config with
    | ok config' =>
        refine ⟨⟨.success, by rw [hvalidate]; rfl, Or.inl rfl⟩, ?_⟩
        intro m call
        rw [registerConfigured, hvalidate]
        split_ifs
        · exact ⟨_, _, _, rfl, fun h => absurd rfl (h config')⟩
        · exact ⟨_, _, _, rfl, fun h => absurd rfl (h config')⟩
    | error failure =>
        cases failure with
        | raises e => exact absurd haccess (validate_raises_iff.1 hvalidate)
        | rejects error =>
            refine ⟨⟨.errConfig, by rw [hvalidate]; rfl, Or.inr rfl⟩, ?_⟩
            intro m call
            rw [registerConfigured, hvalidate]
            split_ifs with hunused
            · exact ⟨_, _, _, rfl, fun _ => ⟨by decide, rfl, rfl⟩⟩
            · have hregister : m.providerRegister
                  { call with jsonParses := true, validate := .errConfig } =
                    (SdskvReturn.errConfig.code, none, m) := by
                rw [MargoInstance.providerRegister]
                simp [hunused]
              exact ⟨_, _, _, congrArg Except.ok hregister, fun _ => ⟨by decide, rfl, rfl⟩⟩

/-- A string in the place of a database leaves the registration by an exception. -/
theorem not_configHandled_database :
    ¬ ConfigHandled (.object [("databases", .array [.string [100, 98]])]) ∧
      configRet (validateAndCompleteConfig
        (.object [("databases", .array [.string [100, 98]])])) = .error .requiresObject ∧
      ∀ m call, m.data { rpc := .put, providerId := call.providerId } = none →
        registerConfigured m call (.object [("databases", .array [.string [100, 98]])]) =
          .error .requiresObject := by
  have hraises : configRet (validateAndCompleteConfig
      (.object [("databases", .array [.string [100, 98]])])) = .error .requiresObject := rfl
  refine ⟨fun h => ?_, hraises, ?_⟩
  · obtain ⟨ret, hret, -⟩ := h.validate
    rw [hraises] at hret
    cases hret
  · intro m call hunused
    rw [registerConfigured, if_neg (not_not.2 hunused), hraises]
    rfl

end Exceptions

end Sdskv
