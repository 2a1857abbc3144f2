import Mathlib.Data.List.Basic

/-!
# JSON values and access by name

A JSON value with the type tags of `Json::Value`, over the type `σ` of its strings. The
members of an object are an association list, in which the first entry of a name counts.

A value is accessed as if it were an object. A value that is not an object answers when it
is null, which stands for an object without members, and raises an exception otherwise. An
assignment to a member that is there replaces it, and else adds it.
-/

namespace Json

/-- A value with its type tag. -/
inductive Value (σ : Type)
  | null
  | int (n : Int)
  | uint (n : UInt64)
  | real (mantissa exponent : Int)
  | string (s : σ)
  | boolean (b : Bool)
  | array (items : List (Value σ))
  | object (members : List (String × Value σ))

/-- The exception of an access by name to a value that has no members. -/
inductive LogicError
  | requiresObject
  deriving DecidableEq, Repr

namespace Value

variable {σ : Type}

def isNull : Value σ → Bool
  | null => true
  | _ => false

def isObject : Value σ → Bool
  | object _ => true
  | _ => false

def isArray : Value σ → Bool
  | array _ => true
  | _ => false

def isString : Value σ → Bool
  | string _ => true
  | _ => false

def isBool : Value σ → Bool
  | boolean _ => true
  | _ => false

/-- The elements that an iterator over an array goes through. -/
def items : Value σ → List (Value σ)
  | array items => items
  | _ => []

section Members

variable (key : String)

/-- The members of an object after an assignment. -/
def assignMember (x : Value σ) : List (String × Value σ) → List (String × Value σ)
  | [] => [(key, x)]
  | m :: ms => if key = m.1 then (key, x) :: ms else m :: assignMember x ms

/-- The value of a member, for an object or null. -/
def find? : Value σ → Option (Value σ)
  | object ms => ms.lookup key
  | _ => none

/-- The members of a value, which has to be an object or null. -/
def members : Value σ → Except LogicError (List (String × Value σ))
  | object ms => .ok ms
  | null => .ok []
  | _ => .error .requiresObject

/-- Whether there is a member of the name. -/
def isMember (v : Value σ) : Except LogicError Bool := do
  let ms ← v.members
  .ok (ms.lookup key).isSome

/-- The member of the name; a member that is not there reads as null. -/
def get (v : Value σ) : Except LogicError (Value σ) := do
  let ms ← v.members
  .ok ((ms.lookup key).getD null)

/-- The value after an assignment to the member. -/
def set (v : Value σ) (x : Value σ) : Except LogicError (Value σ) := do
  let ms ← v.members
  .ok (object (assignMember key x ms))

end Members

section Lemmas

variable {key : String} {v x : Value σ} {ms : List (String × Value σ)}

theorem lookup_assignMember (key : String) (x : Value σ) (ms : List (String × Value σ))
    (key' : String) :
    (assignMember key x ms).lookup key' = if key' = key then some x else ms.lookup key' := by
  induction ms with
  | nil =>
      by_cases h : key' = key
      · simp [assignMember, h]
      · simp [assignMember, List.lookup_cons, h, beq_eq_false_iff_ne.2 h]
  | cons m ms ih =>
      obtain ⟨name, value⟩ := m
      by_cases hname : key = name
      · subst hname
        by_cases h : key' = key
        · simp [assignMember, h]
        · simp [assignMember, List.lookup_cons, h, beq_eq_false_iff_ne.2 h]
      · rw [assignMember, if_neg hname, List.lookup_cons, List.lookup_cons, ih]
        by_cases h : key' = name
        · subst h
          have hne : ¬ key' = key := fun h => hname h.symm
          simp [hne]
        · simp [beq_eq_false_iff_ne.2 h]

theorem assignMember_of_lookup (h : ms.lookup key = some x) : assignMember key x ms = ms := by
  induction ms with
  | nil => cases h
  | cons m ms ih =>
      obtain ⟨name, value⟩ := m
      by_cases hname : key = name
      · subst hname
        simp only [List.lookup_cons, beq_self_eq_true, Option.some.injEq] at h
        rw [assignMember, if_pos rfl, h]
      · rw [List.lookup_cons, beq_eq_false_iff_ne.2 hname] at h
        rw [assignMember, if_neg hname, ih h]

/-- An object answers every access by name. -/
theorem members_of_isObject (h : v.isObject = true) : ∃ ms, v = object ms ∧ v.members = .ok ms := by
  cases v with
  | object ms => exact ⟨ms, rfl, rfl⟩
  | _ => cases h

theorem isMember_of_isObject (h : v.isObject = true) (key : String) :
    v.isMember key = .ok (v.find? key).isSome := by
  obtain ⟨ms, rfl, -⟩ := members_of_isObject h
  rfl

theorem get_of_isObject (h : v.isObject = true) (key : String) :
    v.get key = .ok ((v.find? key).getD null) := by
  obtain ⟨ms, rfl, -⟩ := members_of_isObject h
  rfl

/-- An assignment changes one member. -/
theorem set_of_isObject (h : v.isObject = true) (key : String) (x : Value σ) :
    ∃ v', v.set key x = .ok v' ∧ v'.isObject = true ∧
      ∀ key', v'.find? key' = if key' = key then some x else v.find? key' := by
  obtain ⟨ms, rfl, -⟩ := members_of_isObject h
  exact ⟨object (assignMember key x ms), rfl, rfl, lookup_assignMember key x ms⟩

/-- An assignment of what is there changes nothing. -/
theorem set_of_find? (h : v.find? key = some x) : v.set key x = .ok v := by
  cases v with
  | object ms =>
      change Except.ok (object (assignMember key x ms)) = _
      rw [assignMember_of_lookup h]
  | _ => cases h

theorem isObject_of_find? (h : v.find? key = some x) : v.isObject = true := by
  cases v with
  | object ms => rfl
  | _ => cases h

theorem isString_iff : v.isString = true ↔ ∃ s, v = string s := by
  cases v <;> simp [isString]

theorem isBool_iff : v.isBool = true ↔ ∃ b, v = boolean b := by
  cases v <;> simp [isBool]

end Lemmas

end Value

section Bind

variable {ε α β : Type} {x : Except ε α} {f : α → Except ε β}

theorem ok_bind (a : α) (f : α → Except ε β) : (Except.ok a >>= f) = f a := rfl

theorem error_bind (e : ε) (f : α → Except ε β) :
    ((Except.error e : Except ε α) >>= f) = .error e := rfl

theorem bind_eq_ok_iff {b : β} : x >>= f = .ok b ↔ ∃ a, x = .ok a ∧ f a = .ok b := by
  cases x with
  | error e => simp [error_bind]
  | ok a => simp [ok_bind]

theorem bind_eq_error_iff {e : ε} :
    x >>= f = .error e ↔ x = .error e ∨ ∃ a, x = .ok a ∧ f a = .error e := by
  cases x with
  | error e' => simp [error_bind]
  | ok a => simp [ok_bind]

theorem map_eq_error_iff {g : α → β} {e : ε} : x.map g = .error e ↔ x = .error e := by
  cases x <;> simp [Except.map]

theorem exists_map_eq_ok_iff {g : α → β} :
    (∃ b, x.map g = .ok b) ↔ ∃ a, x = .ok a := by
  cases x <;> simp [Except.map]

end Bind

end Json
