import Mathlib.Data.Set.Finite.Basic
import Mathlib.Logic.Function.Basic
import Sdskv.Container.OrderedMap

/-!
# The map that an ordered map denotes

A strict weak order partitions the keys into classes of incomparable keys. An
ordered map denotes a partial function on these classes, `classMap lt m`: the
stored key is only a representative of its class, and what the map is for is the
value of each class. Binding and erasing a key are then `Function.update` at the
class of the key.
-/

namespace OrderedMap

variable {α β : Type*} (lt : α → α → Prop) [IsStrictWeakOrder α lt]

/-- Incomparability, the equivalence of keys. -/
def keySetoid : Setoid α where
  r := IncompRel lt
  iseqv :=
    { refl := fun a => IncompRel.refl lt a
      symm := fun h => h.symm
      trans := fun h h' => incompRel_trans lt h h' }

/-- A class of equivalent keys. -/
abbrev KeyClass := Quotient (keySetoid lt)

/-- The class of a key. -/
def classOf (k : α) : KeyClass lt := Quotient.mk (keySetoid lt) k

theorem classOf_eq_iff {k k' : α} : classOf lt k = classOf lt k' ↔ IncompRel lt k k' :=
  Quotient.eq (r := keySetoid lt)

variable [DecidableRel lt]

/-- The value of every class of keys. -/
def classMap (m : List (α × β)) : KeyClass lt → Option β :=
  Quotient.lift (s := keySetoid lt) (lookup lt m) fun _ _ h => lookup_congr lt h m

@[simp] theorem classMap_classOf (m : List (α × β)) (k : α) :
    classMap lt m (classOf lt k) = lookup lt m k := rfl

theorem classMap_nil : classMap lt ([] : List (α × β)) = fun _ => none := by
  funext c
  induction c using Quotient.inductionOn
  rfl

open Classical in
/-- A change of the lookups at one class of keys. -/
theorem classMap_eq_update {m m' : List (α × β)} {k : α} {v : Option β}
    (h : ∀ k', lookup lt m' k' = if IncompRel lt k k' then v else lookup lt m k') :
    classMap lt m' = Function.update (classMap lt m) (classOf lt k) v := by
  funext c
  induction c using Quotient.inductionOn with
  | h k' =>
      change lookup lt m' k' = Function.update (classMap lt m) (classOf lt k) v (classOf lt k')
      have hclass : classOf lt k' = classOf lt k ↔ IncompRel lt k k' := by
        rw [eq_comm, classOf_eq_iff]
      rw [h, Function.update_apply, classMap_classOf]
      simp only [hclass]

open Classical in
theorem classMap_assign (m : List (α × β)) (k : α) (v : β) :
    classMap lt (assign lt m k v) =
      Function.update (classMap lt m) (classOf lt k) (some v) :=
  classMap_eq_update lt (lookup_assign lt m k v)

open Classical in
theorem classMap_erase (m : List (α × β)) (k : α) :
    classMap lt (erase lt m k) =
      Function.update (classMap lt m) (classOf lt k) none :=
  classMap_eq_update lt (lookup_erase lt m k)

/-- Only the classes of the stored keys have a value. -/
theorem finite_classMap (m : List (α × β)) :
    {c : KeyClass lt | classMap lt m c ≠ none}.Finite := by
  refine (List.finite_toSet (m.map fun p => classOf lt p.1)).subset ?_
  intro c hc
  induction c using Quotient.inductionOn with
  | h k =>
      obtain ⟨v, hv⟩ := Option.ne_none_iff_exists'.1 hc
      obtain ⟨k', hk', hmem⟩ := exists_mem_of_lookup lt hv
      refine List.mem_map.2 ⟨(k', v), hmem, ?_⟩
      exact (classOf_eq_iff lt).2 hk'

end OrderedMap
