import Sdskv.Concurrency.Guarded
import Sdskv.Concurrency.Product
import Sdskv.Datastore.Map.Locks
import Sdskv.Datastore.Map.Refinement

/-!
# The map backend under concurrent requests

The requests on a database run in ULTs of their own, so the methods of `MapDataStore`
interleave. Here a method is what it does to `_map` between the calls that take and release
`_map_lock`, one access of the map at a time. An iterator is the key of the node it points
to, or `none` for `end()`: it is dereferenced and advanced in the map as it is at that
moment, and a method that dereferences an iterator to a node that is gone, or `end()`, makes
no further step.

`mapDatabases_linearizable` says that nevertheless every run of the requests of any number
of threads looks as if each had taken effect at one moment. `mapDataStore_lock` says which
requests can get the lock: an early return of a range listing keeps it for ever.
-/

namespace Sdskv

open Linearizability Linearizability.Guarded Transition

/-- A call of a method of `MapDataStore` on a database that is open. -/
inductive MapCall
  | single (op : MapOp)
  | listKeys (startKey : Bulk) (count : ℕ) (keyPrefix : Bulk)
  | listKeyvals (startKey : Bulk) (count : ℕ) (keyPrefix : Bulk)
  | listKeyRange (lowerBound upperBound : Bulk) (maxKeys : ℕ)
  | listKeyvalRange (lowerBound upperBound : Bulk) (maxKeys : ℕ)

/-- What a call answers. -/
inductive CallAnswer
  | single (a : MapAnswer)
  | keys (ks : List Bulk)
  | pairs (ps : List (Bulk × Bulk))

/-- One call on a database that nobody else uses; `none` if it does not return. -/
def MapCall.exec (s : MapDataStore) : MapCall → Option (CallAnswer × MapDataStore)
  | single op => some (.single (op.exec s).1, (op.exec s).2)
  | listKeys startKey count keyPrefix =>
      (s.vlistKeys startKey count keyPrefix).map fun ks => (.keys ks, s)
  | listKeyvals startKey count keyPrefix =>
      match s.vlistKeyvals startKey count keyPrefix with
      | .pairs ps => some (.pairs ps, s)
      | _ => none
  | listKeyRange lowerBound upperBound maxKeys =>
      (s.vlistKeyRange lowerBound upperBound maxKeys).map fun vs => (.keys vs, s)
  | listKeyvalRange lowerBound upperBound maxKeys =>
      (s.vlistKeyvalRange lowerBound upperBound maxKeys).map fun ps => (.pairs ps, s)

namespace MapDataStore

/-- The nodes of the map from the one with the key `k` on. -/
def nodesFrom (s : MapDataStore) (k : Bulk) : List (Bulk × Bulk) :=
  s.map.dropWhile fun p => decide (p.1 ≠ k)

/-- The iterator to the first of some nodes. -/
def iteratorTo (nodes : List (Bulk × Bulk)) : Option Bulk :=
  nodes.head?.map Prod.fst

/-- The nodes from an iterator on. -/
def nodes (s : MapDataStore) (it : Option Bulk) : List (Bulk × Bulk) :=
  it.elim [] s.nodesFrom

/-- `*it`; `none` if there is no such node. -/
def deref (s : MapDataStore) (it : Option Bulk) : Option (Bulk × Bulk) :=
  (s.nodes it).head?

/-- `it++`. -/
def next (s : MapDataStore) (it : Option Bulk) : Option Bulk :=
  iteratorTo (s.nodes it).tail

/-- The local variables of a method that holds `_map_lock`, by where it is. -/
inductive Local
  | entered
  | unlocking (a : CallAnswer)
  | counted (x : ℕ)
  | subscripted
  | searched (it : Option Bulk)
  | erasing (b : Bool)
  | scanning (result : List (Bulk × Bulk)) (it : Option Bulk)
  | scanned (result : List (Bulk × Bulk)) (it : Option Bulk)
  | lowerFound (it : Option Bulk)
  | upperFound (it ub : Option Bulk)
  | ranging (result : List (Bulk × Bulk)) (it ub : Option Bulk)
  | ranged (result : List (Bulk × Bulk)) (it ub : Option Bulk)

/-- What a step leads to. -/
abbrev Step := Option (Outcome Local CallAnswer × MapDataStore)

/-- The step to another local state; the map is not changed. -/
def goto (s : MapDataStore) (l : Local) : Step := some (.next l, s)

/-- `ABT_rwlock_unlock(_map_lock)` and `return`. -/
def unlockAndReturn (s : MapDataStore) (a : CallAnswer) : Step := some (.done a true, s)

/-- `_map[key]`. -/
def subscript (s : MapDataStore) (key : Bulk) : MapDataStore :=
  if OrderedMap.count (keycmp s.less) s.map key = 0 then
    { s with map := OrderedMap.assign (keycmp s.less) s.map key [] }
  else s

/-- The body of `put`. -/
def putBody (key data : Bulk) (s : MapDataStore) : Local → Step
  | .entered => s.goto (.counted (OrderedMap.count (keycmp s.less) s.map key))
  | .counted x =>
      if s.noOverwrite ∧ x ≠ 0 then s.goto (.unlocking (.single (.code .errKeyexists)))
      else (s.subscript key).goto .subscripted
  | .subscripted =>
      -- the reference that `_map[key]` returned
      if OrderedMap.count (keycmp s.less) s.map key = 0 then none
      else { s with map := OrderedMap.assign (keycmp s.less) s.map key data }.goto
        (.unlocking (.single (.code .success)))
  | .unlocking a => s.unlockAndReturn a
  | _ => none

/-- The body of `get` and of `length`; `answer` is what is answered for the value. -/
def searchBody (answer : Option Bulk → MapAnswer) (key : Bulk) (s : MapDataStore) :
    Local → Step
  | .entered =>
      s.goto (.searched ((OrderedMap.findEntry (keycmp s.less) s.map key).map Prod.fst))
  | .searched none => s.goto (.unlocking (.single (answer none)))
  | .searched (some k) =>
      (s.deref (some k)).bind fun p => s.goto (.unlocking (.single (answer (some p.2))))
  | .unlocking a => s.unlockAndReturn a
  | _ => none

/-- The body of `exists`. -/
def existsBody (key : Bulk) (s : MapDataStore) : Local → Step
  | .entered =>
      s.goto (.unlocking (.single (.flag
        (decide (OrderedMap.count (keycmp s.less) s.map key > 0)))))
  | .unlocking a => s.unlockAndReturn a
  | _ => none

/-- The body of `erase`. -/
def eraseBody (key : Bulk) (s : MapDataStore) : Local → Step
  | .entered => s.goto (.erasing (OrderedMap.findEntry (keycmp s.less) s.map key).isSome)
  | .erasing b =>
      { s with map := OrderedMap.erase (keycmp s.less) s.map key }.goto
        (.unlocking (.single (.flag b)))
  | .unlocking a => s.unlockAndReturn a
  | _ => none

/-- The body of `vlist_keys` and of `vlist_keyvals`. -/
def listBody (answer : List (Bulk × Bulk) → CallAnswer) (startKey : Bulk) (count : ℕ)
    (keyPrefix : Bulk) (s : MapDataStore) : Local → Step
  | .entered =>
      let it := if startKey.length > 0 then
          iteratorTo (OrderedMap.upperBound (keycmp s.less) s.map startKey)
        else iteratorTo s.map
      s.goto (.scanning [] it)
  | .scanning result it =>
      if result.length < count ∧ it ≠ none then
        (s.deref it).bind fun p =>
          -- `continue` without `it++`
          if keyPrefix.length > p.1.length then s.goto (.scanning result it)
          else
            let c := memcmp keyPrefix p.1 keyPrefix.length
            if c = 0 then s.goto (.scanned (result ++ [p]) it)
            else if c < 0 then s.goto (.unlocking (answer result))
            else s.goto (.scanned result it)
      else s.goto (.unlocking (answer result))
  | .scanned result it => s.goto (.scanning result (s.next it))
  | .unlocking a => s.unlockAndReturn a
  | _ => none

/-- The body of `vlist_key_range` and of `vlist_keyval_range`. -/
def rangeBody (answer : List (Bulk × Bulk) → CallAnswer) (lowerBound upperBound : Bulk)
    (maxKeys : ℕ) (s : MapDataStore) : Local → Step
  | .entered =>
      s.goto (.lowerFound
        (iteratorTo (OrderedMap.upperBound (keycmp s.less) s.map lowerBound)))
  -- `return result` without the unlock
  | .lowerFound none => some (.done (answer []) false, s)
  | .lowerFound (some k) =>
      s.goto (.upperFound (some k)
        (iteratorTo (OrderedMap.lowerBound (keycmp s.less) s.map upperBound)))
  | .upperFound it ub =>
      (s.deref ub).bind fun p =>
        s.goto (.ranging [] it (if p.1 ≠ upperBound then s.next ub else ub))
  | .ranging result it ub =>
      if it = ub then s.goto (.unlocking (answer result))
      else (s.deref it).bind fun p => s.goto (.ranged (result ++ [p]) it ub)
  | .ranged result it ub =>
      if maxKeys ≠ 0 ∧ result.length = maxKeys then s.goto (.unlocking (answer result))
      else s.goto (.ranging result (s.next it) ub)
  | .unlocking a => s.unlockAndReturn a
  | _ => none

end MapDataStore

namespace MapOp

/-- The calls that take the lock for writing. -/
def isWrite : MapOp → Bool
  | put _ _ | putMove _ _ | putRaw _ _ _ _ | erase _ => true
  | _ => false

/-- The answer of `get(const ds_bulk_t&, std::vector<ds_bulk_t>&)`. -/
def valuesAnswer : Option Bulk → MapAnswer
  | some data => .values true [data]
  | none => .values false [[]]

/-- The answer of `length`. -/
def sizeAnswer (value : Option Bulk) : MapAnswer := .size (value.map List.length)

/-- The body of the method, under the lock. -/
def body : MapOp → MapDataStore → MapDataStore.Local → MapDataStore.Step
  | put key data => MapDataStore.putBody key data
  | putMove key data => MapDataStore.putBody key data
  | putRaw key ksize value vsize =>
      MapDataStore.putBody (bulkOfPointer key ksize)
        (if vsize ≠ 0 then bulkOfPointer value vsize else [])
  | get key => MapDataStore.searchBody .data key
  | getValues key => MapDataStore.searchBody valuesAnswer key
  | length key => MapDataStore.searchBody sizeAnswer key
  | lengthRaw key ksize => MapDataStore.searchBody sizeAnswer (bulkOfPointer key ksize)
  | «exists» key => MapDataStore.existsBody key
  | existsRaw key ksize => MapDataStore.existsBody (bulkOfPointer key ksize)
  | erase key => MapDataStore.eraseBody key

end MapOp

namespace MapCall

/-- The calls that take the lock for writing. -/
def isWrite : MapCall → Bool
  | single op => op.isWrite
  | _ => false

/-- The answer of `vlist_keys`. -/
def keysAnswer (ps : List (Bulk × Bulk)) : CallAnswer := .keys (ps.map Prod.fst)

/-- The answer of `vlist_key_range`, which collects `it->second`. -/
def valuesAnswer (ps : List (Bulk × Bulk)) : CallAnswer := .keys (ps.map Prod.snd)

/-- The body of the method, under the lock. -/
def body : MapCall → MapDataStore → MapDataStore.Local → MapDataStore.Step
  | single op => op.body
  | listKeys startKey count keyPrefix =>
      MapDataStore.listBody keysAnswer startKey count keyPrefix
  | listKeyvals startKey count keyPrefix =>
      MapDataStore.listBody .pairs startKey count keyPrefix
  | listKeyRange lowerBound upperBound maxKeys =>
      MapDataStore.rangeBody valuesAnswer lowerBound upperBound maxKeys
  | listKeyvalRange lowerBound upperBound maxKeys =>
      MapDataStore.rangeBody .pairs lowerBound upperBound maxKeys

end MapCall

/-- The methods of `MapDataStore`. -/
def mapMethods : Methods MapDataStore MapCall CallAnswer MapDataStore.Local where
  exclusive := MapCall.isWrite
  start _ := .entered
  body call l s := call.body s l

namespace MapDataStore

section Nodes

variable {s : MapDataStore}

theorem nodes_suffix (it : Option Bulk) : s.nodes it <:+ s.map := by
  cases it with
  | none => exact List.nil_suffix
  | some k => exact List.dropWhile_suffix _

/-- The key of the node that an iterator points to. -/
theorem eq_of_nodes {it : Option Bulk} {p : Bulk × Bulk} {rest : List (Bulk × Bulk)}
    (h : s.nodes it = p :: rest) : it = some p.1 := by
  cases it with
  | none => cases h
  | some k =>
      have hhead := List.head?_dropWhile_not (fun p : Bulk × Bulk => decide (p.1 ≠ k)) s.map
      have hfrom : s.map.dropWhile (fun p => decide (p.1 ≠ k)) = p :: rest := h
      rw [hfrom] at hhead
      simp at hhead
      rw [hhead]

theorem deref_eq_some {it : Option Bulk} {p : Bulk × Bulk} (h : s.deref it = some p) :
    ∃ rest, s.nodes it = p :: rest := by
  cases hnodes : s.nodes it with
  | nil => simp [deref, hnodes] at h
  | cons q rest =>
      rw [deref, hnodes, List.head?_cons, Option.some.injEq] at h
      exact ⟨rest, by rw [h]⟩

theorem nodes_iteratorTo (hnodup : (s.map.map Prod.fst).Nodup) {rest : List (Bulk × Bulk)}
    (hrest : rest <:+ s.map) : s.nodes (iteratorTo rest) = rest := by
  cases rest with
  | nil => rfl
  | cons p rest =>
      obtain ⟨before, hmap⟩ := hrest
      have hbefore : ∀ q ∈ before, decide (q.1 ≠ p.1) = true := by
        intro q hq
        rw [← hmap, List.map_append, List.nodup_append] at hnodup
        rw [decide_eq_true_iff]
        exact hnodup.2.2 q.1 (List.mem_map_of_mem hq) p.1 (by simp)
      show s.map.dropWhile (fun q => decide (q.1 ≠ p.1)) = p :: rest
      rw [← hmap, List.dropWhile_append_of_pos hbefore, List.dropWhile_cons_of_neg (by simp)]

theorem nodes_next (hnodup : (s.map.map Prod.fst).Nodup) (it : Option Bulk) :
    s.nodes (s.next it) = (s.nodes it).tail :=
  nodes_iteratorTo hnodup ((List.tail_suffix _).trans (nodes_suffix it))

theorem exists_suffix_of_mem {p : Bulk × Bulk} (h : p ∈ s.map) :
    ∃ rest, p :: rest <:+ s.map := by
  obtain ⟨before, rest, hmap⟩ := List.append_of_mem h
  exact ⟨rest, before, hmap.symm⟩

/-- Two iterators are equal when equally many nodes are left, and one can be dereferenced. -/
theorem eq_iff_length_nodes {it ub : Option Bulk} {p : Bulk × Bulk} {rest : List (Bulk × Bulk)}
    (h : s.nodes it = p :: rest) : it = ub ↔ rest.length + 1 = (s.nodes ub).length := by
  constructor
  · rintro rfl
    rw [h, List.length_cons]
  · intro hlength
    have hsame : s.nodes it = s.nodes ub := by
      apply List.IsSuffix.eq_of_length
      · exact List.suffix_of_suffix_length_le (nodes_suffix it) (nodes_suffix ub)
          (by rw [h, List.length_cons, hlength])
      · rw [h, List.length_cons, hlength]
    rw [eq_of_nodes h, eq_of_nodes (hsame.symm.trans h)]

end Nodes

/-- What the rest of a `put` answers, and the map it leaves. -/
def putRest (key data : Bulk) (s : MapDataStore) : Local → Option (CallAnswer × MapDataStore)
  | .entered => some (.single (.code (s.put key data).1), (s.put key data).2)
  | .counted x =>
      if s.noOverwrite ∧ x ≠ 0 then some (.single (.code .errKeyexists), s)
      else some (.single (.code .success),
        { s with map := OrderedMap.assign (keycmp s.less) s.map key data })
  | .subscripted =>
      some (.single (.code .success),
        { s with map := OrderedMap.assign (keycmp s.less) s.map key data })
  | .unlocking a => some (a, s)
  | _ => none

/-- What the rest of a `get` or `length` answers. -/
def searchRest (answer : Option Bulk → MapAnswer) (key : Bulk) (s : MapDataStore) :
    Local → Option (CallAnswer × MapDataStore)
  | .entered => some (.single (answer (s.get key)), s)
  | .searched none => some (.single (answer none), s)
  | .searched (some k) =>
      (s.deref (some k)).map fun p => (.single (answer (some p.2)), s)
  | .unlocking a => some (a, s)
  | _ => none

/-- What the rest of an `exists` answers. -/
def existsRest (key : Bulk) (s : MapDataStore) : Local → Option (CallAnswer × MapDataStore)
  | .entered => some (.single (.flag (s.exists key)), s)
  | .unlocking a => some (a, s)
  | _ => none

/-- What the rest of an `erase` answers, and the map it leaves. -/
def eraseRest (key : Bulk) (s : MapDataStore) : Local → Option (CallAnswer × MapDataStore)
  | .entered => some (.single (.flag (s.erase key).1), (s.erase key).2)
  | .erasing b =>
      some (.single (.flag b), { s with map := OrderedMap.erase (keycmp s.less) s.map key })
  | .unlocking a => some (a, s)
  | _ => none

/-- What is answered for a listing that returns. -/
def listAnswer (answer : List (Bulk × Bulk) → CallAnswer) (s : MapDataStore) :
    Listing → Option (CallAnswer × MapDataStore)
  | .pairs ps => some (answer ps, s)
  | _ => none

/-- What the rest of a `vlist_keys` or `vlist_keyvals` answers. -/
def listRest (answer : List (Bulk × Bulk) → CallAnswer) (startKey : Bulk) (count : ℕ)
    (keyPrefix : Bulk) (s : MapDataStore) : Local → Option (CallAnswer × MapDataStore)
  | .entered => listAnswer answer s (s.vlistKeyvals startKey count keyPrefix)
  | .scanning result it =>
      listAnswer answer s (vlistKeyvalsLoop count keyPrefix result (s.nodes it))
  | .scanned result it =>
      listAnswer answer s (vlistKeyvalsLoop count keyPrefix result (s.nodes it).tail)
  | .unlocking a => some (a, s)
  | _ => none

/-- The loop of a range listing from two iterators on. -/
def rangeFrom (answer : List (Bulk × Bulk) → CallAnswer) (maxKeys : ℕ) (s : MapDataStore)
    (result it ub : List (Bulk × Bulk)) : Option (CallAnswer × MapDataStore) :=
  (vlistRangeLoop id maxKeys ub result it).map fun ps => (answer ps, s)

/-- A range listing from the first iterator on; `lower` are the nodes after the lower bound
and `upper` those from the upper bound on. -/
def rangeFromUpper (answer : List (Bulk × Bulk) → CallAnswer) (upperBound : Bulk)
    (maxKeys : ℕ) (s : MapDataStore) (lower : List (Bulk × Bulk)) :
    List (Bulk × Bulk) → Option (CallAnswer × MapDataStore)
  | [] => none
  | q :: rest =>
      rangeFrom answer maxKeys s [] lower (if q.1 ≠ upperBound then rest else q :: rest)

/-- What the rest of a range listing answers. -/
def rangeRest (answer : List (Bulk × Bulk) → CallAnswer) (lowerBound upperBound : Bulk)
    (maxKeys : ℕ) (s : MapDataStore) : Local → Option (CallAnswer × MapDataStore)
  | .entered =>
      (vlistRange id maxKeys s lowerBound upperBound).map fun ps => (answer ps, s)
  | .lowerFound none => some (answer [], s)
  | .lowerFound (some k) =>
      rangeFromUpper answer upperBound maxKeys s (s.nodes (some k))
        (OrderedMap.lowerBound (keycmp s.less) s.map upperBound)
  | .upperFound it ub => rangeFromUpper answer upperBound maxKeys s (s.nodes it) (s.nodes ub)
  | .ranging result it ub => rangeFrom answer maxKeys s result (s.nodes it) (s.nodes ub)
  | .ranged result it ub =>
      if maxKeys ≠ 0 ∧ result.length = maxKeys then some (answer result, s)
      else rangeFrom answer maxKeys s result (s.nodes it).tail (s.nodes ub)
  | .unlocking a => some (a, s)
  | _ => none

end MapDataStore

/-- What the rest of a call answers. -/
def MapOp.rest : MapOp → MapDataStore → MapDataStore.Local →
    Option (CallAnswer × MapDataStore)
  | put key data => MapDataStore.putRest key data
  | putMove key data => MapDataStore.putRest key data
  | putRaw key ksize value vsize =>
      MapDataStore.putRest (bulkOfPointer key ksize)
        (if vsize ≠ 0 then bulkOfPointer value vsize else [])
  | get key => MapDataStore.searchRest .data key
  | getValues key => MapDataStore.searchRest valuesAnswer key
  | length key => MapDataStore.searchRest sizeAnswer key
  | lengthRaw key ksize => MapDataStore.searchRest sizeAnswer (bulkOfPointer key ksize)
  | «exists» key => MapDataStore.existsRest key
  | existsRaw key ksize => MapDataStore.existsRest (bulkOfPointer key ksize)
  | erase key => MapDataStore.eraseRest key

/-- What the rest of a call answers. -/
def MapCall.rest : MapCall → MapDataStore → MapDataStore.Local →
    Option (CallAnswer × MapDataStore)
  | single op => op.rest
  | listKeys startKey count keyPrefix =>
      MapDataStore.listRest keysAnswer startKey count keyPrefix
  | listKeyvals startKey count keyPrefix =>
      MapDataStore.listRest .pairs startKey count keyPrefix
  | listKeyRange lowerBound upperBound maxKeys =>
      MapDataStore.rangeRest valuesAnswer lowerBound upperBound maxKeys
  | listKeyvalRange lowerBound upperBound maxKeys =>
      MapDataStore.rangeRest .pairs lowerBound upperBound maxKeys

namespace MapDataStore

/-- A state of the map with the comparison function `less`. -/
def Good (less : Option ComparatorFn) (s : MapDataStore) : Prop :=
  s.less = less ∧ OrderedMap.Sorted (keycmp less) s.map

/-- A step of a body does not change what the rest of it answers. -/
def KeepsAnswer (less : Option ComparatorFn) (body : MapDataStore → Local → Step)
    (rest : MapDataStore → Local → Option (CallAnswer × MapDataStore)) : Prop :=
  ∀ s l outcome s', Good less s → body s l = some (outcome, s') → Good less s' ∧
    match outcome with
    | .next l' => rest s' l' = rest s l
    | .done r _ => rest s l = some (r, s')

/-- A body that does not change the map, and gives the lock back. -/
def ReadsOnly (body : MapDataStore → Local → Step) : Prop :=
  ∀ s l outcome s', body s l = some (outcome, s') →
    s' = s ∧ ∀ r unlock, outcome = .done r unlock → unlock = true

/-- A body that gives the lock back. -/
def Unlocks (body : MapDataStore → Local → Step) : Prop :=
  ∀ s l r unlock s', body s l = some (.done r unlock, s') → unlock = true

section Bodies

variable {less : Option ComparatorFn}

theorem goto_eq_some {s s' : MapDataStore} {l : Local} {outcome : Outcome Local CallAnswer}
    (h : s.goto l = some (outcome, s')) : outcome = .next l ∧ s' = s := by
  cases h
  exact ⟨rfl, rfl⟩

theorem unlockAndReturn_eq_some {s s' : MapDataStore} {a : CallAnswer}
    {outcome : Outcome Local CallAnswer} (h : s.unlockAndReturn a = some (outcome, s')) :
    outcome = .done a true ∧ s' = s := by
  cases h
  exact ⟨rfl, rfl⟩

variable [IsStrictWeakOrder Bulk (keycmp less)]

theorem nodup_of_good {s : MapDataStore} (h : Good less s) : (s.map.map Prod.fst).Nodup :=
  OrderedMap.nodup_keys_of_sorted (keycmp less) h.2

theorem good_assign {s : MapDataStore} (h : Good less s) (key data : Bulk) :
    Good less { s with map := OrderedMap.assign (keycmp s.less) s.map key data } := by
  refine ⟨h.1, ?_⟩
  rw [h.1]
  exact OrderedMap.sorted_assign _ h.2 key data

theorem good_subscript {s : MapDataStore} (h : Good less s) (key : Bulk) :
    Good less (s.subscript key) := by
  unfold subscript
  split_ifs
  · exact good_assign h key []
  · exact h

/-- Assigning through `_map[key]` is binding the key. -/
theorem assign_subscript {s : MapDataStore} (h : Good less s) (key data : Bulk) :
    { s.subscript key with
      map := OrderedMap.assign (keycmp (s.subscript key).less) (s.subscript key).map key data } =
      { s with map := OrderedMap.assign (keycmp s.less) s.map key data } := by
  unfold subscript
  split_ifs
  · have : IsStrictWeakOrder Bulk (keycmp s.less) := by rwa [h.1]
    simp only [OrderedMap.assign_assign]
  · rfl

theorem keepsAnswer_put (key data : Bulk) :
    KeepsAnswer less (putBody key data) (putRest key data) := by
  intro s l outcome s' h hbody
  cases l with
  | entered =>
      obtain ⟨rfl, rfl⟩ := goto_eq_some hbody
      refine ⟨h, ?_⟩
      simp only [putRest, put]
      split_ifs <;> rfl
  | counted x =>
      rw [putBody] at hbody
      split_ifs at hbody with hrefused
      · obtain ⟨rfl, rfl⟩ := goto_eq_some hbody
        exact ⟨h, (if_pos hrefused).symm⟩
      · obtain ⟨rfl, rfl⟩ := goto_eq_some hbody
        refine ⟨good_subscript h key, ?_⟩
        simp only [putRest]
        rw [if_neg hrefused, assign_subscript h]
  | subscripted =>
      rw [putBody] at hbody
      split_ifs at hbody
      obtain ⟨rfl, rfl⟩ := goto_eq_some hbody
      exact ⟨good_assign h key data, rfl⟩
  | unlocking a =>
      obtain ⟨rfl, rfl⟩ := unlockAndReturn_eq_some hbody
      exact ⟨h, rfl⟩
  | _ => cases hbody

theorem keepsAnswer_search (answer : Option Bulk → MapAnswer) (key : Bulk) :
    KeepsAnswer less (searchBody answer key) (searchRest answer key) := by
  intro s l outcome s' h hbody
  cases l with
  | entered =>
      obtain ⟨rfl, rfl⟩ := goto_eq_some hbody
      refine ⟨h, ?_⟩
      show searchRest answer key s' _ = some (.single (answer (s'.get key)), s')
      rw [get, OrderedMap.lookup]
      cases hfind : OrderedMap.findEntry (keycmp s'.less) s'.map key with
      | none => rfl
      | some p =>
          obtain ⟨rest, hrest⟩ := exists_suffix_of_mem (List.mem_of_find?_eq_some hfind)
          have hnodes := nodes_iteratorTo (nodup_of_good h) hrest
          simp only [Option.map_some, searchRest, deref]
          rw [show s'.nodes (some p.1) = p :: rest from hnodes]
          rfl
  | searched it =>
      cases it with
      | none =>
          obtain ⟨rfl, rfl⟩ := goto_eq_some hbody
          exact ⟨h, rfl⟩
      | some k =>
          obtain ⟨p, hp, hgoto⟩ := Option.bind_eq_some_iff.1 hbody
          obtain ⟨rfl, rfl⟩ := goto_eq_some hgoto
          refine ⟨h, ?_⟩
          simp only [searchRest, hp, Option.map_some]
  | unlocking a =>
      obtain ⟨rfl, rfl⟩ := unlockAndReturn_eq_some hbody
      exact ⟨h, rfl⟩
  | _ => cases hbody

omit [IsStrictWeakOrder Bulk (keycmp less)] in
theorem keepsAnswer_exists (key : Bulk) :
    KeepsAnswer less (existsBody key) (existsRest key) := by
  intro s l outcome s' h hbody
  cases l with
  | entered =>
      obtain ⟨rfl, rfl⟩ := goto_eq_some hbody
      exact ⟨h, rfl⟩
  | unlocking a =>
      obtain ⟨rfl, rfl⟩ := unlockAndReturn_eq_some hbody
      exact ⟨h, rfl⟩
  | _ => cases hbody

omit [IsStrictWeakOrder Bulk (keycmp less)] in
theorem keepsAnswer_erase (key : Bulk) :
    KeepsAnswer less (eraseBody key) (eraseRest key) := by
  intro s l outcome s' h hbody
  cases l with
  | entered =>
      obtain ⟨rfl, rfl⟩ := goto_eq_some hbody
      exact ⟨h, rfl⟩
  | erasing b =>
      obtain ⟨rfl, rfl⟩ := goto_eq_some hbody
      refine ⟨⟨h.1, ?_⟩, rfl⟩
      rw [h.1]
      exact OrderedMap.sorted_erase _ h.2 key
  | unlocking a =>
      obtain ⟨rfl, rfl⟩ := unlockAndReturn_eq_some hbody
      exact ⟨h, rfl⟩
  | _ => cases hbody

theorem keepsAnswer_list (answer : List (Bulk × Bulk) → CallAnswer) (startKey : Bulk)
    (count : ℕ) (keyPrefix : Bulk) :
    KeepsAnswer less (listBody answer startKey count keyPrefix)
      (listRest answer startKey count keyPrefix) := by
  intro s l outcome s' h hbody
  cases l with
  | entered =>
      obtain ⟨rfl, rfl⟩ := goto_eq_some hbody
      refine ⟨h, ?_⟩
      simp only [listRest, vlistKeyvals]
      split_ifs
      · rw [nodes_iteratorTo (nodup_of_good h) (OrderedMap.upperBound_suffix _ _ _)]
      · rw [nodes_iteratorTo (nodup_of_good h) List.suffix_rfl]
  | scanning result it =>
      rw [listBody] at hbody
      split_ifs at hbody with hcond
      · obtain ⟨p, hp, hbody⟩ := Option.bind_eq_some_iff.1 hbody
        obtain ⟨rest, hnodes⟩ := deref_eq_some hp
        simp only [listRest, hnodes, vlistKeyvalsLoop, if_pos hcond.1]
        dsimp only at hbody
        split_ifs at hbody with hlong hzero hneg
        · obtain ⟨rfl, rfl⟩ := goto_eq_some hbody
          refine ⟨h, ?_⟩
          simp only [hnodes, vlistKeyvalsLoop, if_pos hcond.1, if_pos hlong]
        · obtain ⟨rfl, rfl⟩ := goto_eq_some hbody
          refine ⟨h, ?_⟩
          simp only [hnodes, List.tail_cons, if_neg hlong, if_pos hzero]
        · obtain ⟨rfl, rfl⟩ := goto_eq_some hbody
          refine ⟨h, ?_⟩
          simp only [listAnswer, if_neg hlong, if_neg hzero, if_pos hneg]
        · obtain ⟨rfl, rfl⟩ := goto_eq_some hbody
          refine ⟨h, ?_⟩
          simp only [hnodes, List.tail_cons, if_neg hlong, if_neg hzero, if_neg hneg]
      · obtain ⟨rfl, rfl⟩ := goto_eq_some hbody
        refine ⟨h, ?_⟩
        simp only [listRest]
        cases hnodes : s'.nodes it with
        | nil => rfl
        | cons p rest =>
            have hit : it ≠ none := by simp [eq_of_nodes hnodes]
            have hfull : ¬ result.length < count := fun hlt => hcond ⟨hlt, hit⟩
            rw [vlistKeyvalsLoop, if_neg hfull]
            rfl
  | scanned result it =>
      obtain ⟨rfl, rfl⟩ := goto_eq_some hbody
      refine ⟨h, ?_⟩
      simp only [listRest, nodes_next (nodup_of_good h)]
  | unlocking a =>
      obtain ⟨rfl, rfl⟩ := unlockAndReturn_eq_some hbody
      exact ⟨h, rfl⟩
  | _ => cases hbody

theorem keepsAnswer_range (answer : List (Bulk × Bulk) → CallAnswer)
    (lowerBound upperBound : Bulk) (maxKeys : ℕ) :
    KeepsAnswer less (rangeBody answer lowerBound upperBound maxKeys)
      (rangeRest answer lowerBound upperBound maxKeys) := by
  intro s l outcome s' h hbody
  cases l with
  | entered =>
      obtain ⟨rfl, rfl⟩ := goto_eq_some hbody
      refine ⟨h, ?_⟩
      have hnodes := nodes_iteratorTo (nodup_of_good h)
        (OrderedMap.upperBound_suffix (keycmp s'.less) s'.map lowerBound)
      simp only [rangeRest, vlistRange]
      cases hlower : OrderedMap.upperBound (keycmp s'.less) s'.map lowerBound with
      | nil => rfl
      | cons p it =>
          rw [hlower] at hnodes
          have hnodes' : s'.nodes (some p.1) = p :: it := hnodes
          simp only [iteratorTo, List.head?_cons, Option.map_some, hnodes']
          cases OrderedMap.lowerBound (keycmp s'.less) s'.map upperBound <;> rfl
  | lowerFound it =>
      cases it with
      | none =>
          cases hbody
          exact ⟨h, rfl⟩
      | some k =>
          obtain ⟨rfl, rfl⟩ := goto_eq_some hbody
          refine ⟨h, ?_⟩
          simp only [rangeRest,
            nodes_iteratorTo (nodup_of_good h) (OrderedMap.lowerBound_suffix _ _ _)]
  | upperFound it ub =>
      obtain ⟨p, hp, hgoto⟩ := Option.bind_eq_some_iff.1 hbody
      obtain ⟨rfl, rfl⟩ := goto_eq_some hgoto
      obtain ⟨rest, hnodes⟩ := deref_eq_some hp
      refine ⟨h, ?_⟩
      simp only [rangeRest, hnodes, rangeFromUpper]
      split_ifs
      · rw [nodes_next (nodup_of_good h), hnodes, List.tail_cons]
      · rw [hnodes]
  | ranging result it ub =>
      rw [rangeBody] at hbody
      split_ifs at hbody with hend
      · obtain ⟨rfl, rfl⟩ := goto_eq_some hbody
        refine ⟨h, ?_⟩
        subst hend
        simp only [rangeRest, rangeFrom]
        cases s'.nodes it with
        | nil => rfl
        | cons p rest => rw [vlistRangeLoop, if_pos (List.length_cons ..).symm]; rfl
      · obtain ⟨p, hp, hgoto⟩ := Option.bind_eq_some_iff.1 hbody
        obtain ⟨rfl, rfl⟩ := goto_eq_some hgoto
        obtain ⟨rest, hnodes⟩ := deref_eq_some hp
        refine ⟨h, ?_⟩
        have hlength : ¬ rest.length + 1 = (s'.nodes ub).length := fun heq =>
          hend ((eq_iff_length_nodes hnodes).2 heq)
        simp only [rangeRest, rangeFrom, hnodes, List.tail_cons, vlistRangeLoop, if_neg hlength,
          id_eq]
        split_ifs <;> rfl
  | ranged result it ub =>
      rw [rangeBody] at hbody
      split_ifs at hbody with hlimit
      · obtain ⟨rfl, rfl⟩ := goto_eq_some hbody
        exact ⟨h, (if_pos hlimit).symm⟩
      · obtain ⟨rfl, rfl⟩ := goto_eq_some hbody
        refine ⟨h, ?_⟩
        simp only [rangeRest, if_neg hlimit, nodes_next (nodup_of_good h)]
  | unlocking a =>
      obtain ⟨rfl, rfl⟩ := unlockAndReturn_eq_some hbody
      exact ⟨h, rfl⟩
  | _ => cases hbody

end Bodies

section Unlocks

theorem goto_unlocks {s s' : MapDataStore} {l : Local} {outcome : Outcome Local CallAnswer}
    (h : s.goto l = some (outcome, s')) :
    s' = s ∧ ∀ r unlock, outcome = .done r unlock → unlock = true := by
  cases h
  exact ⟨rfl, fun r unlock houtcome => by cases houtcome⟩

theorem unlockAndReturn_unlocks {s s' : MapDataStore} {a : CallAnswer}
    {outcome : Outcome Local CallAnswer} (h : s.unlockAndReturn a = some (outcome, s')) :
    s' = s ∧ ∀ r unlock, outcome = .done r unlock → unlock = true := by
  cases h
  refine ⟨rfl, fun r unlock houtcome => ?_⟩
  cases houtcome
  rfl

theorem readsOnly_search (answer : Option Bulk → MapAnswer) (key : Bulk) :
    ReadsOnly (searchBody answer key) := by
  intro s l outcome s' hbody
  cases l with
  | entered => exact goto_unlocks hbody
  | searched it =>
      cases it with
      | none => exact goto_unlocks hbody
      | some k =>
          obtain ⟨p, -, hgoto⟩ := Option.bind_eq_some_iff.1 hbody
          exact goto_unlocks hgoto
  | unlocking a => exact unlockAndReturn_unlocks hbody
  | _ => cases hbody

theorem readsOnly_exists (key : Bulk) : ReadsOnly (existsBody key) := by
  intro s l outcome s' hbody
  cases l with
  | entered => exact goto_unlocks hbody
  | unlocking a => exact unlockAndReturn_unlocks hbody
  | _ => cases hbody

theorem readsOnly_list (answer : List (Bulk × Bulk) → CallAnswer) (startKey : Bulk)
    (count : ℕ) (keyPrefix : Bulk) : ReadsOnly (listBody answer startKey count keyPrefix) := by
  intro s l outcome s' hbody
  cases l with
  | entered => exact goto_unlocks hbody
  | scanning result it =>
      rw [listBody] at hbody
      split_ifs at hbody with hcond
      · obtain ⟨p, -, hgoto⟩ := Option.bind_eq_some_iff.1 hbody
        dsimp only at hgoto
        split_ifs at hgoto <;> exact goto_unlocks hgoto
      · exact goto_unlocks hbody
  | scanned result it => exact goto_unlocks hbody
  | unlocking a => exact unlockAndReturn_unlocks hbody
  | _ => cases hbody

/-- A range listing reads only, and it keeps the lock at most when it has found nothing after
its lower bound. -/
theorem rangeBody_reads (answer : List (Bulk × Bulk) → CallAnswer)
    (lowerBound upperBound : Bulk) (maxKeys : ℕ) {s s' : MapDataStore} {l : Local}
    {outcome : Outcome Local CallAnswer}
    (hbody : rangeBody answer lowerBound upperBound maxKeys s l = some (outcome, s')) :
    s' = s ∧ (l ≠ .lowerFound none → ∀ r unlock, outcome = .done r unlock → unlock = true) := by
  have hgoto : ∀ {l'}, s.goto l' = some (outcome, s') → s' = s ∧
      (l ≠ .lowerFound none → ∀ r unlock, outcome = .done r unlock → unlock = true) :=
    fun h => ⟨(goto_unlocks h).1, fun _ => (goto_unlocks h).2⟩
  cases l with
  | entered => exact hgoto hbody
  | lowerFound it =>
      cases it with
      | none =>
          cases hbody
          exact ⟨rfl, fun h => absurd rfl h⟩
      | some k => exact hgoto hbody
  | upperFound it ub =>
      obtain ⟨p, -, hbody⟩ := Option.bind_eq_some_iff.1 hbody
      exact hgoto hbody
  | ranging result it ub =>
      rw [rangeBody] at hbody
      split_ifs at hbody
      · exact hgoto hbody
      · obtain ⟨p, -, hbody⟩ := Option.bind_eq_some_iff.1 hbody
        exact hgoto hbody
  | ranged result it ub =>
      rw [rangeBody] at hbody
      split_ifs at hbody <;> exact hgoto hbody
  | unlocking a =>
      have hunlock := unlockAndReturn_unlocks hbody
      exact ⟨hunlock.1, fun _ => hunlock.2⟩
  | _ => cases hbody

theorem unlocks_put (key data : Bulk) : Unlocks (putBody key data) := by
  intro s l r unlock s' hbody
  cases l with
  | entered => exact (goto_unlocks hbody).2 r unlock rfl
  | counted x =>
      rw [putBody] at hbody
      split_ifs at hbody <;> exact (goto_unlocks hbody).2 r unlock rfl
  | subscripted =>
      rw [putBody] at hbody
      split_ifs at hbody
      exact (goto_unlocks hbody).2 r unlock rfl
  | unlocking a => exact (unlockAndReturn_unlocks hbody).2 r unlock rfl
  | _ => cases hbody

theorem unlocks_erase (key : Bulk) : Unlocks (eraseBody key) := by
  intro s l r unlock s' hbody
  cases l with
  | entered => exact (goto_unlocks hbody).2 r unlock rfl
  | erasing b => exact (goto_unlocks hbody).2 r unlock rfl
  | unlocking a => exact (unlockAndReturn_unlocks hbody).2 r unlock rfl
  | _ => cases hbody

end Unlocks

theorem vlistRangeLoop_map {α : Type} (push : Bulk × Bulk → α) (maxKeys : ℕ)
    (ub result it : List (Bulk × Bulk)) :
    vlistRangeLoop push maxKeys ub (result.map push) it =
      (vlistRangeLoop id maxKeys ub result it).map (List.map push) := by
  induction it generalizing result with
  | nil =>
      rw [vlistRangeLoop, vlistRangeLoop]
      split_ifs <;> rfl
  | cons p it ih =>
      have hpush := ih (result ++ [p])
      rw [List.map_append, List.map_singleton] at hpush
      simp only [vlistRangeLoop, id_eq, List.length_append, List.length_map,
        List.length_singleton]
      split_ifs
      · rfl
      · simp
      · exact hpush

theorem vlistRange_map {α : Type} (push : Bulk × Bulk → α) (maxKeys : ℕ) (s : MapDataStore)
    (lowerBound upperBound : Bulk) :
    vlistRange push maxKeys s lowerBound upperBound =
      (vlistRange id maxKeys s lowerBound upperBound).map (List.map push) := by
  unfold vlistRange
  cases OrderedMap.upperBound (keycmp s.less) s.map lowerBound with
  | nil => rfl
  | cons p it =>
      cases OrderedMap.lowerBound (keycmp s.less) s.map upperBound with
      | nil => rfl
      | cons q rest => exact vlistRangeLoop_map push maxKeys _ [] _

end MapDataStore

/-- From the beginning, a call answers what it answers on a database that nobody else
uses. -/
theorem MapCall.rest_entered (call : MapCall) (s : MapDataStore) :
    call.rest s .entered = MapCall.exec s call := by
  cases call with
  | single op =>
      cases op with
      | putRaw key ksize value vsize =>
          simp only [rest, MapOp.rest, MapDataStore.putRest, exec, MapOp.exec,
            MapDataStore.putRaw]
          split_ifs <;> rfl
      | getValues key =>
          simp only [rest, MapOp.rest, MapDataStore.searchRest, exec, MapOp.exec,
            MapDataStore.getValues]
          cases s.get key <;> rfl
      | _ => rfl
  | listKeys startKey count keyPrefix =>
      simp only [rest, MapDataStore.listRest, exec, MapDataStore.vlistKeys_eq]
      cases s.vlistKeyvals startKey count keyPrefix <;> rfl
  | listKeyvals startKey count keyPrefix =>
      simp only [rest, MapDataStore.listRest, exec]
      cases s.vlistKeyvals startKey count keyPrefix <;> rfl
  | listKeyRange lowerBound upperBound maxKeys =>
      simp only [rest, MapDataStore.rangeRest, exec, MapDataStore.vlistKeyRange,
        MapDataStore.vlistRange_map Prod.snd, Option.map_map]
      rfl
  | listKeyvalRange lowerBound upperBound maxKeys => rfl

theorem MapCall.keepsAnswer (less : Option ComparatorFn) [IsStrictWeakOrder Bulk (keycmp less)]
    (call : MapCall) : MapDataStore.KeepsAnswer less call.body call.rest := by
  cases call with
  | single op =>
      cases op with
      | put key data | putMove key data => exact MapDataStore.keepsAnswer_put key data
      | putRaw key ksize value vsize => exact MapDataStore.keepsAnswer_put _ _
      | get key => exact MapDataStore.keepsAnswer_search .data key
      | getValues key => exact MapDataStore.keepsAnswer_search MapOp.valuesAnswer key
      | length key => exact MapDataStore.keepsAnswer_search MapOp.sizeAnswer key
      | lengthRaw key ksize => exact MapDataStore.keepsAnswer_search MapOp.sizeAnswer _
      | «exists» key => exact MapDataStore.keepsAnswer_exists key
      | existsRaw key ksize => exact MapDataStore.keepsAnswer_exists _
      | erase key => exact MapDataStore.keepsAnswer_erase key
  | listKeys startKey count keyPrefix =>
      exact MapDataStore.keepsAnswer_list keysAnswer startKey count keyPrefix
  | listKeyvals startKey count keyPrefix =>
      exact MapDataStore.keepsAnswer_list .pairs startKey count keyPrefix
  | listKeyRange lowerBound upperBound maxKeys =>
      exact MapDataStore.keepsAnswer_range valuesAnswer lowerBound upperBound maxKeys
  | listKeyvalRange lowerBound upperBound maxKeys =>
      exact MapDataStore.keepsAnswer_range .pairs lowerBound upperBound maxKeys

namespace MapCall

/-- The two range listings. -/
def isRange : MapCall → Bool
  | listKeyRange _ _ _ | listKeyvalRange _ _ _ => true
  | _ => false

theorem readsOnly {call : MapCall} (hwrite : call.isWrite = false) (hrange : call.isRange = false) :
    MapDataStore.ReadsOnly call.body := by
  cases call with
  | single op =>
      cases op with
      | put | putMove | putRaw | erase => cases hwrite
      | get key => exact MapDataStore.readsOnly_search .data key
      | getValues key => exact MapDataStore.readsOnly_search MapOp.valuesAnswer key
      | length key => exact MapDataStore.readsOnly_search MapOp.sizeAnswer key
      | lengthRaw key ksize => exact MapDataStore.readsOnly_search MapOp.sizeAnswer _
      | «exists» key => exact MapDataStore.readsOnly_exists key
      | existsRaw key ksize => exact MapDataStore.readsOnly_exists _
  | listKeys startKey count keyPrefix =>
      exact MapDataStore.readsOnly_list keysAnswer startKey count keyPrefix
  | listKeyvals startKey count keyPrefix =>
      exact MapDataStore.readsOnly_list .pairs startKey count keyPrefix
  | listKeyRange | listKeyvalRange => cases hrange

theorem body_of_isRange {call : MapCall} (hrange : call.isRange = true) :
    ∃ answer lowerBound upperBound maxKeys,
      call.body = MapDataStore.rangeBody answer lowerBound upperBound maxKeys := by
  cases call with
  | listKeyRange lowerBound upperBound maxKeys =>
      exact ⟨valuesAnswer, lowerBound, upperBound, maxKeys, rfl⟩
  | listKeyvalRange lowerBound upperBound maxKeys =>
      exact ⟨.pairs, lowerBound, upperBound, maxKeys, rfl⟩
  | _ => cases hrange

theorem unlocks_of_isWrite {call : MapCall} (hwrite : call.isWrite = true) :
    MapDataStore.Unlocks call.body := by
  cases call with
  | single op =>
      cases op with
      | put key data | putMove key data => exact MapDataStore.unlocks_put key data
      | putRaw key ksize value vsize => exact MapDataStore.unlocks_put _ _
      | erase key => exact MapDataStore.unlocks_erase key
      | _ => cases hwrite
  | _ => cases hwrite

end MapCall

theorem mapMethods_implements (less : Option ComparatorFn)
    [IsStrictWeakOrder Bulk (keycmp less)] :
    Implements mapMethods MapCall.exec (MapDataStore.Good less)
      (fun call l s => call.rest s l) where
  start call s _ := call.rest_entered s
  next call l s l' s' h hbody := (call.keepsAnswer less s l _ s' h hbody).symm
  done call l s r unlock s' h hbody := (call.keepsAnswer less s l _ s' h hbody).symm
  readOnly call l s outcome s' hop hbody := by
    cases hrange : call.isRange with
    | false => exact (MapCall.readsOnly hop hrange s l outcome s' hbody).1
    | true =>
        obtain ⟨answer, lowerBound, upperBound, maxKeys, heq⟩ := MapCall.body_of_isRange hrange
        have hbody' : call.body s l = some (outcome, s') := hbody
        rw [heq] at hbody'
        exact (MapDataStore.rangeBody_reads answer lowerBound upperBound maxKeys hbody').1
  releases call l s r unlock s' hop hbody :=
    MapCall.unlocks_of_isWrite hop s l r unlock s' hbody

/-- Whatever the order in which the threads make the steps of their calls on the databases of a
provider, what they see is what they would see if every call took effect at one moment between
its invocation and its answer, one call after the other. While nobody is inside a method that
writes to a database, its map is that of the calls that have taken effect. -/
theorem mapDatabases_linearizable {κ Tid : Type*} [DecidableEq κ] [DecidableEq Tid]
    (less : κ → Option ComparatorFn) [∀ k, IsStrictWeakOrder Bulk (keycmp (less k))]
    (s : κ → MapDataStore) (hs : ∀ k, MapDataStore.Good (less k) (s k))
    (as : List (κ × Action Tid MapCall))
    (c : κ → Guarded MapDataStore Tid MapCall CallAnswer MapDataStore.Local)
    (hrun : run? (piStep (Guarded.step mapMethods)) (fun k => Guarded.start (s k)) as = some c) :
    ∃ o, LinearizableTo (piSpec MapCall.exec) s
        (observed (piStep (Guarded.step mapMethods)) (piEvent event)
          (fun k => Guarded.start (s k)) as) o ∧
      ∀ k, (∀ t call l, (c k).phase t = .inside call l → call.isWrite = false) →
        (c k).store = o.state k := by
  obtain ⟨o, ho, o', hrelated, rfl⟩ := linearizableTo_of_simulates (piSpec MapCall.exec)
    (simulates_pi fun k => simulates_atomicObject (mapMethods_implements (less k)))
    ⟨fun k => AtomicObject.start (s k), fun k => related_start (hs k), rfl⟩ hrun
  exact ⟨_, ho, fun k => (hrelated k).agree⟩

/-- Thread 0 puts a key into database 0 while threads 1 and 2 read it: one of them gets the lock
before the put, the other after it. Meanwhile thread 0 erases the key in database 1. -/
def putBetweenGets : List (ℕ × Action ℕ MapCall) :=
  [(0, .invoke 0 (.single (.put [1] [7]))), (0, .invoke 1 (.single (.get [1]))),
    (1, .invoke 0 (.single (.erase [1]))), (0, .invoke 2 (.single (.get [1]))), (0, .acquire 1),
    (0, .advance 1), (0, .advance 1), (1, .acquire 0), (0, .advance 1), (0, .acquire 0),
    (0, .advance 0), (1, .advance 0), (0, .advance 0), (0, .advance 0), (0, .respond 1),
    (1, .advance 0), (0, .advance 0), (1, .advance 0), (0, .acquire 2), (0, .advance 2),
    (0, .advance 2), (0, .advance 2), (1, .respond 0), (0, .respond 2), (0, .respond 0)]

theorem mapDatabases_linearizable_putBetweenGets :
    ∃ c, run? (piStep (Guarded.step mapMethods)) (fun _ => Guarded.start MapDataStore.new)
        putBetweenGets = some c ∧
      ∃ o, LinearizableTo (piSpec MapCall.exec) (fun _ => MapDataStore.new)
          (observed (piStep (Guarded.step mapMethods)) (piEvent event)
            (fun _ => Guarded.start MapDataStore.new) putBetweenGets) o ∧
        ∀ k, (∀ t call l, (c k).phase t = .inside call l → call.isWrite = false) →
          (c k).store = o.state k :=
  ⟨_, rfl, mapDatabases_linearizable (fun _ => none) (fun _ => MapDataStore.new)
    (fun _ => ⟨rfl, .nil⟩) putBetweenGets _ rfl⟩

section Lock

variable {Tid : Type*}

/-- The step in which a range listing returns because nothing is after its lower bound. -/
def ReturnsEarly (c : Guarded MapDataStore Tid MapCall CallAnswer MapDataStore.Local) :
    Action Tid MapCall → Prop
  | .advance t => ∃ call, c.phase t = .inside call (.lowerFound none)
  | _ => False

/-- Only the early return of a range listing keeps the lock. -/
theorem MapCall.lowerFound_of_keeps {call : MapCall} {s s' : MapDataStore}
    {l : MapDataStore.Local} {r : CallAnswer} (hbody : call.body s l = some (.done r false, s')) :
    l = .lowerFound none := by
  cases hrange : call.isRange with
  | true =>
      obtain ⟨answer, lowerBound, upperBound, maxKeys, heq⟩ := MapCall.body_of_isRange hrange
      rw [heq] at hbody
      by_contra hne
      have hunlock := (MapDataStore.rangeBody_reads answer lowerBound upperBound maxKeys hbody).2
      cases hunlock hne r false rfl
  | false =>
      cases hwrite : call.isWrite with
      | true => cases MapCall.unlocks_of_isWrite hwrite s l r false s' hbody
      | false => cases (MapCall.readsOnly hwrite hrange s l _ s' hbody).2 r false rfl

/-- What a call does when it has found nothing after its lower bound. -/
theorem MapCall.keeps_of_lowerFound {call : MapCall} {s s' : MapDataStore}
    {outcome : Outcome MapDataStore.Local CallAnswer}
    (hbody : call.body s (.lowerFound none) = some (outcome, s')) :
    ∃ r, outcome = .done r false := by
  cases call with
  | single op => cases op <;> cases hbody
  | listKeys | listKeyvals => cases hbody
  | listKeyRange | listKeyvalRange =>
      cases hbody
      exact ⟨_, rfl⟩

theorem forgotten_eq_none_iff [DecidableEq Tid]
    {c c' : Guarded MapDataStore Tid MapCall CallAnswer MapDataStore.Local}
    {a : Action Tid MapCall} (hstep : c.step mapMethods a = some c') :
    c.forgotten mapMethods a = none ↔ ¬ ReturnsEarly c a := by
  cases stepped_of_step hstep with
  | invoke hphase => exact iff_of_true rfl id
  | acquire hphase hlock => exact iff_of_true rfl id
  | @next t call l l' s hphase hbody =>
      have hnot : ¬ ReturnsEarly c (.advance t) := by
        rintro ⟨call', hearly⟩
        rw [hphase] at hearly
        cases hearly
        obtain ⟨r, houtcome⟩ := MapCall.keeps_of_lowerFound hbody
        cases houtcome
      exact iff_of_true (by simp only [forgotten, hphase, hbody]) hnot
  | @done t call l r unlock s hphase hbody =>
      cases unlock with
      | true =>
          have hnot : ¬ ReturnsEarly c (.advance t) := by
            rintro ⟨call', hearly⟩
            rw [hphase] at hearly
            cases hearly
            obtain ⟨r, houtcome⟩ := MapCall.keeps_of_lowerFound hbody
            cases houtcome
          exact iff_of_true (by simp only [forgotten, hphase, hbody]) hnot
      | false =>
          have hearly : ReturnsEarly c (.advance t) :=
            ⟨call, by rw [hphase, MapCall.lowerFound_of_keeps hbody]⟩
          exact iff_of_false (by simp only [forgotten, hphase, hbody]; simp)
            (not_not_intro hearly)
  | respond hphase => exact iff_of_true rfl id

/-- Which threads can be inside, and which can get the lock. While a thread is inside a
method that writes, it is inside alone. When nobody is inside, a thread that waits can get
the lock, except to write after a range listing has returned early. After that no thread gets
the lock to write, in any state. -/
theorem mapDataStore_lock [DecidableEq Tid] (s : MapDataStore) (as : List (Action Tid MapCall))
    (c : Guarded MapDataStore Tid MapCall CallAnswer MapDataStore.Local)
    (hrun : run? (Guarded.step mapMethods) (Guarded.start s) as = some c) :
    (∀ t call l t', c.phase t = .inside call l → call.isWrite = true → c.IsInside t' → t' = t) ∧
    ((∀ t, ¬ c.IsInside t) → ∀ t call, c.phase t = .waiting call →
      ((c.step mapMethods (.acquire t)).isSome ↔ call.isWrite = false ∨
        holdsAlong (Guarded.step mapMethods) (fun c a => ¬ ReturnsEarly c a) (Guarded.start s)
          as)) ∧
    (¬ holdsAlong (Guarded.step mapMethods) (fun c a => ¬ ReturnsEarly c a) (Guarded.start s) as →
      ∀ t call, c.phase t = .waiting call → call.isWrite = true →
        c.step mapMethods (.acquire t) = none) := by
  have hreleases : Releases mapMethods := fun call l s r unlock s' hop hbody =>
    MapCall.unlocks_of_isWrite hop s l r unlock s' hbody
  have hforgotten : observed (Guarded.step mapMethods) (forgotten mapMethods) (Guarded.start s) as
      = [] ↔ holdsAlong (Guarded.step mapMethods) (fun c a => ¬ ReturnsEarly c a)
        (Guarded.start s) as := by
    rw [observed_eq_nil_iff hrun]
    exact holdsAlong_congr_of_run (fun c a c' hstep => forgotten_eq_none_iff hstep) hrun
  refine ⟨?_, ?_, ?_⟩
  · intro t call l t' ht hwrite hinside
    exact exclusive_alone hreleases hrun ht hwrite hinside
  · intro hnobody t call ht
    rw [acquire_isSome_iff hreleases hrun hnobody ht, hforgotten]
    rfl
  · intro hearly t call ht hwrite
    rw [← hforgotten] at hearly
    exact acquire_eq_none_of_forgotten hreleases hrun hearly ht hwrite

/-- Thread 0 lists a range of an empty database, and thread 1 waits to put a key. -/
def putAfterEarlyReturn : List (Action ℕ MapCall) :=
  [.invoke 0 (.listKeyRange [0] [1] 0), .invoke 1 (.single (.put [1] [7])), .acquire 0,
    .advance 0, .advance 0, .respond 0]

theorem mapDataStore_lock_putAfterEarlyReturn :
    ∃ c, run? (Guarded.step mapMethods) (Guarded.start MapDataStore.new) putAfterEarlyReturn =
        some c ∧ c.step mapMethods (.acquire 1) = none := by
  refine ⟨_, rfl, ?_⟩
  refine (mapDataStore_lock MapDataStore.new putAfterEarlyReturn _ rfl).2.2 ?_ 1
    (.single (.put [1] [7])) rfl rfl
  intro hnever
  rw [holdsAlong_iff_forall_step] at hnever
  exact hnever (putAfterEarlyReturn.take 4) (.advance 0) [.respond 0] _ rfl rfl
    ⟨.listKeyRange [0] [1] 0, rfl⟩

end Lock

end Sdskv
