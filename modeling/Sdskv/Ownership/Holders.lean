import Mathlib.Data.Finset.Card
import Mathlib.Data.Finset.Update
import Mathlib.Logic.Function.Basic

/-!
# Holders of a shared resource

A finite set `live` of objects, each of which holds one resource or none, is a
function `held : ι → Option κ` read on `live`. `holders live held h` are the
objects that hold `h`. An object that appears, disappears or changes what it
holds changes the number of holders of a resource by its `share` only.
-/

namespace Ownership

variable {ι κ : Type*} [DecidableEq κ]

/-- The objects of `live` that hold `h`. -/
def holders (live : Finset ι) (held : ι → Option κ) (h : κ) : Finset ι :=
  live.filter fun a => held a = some h

/-- What an object that holds `v` adds to the number of holders of `h`. -/
def share (v : Option κ) (h : κ) : ℕ := if v = some h then 1 else 0

@[simp] theorem share_none (h : κ) : share none h = 0 := rfl

@[simp] theorem share_self (h : κ) : share (some h) h = 1 := if_pos rfl

theorem share_of_ne {h h' : κ} (hne : h' ≠ h) : share (some h) h' = 0 := by
  rw [share, if_neg]
  intro heq
  exact hne (Option.some.inj heq).symm

variable {live : Finset ι} {held : ι → Option κ} {a : ι}

theorem mem_holders {h : κ} : a ∈ holders live held h ↔ a ∈ live ∧ held a = some h :=
  Finset.mem_filter

section

variable [DecidableEq ι]

theorem card_holders_insert (ha : a ∉ live) (held : ι → Option κ) (v : Option κ) (h : κ) :
    (holders (insert a live) (Function.update held a v) h).card =
      (holders live held h).card + share v h := by
  have hrest : live.filter (fun b => Function.update held a v b = some h) =
      holders live held h := by
    refine Finset.filter_congr fun b hb => ?_
    have hne : b ≠ a := fun heq => ha (heq ▸ hb)
    rw [Function.update_of_ne hne]
  rw [holders, Finset.filter_insert, Function.update_self, hrest, share]
  split
  · rw [Finset.card_insert_of_notMem]
    intro hmem
    exact ha (mem_holders.1 hmem).1
  · rfl

theorem card_holders_erase (ha : a ∈ live) (held : ι → Option κ) (h : κ) :
    (holders (live.erase a) held h).card + share (held a) h = (holders live held h).card := by
  have hinsert := card_holders_insert (Finset.notMem_erase a live) held (held a) h
  rw [Finset.insert_erase ha, Function.update_eq_self] at hinsert
  exact hinsert.symm

theorem card_holders_update (ha : a ∈ live) (held : ι → Option κ) (v : Option κ) (h : κ) :
    (holders live (Function.update held a v) h).card + share (held a) h =
      (holders live held h).card + share v h := by
  have hinsert := card_holders_insert (Finset.notMem_erase a live) held v h
  rw [Finset.insert_erase ha] at hinsert
  have herase := card_holders_erase ha held h
  omega

end

theorem one_le_card_holders (ha : a ∈ live) {h : κ} (hheld : held a = some h) :
    1 ≤ (holders live held h).card :=
  Finset.card_pos.2 ⟨a, mem_holders.2 ⟨ha, hheld⟩⟩

theorem card_holders_le (live : Finset ι) (held : ι → Option κ) (h : κ) :
    (holders live held h).card ≤ live.card :=
  Finset.card_filter_le _ _

/-- Resources that are all held are at most as many as the objects. -/
theorem card_le_of_forall_held {resources : Finset κ}
    (hheld : ∀ h ∈ resources, 0 < (holders live held h).card) :
    resources.card ≤ live.card := by
  have hsubset : resources.image some ⊆ live.image held := by
    intro v hv
    obtain ⟨h, hh, rfl⟩ := Finset.mem_image.1 hv
    obtain ⟨a, ha⟩ := Finset.card_pos.1 (hheld h hh)
    exact Finset.mem_image.2 ⟨a, mem_holders.1 ha⟩
  calc resources.card = (resources.image some).card :=
        (Finset.card_image_of_injective _ (Option.some_injective κ)).symm
    _ ≤ (live.image held).card := Finset.card_le_card hsubset
    _ ≤ live.card := Finset.card_image_le

end Ownership
