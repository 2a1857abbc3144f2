import Sdskv.Rpc.Bounds.Walk
import Sdskv.Rpc.GetMulti

/-!
# When `sdskv_get_multi_ult` stays inside of the buffers

The sizes that the client has allocated stand in front of the buffer that the values are
copied to. As long as the array has not wrapped around, an iteration finds the size that the
client has sent, so what is copied is the value if it fits into this size.

A loop that does not end goes over the slots again. A slot with room for the value of the
empty key keeps it, and the value is copied once more in each round.
-/

namespace Sdskv

open Wire

/-- The values that a get copies lie in their buffer. -/
def ValuesFit (contents : Bulk → Option Bulk) (keysBuffer valsBuffer : Bulk) (numKeys : ℕ) :
    Prop :=
  if numKeys < 2 ^ 32 then
    let keys := cutItems keysBuffer (8 * numKeys) (readArray 8 keysBuffer numKeys)
    let values := List.zipWith (fittedValue contents) keys (readArray 8 valsBuffer numKeys)
    8 * numKeys + values.flatten.length ≤ valsBuffer.length
  else
    8 * 2 ^ 32 ≤ valsBuffer.length ∧
      ∀ vsize ∈ readArray 8 valsBuffer (2 ^ 32), fittedValue contents [] vsize = []

section GetMulti

variable {σ : Type} {ds : DatastoreReads σ} {view : σ → Bulk → Option Bulk}

/-- What an iteration that packs a value does to the buffer of the values: it stores the size
of the value and copies its bytes behind the array. With a number of keys whose array wraps
around, the copy may change sizes in the array. -/
structure Packs (value : Bulk) (packedValues i offset : ℕ) (vals vals' : Bulk) (advance : ℕ) :
    Prop where
  length : vals'.length = vals.length
  other : ∀ j, j ≠ i → value.length = 0 ∨ 8 * j + 8 ≤ packedValues + offset →
    wordAt vals' j = wordAt vals j
  own : value.length = 0 ∨ 8 * i + 8 ≤ packedValues + offset →
    wordAt vals' i = value.length ∧ advance = value.length

section Step

variable {packedValues i offset : ℕ} {key : Bulk} {s : σ} {vals : Bulk}

/-- The size and the value of an iteration are in the buffer. -/
def PacksInside (contents : Bulk → Option Bulk) (packedValues i : ℕ) (key : Bulk)
    (vals : Bulk) (offset : ℕ) : Prop :=
  8 * i + 8 ≤ vals.length ∧
    ((fittedValue contents key (wordAt vals i)).length = 0 ∨
      packedValues + offset + (fittedValue contents key (wordAt vals i)).length ≤ vals.length)

theorem getMultiAct_of_inside (h : ServesReads ds view)
    (hinside : PacksInside (view s) packedValues i key vals offset) :
    ∃ vals' advance,
      getMultiAct ds packedValues i key (s, vals, offset) =
        some ((ds.get s key).2, vals', offset + advance) ∧
      Packs (fittedValue (view s) key (wordAt vals i)) packedValues i offset vals vals'
        advance := by
  obtain ⟨hword, hroom⟩ := hinside
  have hfits := length_fittedValue_le (view s) key (wordAt vals i)
  have hlt := wordAt_lt vals i
  rw [getMultiAct_eq h, readWord_of_le hword, Option.bind_some]
  generalize fittedValue (view s) key (wordAt vals i) = value at hfits hroom
  obtain ⟨vals₁, hwrite, hlength₁⟩ := exists_writeWord hword value.length
  have hcopyroom : value = [] ∨ packedValues + offset + value.length ≤ vals₁.length := by
    rw [hlength₁, ← List.length_eq_zero_iff]
    exact hroom
  obtain ⟨vals', hcopy⟩ := Option.ne_none_iff_exists'.1 (writeBytes_ne_none_iff.2 hcopyroom)
  have hlength : vals'.length = vals.length := (length_writeBytes hcopy).trans hlength₁
  have hcopied : ∀ j, value.length = 0 ∨ 8 * j + 8 ≤ packedValues + offset →
      wordAt vals' j = wordAt vals₁ j := by
    intro j hapart
    obtain hzero | hbefore := hapart
    · rw [List.length_eq_zero_iff] at hzero
      rw [hzero, writeBytes_nil] at hcopy
      cases hcopy
      rfl
    · exact wordAt_writeBytes hcopy (Or.inl hbefore)
  have hword' : 8 * i + 8 ≤ vals'.length := by rwa [hlength]
  refine ⟨vals', wordAt vals' i, ?_, hlength, ?_, ?_⟩
  · rw [hwrite, Option.bind_some, hcopy, Option.bind_some, readWord_of_le hword',
      Option.map_some]
  · intro j hj hapart
    rw [hcopied j hapart]
    apply wordAt_writeBytes hwrite
    rw [length_leBytes]
    omega
  · intro hapart
    have hread := readWord_writeWord hwrite (show value.length < 2 ^ 64 by omega)
    rw [readWord_of_le (by rw [hlength₁]; exact hword), Option.some.injEq] at hread
    rw [hcopied i hapart, hread]
    exact ⟨rfl, rfl⟩

theorem inside_of_getMultiAct (h : ServesReads ds view)
    (hsome : getMultiAct ds packedValues i key (s, vals, offset) ≠ none) :
    PacksInside (view s) packedValues i key vals offset := by
  rw [getMultiAct_eq h] at hsome
  have hword : 8 * i + 8 ≤ vals.length := by
    by_contra hout
    rw [readWord_of_lt (by omega)] at hsome
    exact hsome rfl
  refine ⟨hword, ?_⟩
  rw [readWord_of_le hword, Option.bind_some] at hsome
  obtain ⟨vals₁, hwrite, hlength₁⟩ :=
    exists_writeWord hword (fittedValue (view s) key (wordAt vals i)).length
  rw [hwrite, Option.bind_some] at hsome
  by_contra hout
  have hnone : writeBytes vals₁ (packedValues + offset)
      (fittedValue (view s) key (wordAt vals i)) = none := by
    by_contra hcopy
    rw [← ne_eq, writeBytes_ne_none_iff, hlength₁, ← List.length_eq_zero_iff] at hcopy
    exact hout hcopy
  rw [hnone] at hsome
  exact hsome rfl

end Step

/-- The iterations of a get whose array of sizes has not wrapped around: each of the sizes is
still the one that the client has sent. -/
theorem forItems_getMultiAct_ne_none_iff (h : ServesReads ds view)
    {contents : Bulk → Option Bulk} {packedValues : ℕ} (keys : List Bulk) {i : ℕ} {s : σ}
    (hs : view s = contents) {vals : Bulk} {offset : ℕ}
    (hpacked : 8 * (i + keys.length) ≤ packedValues) :
    forItems (getMultiAct ds packedValues) i keys (s, vals, offset) ≠ none ↔
      (keys.length = 0 ∨ 8 * (i + keys.length) ≤ vals.length) ∧
        ((List.zipWith (fittedValue contents) keys
            (wordsFrom vals i keys.length)).flatten.length = 0 ∨
          packedValues + offset + (List.zipWith (fittedValue contents) keys
            (wordsFrom vals i keys.length)).flatten.length ≤ vals.length) := by
  induction keys generalizing i s vals offset with
  | nil => simp [forItems]
  | cons key keys ih =>
      rw [List.length_cons] at hpacked
      rw [forItems, List.length_cons, wordsFrom_succ, List.zipWith_cons_cons,
        List.flatten_cons, List.length_append]
      by_cases hinside : PacksInside contents packedValues i key vals offset
      · rw [← hs] at hinside
        obtain ⟨vals', advance, hact, hlength, hother, hown⟩ := getMultiAct_of_inside h hinside
        obtain ⟨-, rfl⟩ := hown (Or.inr (by omega))
        have hwords : wordsFrom vals' (i + 1) keys.length =
            wordsFrom vals (i + 1) keys.length := by
          apply List.map_congr_left
          intro j hj
          rw [List.mem_range'_1] at hj
          exact hother j (by omega) (Or.inr (by omega))
        obtain ⟨hword, hroom⟩ := hinside
        rw [hact, Option.bind_some, ih ((h.get s key).2.trans hs) (by omega), hwords, hlength]
        rw [hs] at hroom ⊢
        omega
      · have hnone : getMultiAct ds packedValues i key (s, vals, offset) = none := by
          by_contra hsome
          have hinside' := inside_of_getMultiAct h hsome
          rw [hs] at hinside'
          exact hinside hinside'
        rw [hnone, Option.bind_none]
        rw [PacksInside] at hinside
        simp only [ne_eq, not_true_eq_false, false_iff]
        omega

section Endless

variable {contents : Bulk → Option Bulk} {packedValues : ℕ}

theorem fittedValue_length (contents : Bulk → Option Bulk) (key : Bulk) (vsize : ℕ) :
    fittedValue contents key (fittedValue contents key vsize).length =
      fittedValue contents key vsize := by
  cases hvalue : contents key with
  | none => simp [fittedValue, hvalue]
  | some w =>
      by_cases hle : w.length ≤ vsize
      · simp [fittedValue, hvalue, hle]
      · simp only [fittedValue, hvalue, if_neg hle, List.length_nil]
        split_ifs with hnil
        · exact List.length_eq_zero_iff.1 (Nat.le_zero.1 hnil)
        · rfl

/-- A slot whose size is not reached by the copies keeps room for the value of the empty key,
so each round that goes over it copies the value once more. -/
theorem forItems_getMultiAct_grows (h : ServesReads ds view) {slot : ℕ}
    (hslot : 8 * slot + 8 ≤ packedValues) (m : ℕ) {i : ℕ} {s s' : σ} {vals vals' : Bulk}
    {offset offset' : ℕ} (hs : view s = contents)
    (hfits : 0 < (fittedValue contents [] (wordAt vals slot)).length)
    (hrun : forItems (getMultiAct ds packedValues) i (List.replicate m []) (s, vals, offset) =
      some (s', vals', offset')) :
    (view s' = contents ∧ vals'.length = vals.length ∧
        0 < (fittedValue contents [] (wordAt vals' slot)).length) ∧
      offset ≤ offset' ∧
        (i ≤ slot → slot < i + m → offset < offset' ∧ offset < vals.length) := by
  induction m generalizing i s vals offset with
  | zero =>
      cases hrun
      refine ⟨⟨hs, rfl, hfits⟩, le_refl _, ?_⟩
      omega
  | succ m ih =>
      rw [List.replicate_succ, forItems, Option.bind_eq_some_iff] at hrun
      obtain ⟨t, hact, hrun⟩ := hrun
      have hinside : PacksInside (view s) packedValues i [] vals offset := by
        apply inside_of_getMultiAct h
        rw [hact]
        exact Option.some_ne_none t
      obtain ⟨vals₁, advance, hact', hlength, hother, hown⟩ := getMultiAct_of_inside h hinside
      rw [hact', Option.some.injEq] at hact
      subst hact
      have hkept : 0 < (fittedValue contents [] (wordAt vals₁ slot)).length := by
        by_cases hi : slot = i
        · subst hi
          obtain ⟨hsize, -⟩ := hown (Or.inr (by omega))
          rw [hsize, hs, fittedValue_length]
          exact hfits
        · rw [hother slot hi (Or.inr (by omega))]
          exact hfits
      obtain ⟨⟨hview, hlength', hfits'⟩, hle, hgrows⟩ :=
        ih ((h.get s []).2.trans hs) hkept hrun
      refine ⟨⟨hview, hlength'.trans hlength, hfits'⟩, by omega, ?_⟩
      intro hi hlt
      by_cases hslot' : slot = i
      · subst hslot'
        obtain ⟨-, rfl⟩ := hown (Or.inr (by omega))
        obtain ⟨-, hroom⟩ := hinside
        rw [hs] at hroom hle
        omega
      · have hrest := hgrows (by omega) (by omega)
        rw [hlength] at hrest
        omega

variable {keysBuffer : Bulk} {packed n : ℕ} (hkeys : KeysFit keysBuffer n)
  (hn : ¬ n < 2 ^ 32)
include hkeys hn

theorem rounds_walkPacked_succ {υ : Type} {act : ℕ → Bulk → υ → Option υ} (r offset : ℕ)
    (u : υ) :
    Loop.rounds 32 (walkPacked keysBuffer packed act) (r + 1) (offset, u) =
      (forItems act 0 (List.replicate (2 ^ 32) []) u).bind fun u' =>
        Loop.rounds 32 (walkPacked keysBuffer packed act) r (offset, u') := by
  have hflatten : (List.replicate (2 ^ 32) ([] : Bulk)).flatten.length = 0 := by
    rw [List.length_flatten, List.map_replicate, List.sum_replicate]
    rfl
  rw [Loop.rounds, List.range_eq_range', through_walkPacked, readPacked_of_keysFit hkeys hn,
    Option.bind_some, hflatten]
  cases forItems act 0 (List.replicate (2 ^ 32) []) u with
  | none => rfl
  | some u' => rfl

/-- The first of some rounds of a get, when a slot has room for the value of the empty
key. -/
theorem round_getMultiAct (h : ServesReads ds view) {slot : ℕ}
    (hslot : 8 * slot + 8 ≤ packedValues) (hlt : slot < 2 ^ 32) {s : σ}
    (hs : view s = contents) {vals : Bulk} {keysOffset offset r : ℕ}
    (hfits : 0 < (fittedValue contents [] (wordAt vals slot)).length)
    (hrounds : Loop.rounds 32 (walkPacked keysBuffer packed (getMultiAct ds packedValues))
      (r + 1) (keysOffset, s, vals, offset) ≠ none) :
    offset < vals.length ∧ ∃ s' vals' offset', (view s' = contents ∧
        vals'.length = vals.length ∧
        0 < (fittedValue contents [] (wordAt vals' slot)).length) ∧ offset < offset' ∧
      Loop.rounds 32 (walkPacked keysBuffer packed (getMultiAct ds packedValues)) r
        (keysOffset, s', vals', offset') ≠ none := by
  rw [rounds_walkPacked_succ hkeys hn] at hrounds
  cases hitems : forItems (getMultiAct ds packedValues) 0 (List.replicate (2 ^ 32) [])
      (s, vals, offset) with
  | none =>
      rw [hitems] at hrounds
      exact absurd rfl hrounds
  | some u =>
      obtain ⟨s', vals', offset'⟩ := u
      obtain ⟨hkept, -, hgrows⟩ := forItems_getMultiAct_grows h hslot _ hs hfits hitems
      obtain ⟨hmore, hroom⟩ := hgrows (Nat.zero_le slot) (by omega)
      rw [hitems, Option.bind_some] at hrounds
      exact ⟨hroom, s', vals', offset', hkept, hmore, hrounds⟩

/-- The rounds of a get that never ends copy no value. -/
theorem not_fits_of_rounds (h : ServesReads ds view) {slot : ℕ}
    (hslot : 8 * slot + 8 ≤ packedValues) (hlt : slot < 2 ^ 32) {s : σ}
    (hs : view s = contents) {vals : Bulk} {keysOffset offset : ℕ}
    (hrounds : ∀ r, Loop.rounds 32 (walkPacked keysBuffer packed
      (getMultiAct ds packedValues)) r (keysOffset, s, vals, offset) ≠ none) :
    (fittedValue contents [] (wordAt vals slot)).length = 0 := by
  by_contra hpos
  have hrun : ∀ r (s : σ) (vals : Bulk) offset, view s = contents →
      0 < (fittedValue contents [] (wordAt vals slot)).length →
      Loop.rounds 32 (walkPacked keysBuffer packed (getMultiAct ds packedValues)) (r + 1)
        (keysOffset, s, vals, offset) ≠ none → offset + r < vals.length := by
    intro r
    induction r with
    | zero =>
        intro s vals offset hs hfits hround
        exact (round_getMultiAct hkeys hn h hslot hlt hs hfits hround).1
    | succ r ih =>
        intro s vals offset hs hfits hround
        obtain ⟨-, s', vals', offset', ⟨hview, hlength, hkept⟩, hmore, hrest⟩ :=
          round_getMultiAct hkeys hn h hslot hlt hs hfits hround
        have hle := ih s' vals' offset' hview hkept hrest
        omega
  have hle := hrun vals.length s vals offset hs (Nat.pos_of_ne_zero hpos) (hrounds _)
  omega

end Endless

/-- Every iteration of a get accesses a word of the buffer of the values. -/
theorem le_of_forItems_getMultiAct (h : ServesReads ds view) {packedValues : ℕ}
    (keys : List Bulk) {i : ℕ} {s : σ} {vals : Bulk} {offset : ℕ}
    (hsome : forItems (getMultiAct ds packedValues) i keys (s, vals, offset) ≠ none) :
    keys.length = 0 ∨ 8 * (i + keys.length) ≤ vals.length := by
  induction keys generalizing i s vals offset with
  | nil => exact Or.inl rfl
  | cons key keys ih =>
      rw [forItems] at hsome
      have hinside : PacksInside (view s) packedValues i key vals offset := by
        apply inside_of_getMultiAct h
        intro hnone
        rw [hnone] at hsome
        exact hsome rfl
      obtain ⟨vals', advance, hact, hlength, -, -⟩ := getMultiAct_of_inside h hinside
      rw [hact, Option.bind_some] at hsome
      have hrest := ih hsome
      have hword := hinside.1
      rw [List.length_cons]
      omega

section Loop

variable (h : ServesReads ds view) {keysBuffer vals : Bulk} {n : ℕ} (s : σ)
include h

/-- A get that ends stays in both buffers. -/
theorem getMultiLoop_safe_iff_of_lt (hn : n < 2 ^ 32) :
    (∀ fuel, Loop.counted 32 n (walkPacked keysBuffer (sizesBytes n)
        (getMultiAct ds (sizesBytes n))) fuel 0 (0, s, vals, 0) ≠ .fault) ↔
      KeysFit keysBuffer n ∧ ValuesFit (view s) keysBuffer vals n := by
  have hsizes : sizesBytes n = 8 * n := sizesBytes_of_lt (by omega)
  have hvalues : ∀ keys, readPacked keysBuffer (sizesBytes n) n 0 0 = some keys →
      (forItems (getMultiAct ds (sizesBytes n)) 0 keys (s, vals, 0) ≠ none ↔
        ValuesFit (view s) keysBuffer vals n) := by
    intro keys hread
    have hcut := (of_readPacked hread).2
    have hlength := length_of_readPacked hread
    rw [forItems_getMultiAct_ne_none_iff h keys rfl (by omega), ValuesFit, if_pos hn, hlength,
      wordsFrom_zero]
    rw [wordsFrom_zero, hsizes, Nat.add_zero] at hcut
    rw [← hcut]
    omega
  constructor
  · intro hsafe
    have hkeys := keysFit_of_safe hsafe
    obtain ⟨keys, hread⟩ := exists_readPacked_of_keysFit hkeys hn
    refine ⟨hkeys, (hvalues keys hread).1 ?_⟩
    rw [Loop.safe_iff hn, List.range_eq_range', through_walkPacked, hread,
      Option.bind_some] at hsafe
    intro hnone
    rw [hnone] at hsafe
    exact hsafe rfl
  · rintro ⟨hkeys, hfits⟩
    obtain ⟨keys, hread⟩ := exists_readPacked_of_keysFit hkeys hn
    obtain ⟨u, hitems⟩ := Option.ne_none_iff_exists'.1 ((hvalues keys hread).2 hfits)
    rw [Loop.safe_iff hn, List.range_eq_range', through_walkPacked, hread, Option.bind_some,
      hitems]
    exact Option.some_ne_none _

omit h in
theorem valuesFit_iff_of_endless (contents : Bulk → Option Bulk) (hn : ¬ n < 2 ^ 32) :
    ValuesFit contents keysBuffer vals n ↔ 8 * 2 ^ 32 ≤ vals.length ∧
      ∀ j < 2 ^ 32, (fittedValue contents [] (wordAt vals j)).length = 0 := by
  rw [ValuesFit, if_neg hn, ← wordsFrom_zero, wordsFrom, ← List.range_eq_range',
    List.forall_mem_map]
  simp only [List.mem_range, List.length_eq_zero_iff]

variable (hn : ¬ n < 2 ^ 32)
include hn

/-- A get that does not end and never faults finds all keys empty, and no slot with room for a
value of the empty key that has bytes. -/
theorem fits_of_endless (hzero : ∀ j, sizesBytes n ≤ 8 * j → wordAt vals j = 0)
    (hsafe : ∀ fuel, Loop.counted 32 n (walkPacked keysBuffer (sizesBytes n)
      (getMultiAct ds (sizesBytes n))) fuel 0 (0, s, vals, 0) ≠ .fault) :
    KeysFit keysBuffer n ∧ ValuesFit (view s) keysBuffer vals n := by
  have hkeys := keysFit_of_safe hsafe
  rw [Loop.endless_safe_iff (Nat.le_of_not_lt hn)] at hsafe
  rw [valuesFit_iff_of_endless (view s) hn]
  refine ⟨hkeys, ?_, ?_⟩
  · have hround := hsafe 1
    rw [rounds_walkPacked_succ hkeys hn] at hround
    have hle := le_of_forItems_getMultiAct h _ (fun hnone => by
      rw [hnone] at hround
      exact hround rfl)
    rw [List.length_replicate] at hle
    omega
  · intro slot hslot
    by_contra hpos
    have hsize := length_fittedValue_le (view s) [] (wordAt vals slot)
    -- only the sizes that the client has sent can be positive
    have hbefore : ¬ sizesBytes n ≤ 8 * slot := by
      intro hle
      rw [hzero slot hle] at hsize hpos
      omega
    apply hpos
    apply not_fits_of_rounds hkeys hn h _ hslot rfl hsafe
    unfold sizesBytes at hbefore ⊢
    omega

/-- A get that copies nothing goes on forever. -/
theorem endless_of_fits (hkeys : KeysFit keysBuffer n)
    (hvalues : ValuesFit (view s) keysBuffer vals n) (fuel : ℕ) :
    Loop.counted 32 n (walkPacked keysBuffer (sizesBytes n)
      (getMultiAct ds (sizesBytes n))) fuel 0 (0, s, vals, 0) ≠ .fault := by
  obtain ⟨hle, hfits⟩ := (valuesFit_iff_of_endless (view s) hn).1 hvalues
  apply walkPacked_safe_of_endless hkeys (I := fun u => view u.1 = view s ∧
    u.2.1.length = vals.length ∧
    ∀ j < 2 ^ 32, (fittedValue (view s) [] (wordAt u.2.1 j)).length = 0)
    ⟨rfl, rfl, hfits⟩ hn
  rintro i ⟨s', vals', offset⟩ hi ⟨hview, hlength, hempty⟩
  simp only at hview hlength hempty
  have hinside : PacksInside (view s') (sizesBytes n) i [] vals' offset := by
    refine ⟨by omega, Or.inl ?_⟩
    rw [hview]
    exact hempty i hi
  obtain ⟨vals₁, advance, hact, hlength₁, hother, hown⟩ := getMultiAct_of_inside h hinside
  rw [hview] at hother hown
  refine ⟨_, hact, (h.get s' []).2.trans hview, hlength₁.trans hlength, ?_⟩
  intro j hj
  by_cases hij : j = i
  · subst hij
    obtain ⟨hsize, -⟩ := hown (Or.inl (hempty j hj))
    have hzero := hempty j hj
    have hle := length_fittedValue_le (view s) [] (wordAt vals₁ j)
    simp only
    omega
  · rw [hother j hij (Or.inl (hempty i hi))]
    exact hempty j hj

omit hn in
/-- The loop of a get stays in both buffers, when the sizes behind those of the client are
zero. -/
theorem getMultiLoop_safe_iff (hzero : ∀ j, sizesBytes n ≤ 8 * j → wordAt vals j = 0) :
    (∀ fuel, Loop.counted 32 n (walkPacked keysBuffer (sizesBytes n)
        (getMultiAct ds (sizesBytes n))) fuel 0 (0, s, vals, 0) ≠ .fault) ↔
      KeysFit keysBuffer n ∧ ValuesFit (view s) keysBuffer vals n := by
  by_cases hn : n < 2 ^ 32
  · exact getMultiLoop_safe_iff_of_lt h s hn
  · constructor
    · exact fits_of_endless h s hn hzero
    · intro hfits
      exact endless_of_fits h s hn hfits.1 hfits.2

end Loop

end GetMulti

end Sdskv
