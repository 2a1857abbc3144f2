import Mathlib.Algebra.Order.BigOperators.Group.List
import Sdskv.Rpc.Backends
import Sdskv.Rpc.Multi

/-!
# The room for the values of `sdskv_get_packed`

The handler compares each value with the memory of the client, and never takes off what it
has already copied. So it copies every value that would fit on its own, up to the first one
that would not, and leaves its buffer when these values are together larger than the memory
of the client.

After a value that does not fit the handler goes over the remaining keys without advancing
in the packed keys.
-/

namespace Sdskv

open Wire

/-- The keys in front of the first one whose value alone exceeds `room`. -/
def servedKeys (contents : Bulk → Option Bulk) (room : ℕ) (keys : List Bulk) : List Bulk :=
  keys.takeWhile fun key => (contents key).all fun w => w.length ≤ room

/-- The lengths of the values of these keys, added up. -/
def servedBytes (contents : Bulk → Option Bulk) (room : ℕ) (keys : List Bulk) : ℕ :=
  (((servedKeys contents room keys).filterMap contents).map List.length).sum

section Served

variable {contents : Bulk → Option Bulk} {room : ℕ} {key : Bulk} {keys : List Bulk}

theorem servedKeys_cons_of_none (h : contents key = none) :
    servedKeys contents room (key :: keys) = key :: servedKeys contents room keys := by
  simp [servedKeys, h]

theorem servedKeys_cons_of_le {w : Bulk} (h : contents key = some w) (hle : w.length ≤ room) :
    servedKeys contents room (key :: keys) = key :: servedKeys contents room keys := by
  simp [servedKeys, h, hle]

theorem servedKeys_cons_of_lt {w : Bulk} (h : contents key = some w) (hlt : room < w.length) :
    servedKeys contents room (key :: keys) = [] := by
  simp [servedKeys, h, hlt]

theorem servedBytes_cons_of_none (h : contents key = none) :
    servedBytes contents room (key :: keys) = servedBytes contents room keys := by
  rw [servedBytes, servedKeys_cons_of_none h, List.filterMap_cons_none h, servedBytes]

theorem servedBytes_cons_of_le {w : Bulk} (h : contents key = some w) (hle : w.length ≤ room) :
    servedBytes contents room (key :: keys) =
      w.length + servedBytes contents room keys := by
  rw [servedBytes, servedKeys_cons_of_le h hle, List.filterMap_cons_some h, List.map_cons,
    List.sum_cons, servedBytes]

theorem servedBytes_cons_of_lt {w : Bulk} (h : contents key = some w) (hlt : room < w.length) :
    servedBytes contents room (key :: keys) = 0 := by
  rw [servedBytes, servedKeys_cons_of_lt h hlt]
  rfl

/-- Values that fit into no memory have no bytes. -/
theorem servedBytes_zero (contents : Bulk → Option Bulk) (keys : List Bulk) :
    servedBytes contents 0 keys = 0 := by
  induction keys with
  | nil => rfl
  | cons key keys ih =>
      cases h : contents key with
      | none => rw [servedBytes_cons_of_none h, ih]
      | some w =>
          by_cases hle : w.length ≤ 0
          · rw [servedBytes_cons_of_le h hle, ih]
            omega
          · exact servedBytes_cons_of_lt h (by omega)

/-- The accesses of the handler from a key on, when there is memory: the keys that lie from
`start` on are met one after the other up to the first one whose value alone exceeds `room`,
and the remaining ones at one place; the values in front of that one are copied behind the
`copied` bytes that are already there. -/
def PackedFits (contents : Bulk → Option Bulk) (room : ℕ) (keysBuffer : Bulk) (start : ℕ)
    (sizes : List ℕ) (copied capacity : ℕ) : Prop :=
  let keys := cutItems keysBuffer start sizes
  let met := (servedKeys contents room keys).length + 1
  (start + (sizes.take met).sum ≤ keysBuffer.length ∧
      ∀ size ∈ sizes.drop met,
        start + (sizes.take met).sum + size ≤ keysBuffer.length) ∧
    copied + servedBytes contents room keys ≤ capacity

instance (contents : Bulk → Option Bulk) (room : ℕ) (keysBuffer : Bulk) (start : ℕ)
    (sizes : List ℕ) (copied capacity : ℕ) :
    Decidable (PackedFits contents room keysBuffer start sizes copied capacity) :=
  inferInstanceAs (Decidable ((_ ∧ _) ∧ _))

section Fits

variable {keysBuffer : Bulk} {start size : ℕ} {sizes : List ℕ} {copied capacity : ℕ}

theorem packedFits_cons_of_none
    (h : contents ((keysBuffer.drop start).take size) = none) :
    PackedFits contents room keysBuffer start (size :: sizes) copied capacity ↔
      PackedFits contents room keysBuffer (start + size) sizes copied capacity := by
  simp only [PackedFits, cutItems, servedKeys_cons_of_none h, servedBytes_cons_of_none h,
    List.length_cons, List.take_succ_cons, List.drop_succ_cons, List.sum_cons, Nat.add_assoc]

theorem packedFits_cons_of_le {w : Bulk}
    (h : contents ((keysBuffer.drop start).take size) = some w) (hle : w.length ≤ room) :
    PackedFits contents room keysBuffer start (size :: sizes) copied capacity ↔
      PackedFits contents room keysBuffer (start + size) sizes (copied + w.length)
        capacity := by
  simp only [PackedFits, cutItems, servedKeys_cons_of_le h hle, servedBytes_cons_of_le h hle,
    List.length_cons, List.take_succ_cons, List.drop_succ_cons, List.sum_cons, Nat.add_assoc]

theorem packedFits_cons_of_lt {w : Bulk}
    (h : contents ((keysBuffer.drop start).take size) = some w) (hlt : room < w.length) :
    PackedFits contents room keysBuffer start (size :: sizes) copied capacity ↔
      (start + size ≤ keysBuffer.length ∧
        ∀ size' ∈ sizes, start + size + size' ≤ keysBuffer.length) ∧ copied ≤ capacity := by
  simp [PackedFits, cutItems, servedKeys_cons_of_lt h hlt, servedBytes_cons_of_lt h hlt]

variable (sizes) in
/-- A value that exceeds the memory of the client on its own, when its key is in the buffer:
the remaining keys are read behind it. -/
theorem packedFits_cons_of_large {w : Bulk}
    (h : contents ((keysBuffer.drop start).take size) = some w) (hlt : room < w.length)
    (hkey : start + size ≤ keysBuffer.length) (hcopied : copied ≤ capacity) :
    PackedFits contents room keysBuffer start (size :: sizes) copied capacity ↔
      ∀ size' ∈ sizes, size' = 0 ∨ start + size + size' ≤ keysBuffer.length := by
  rw [packedFits_cons_of_lt h hlt]
  constructor
  · intro hfits size' hmem
    exact Or.inr (hfits.1.2 size' hmem)
  · intro hfits
    refine ⟨⟨hkey, ?_⟩, hcopied⟩
    intro size' hmem
    obtain hzero | hle := hfits size' hmem
    · rw [hzero]
      exact hkey
    · exact hle

theorem PackedFits.head_le
    (h : PackedFits contents room keysBuffer start (size :: sizes) copied capacity) :
    start + size ≤ keysBuffer.length := by
  have hle := h.1.1
  rw [List.take_succ_cons, List.sum_cons] at hle
  omega

theorem PackedFits.copied_le
    (h : PackedFits contents room keysBuffer start sizes copied capacity) :
    copied ≤ capacity :=
  Nat.le_of_add_right_le h.2

end Fits

end Served

section Loop

variable {σ : Type} {ds : DatastoreReads σ} {view : σ → Bulk → Option Bulk}
  {keysBuffer : Bulk} {packed i : ℕ} {t : GetPackedState σ}

section Step

/-- The bytes of the key that the iteration finds. -/
def keyAt (keysBuffer : Bulk) (packed i : ℕ) (t : GetPackedState σ) : Bulk :=
  (keysBuffer.drop (packed + t.keysOffset)).take (wordAt keysBuffer i)

/-- An iteration whose key is not in the buffer. -/
theorem getPackedBody_outside (hword : 8 * i + 8 ≤ keysBuffer.length)
    (hkey : ¬ (wordAt keysBuffer i = 0 ∨
      packed + t.keysOffset + wordAt keysBuffer i ≤ keysBuffer.length)) :
    getPackedBody ds keysBuffer packed i t = none := by
  rw [getPackedBody, readWord_of_le hword, Option.bind_eq_bind, Option.bind_some,
    readBytes, if_neg hkey]
  rfl

variable (hword : 8 * i + 8 ≤ keysBuffer.length)
  (hkey : wordAt keysBuffer i = 0 ∨
    packed + t.keysOffset + wordAt keysBuffer i ≤ keysBuffer.length)
  (hvals : 8 * i + 8 ≤ t.vals.length)
include hword hkey hvals

variable (ds) in
/-- An iteration when the memory of the client is used up. -/
theorem getPackedBody_usedUp (hroom : t.availableClientMemory = 0) :
    ∃ vals, vals.length = t.vals.length ∧ getPackedBody ds keysBuffer packed i t =
      some { t with vals := vals, ret := .errSize } := by
  obtain ⟨vals, hwrite, hlength⟩ := exists_writeWord hvals 0
  refine ⟨vals, hlength, ?_⟩
  rw [getPackedBody, readWord_of_le hword, Option.bind_eq_bind, Option.bind_some,
    readBytes, if_pos hkey, Option.bind_eq_bind, Option.bind_some, if_pos hroom, hwrite]
  rfl

variable (hroom : ¬ t.availableClientMemory = 0) {s' : σ}
include hroom

/-- An iteration whose key has no value. -/
theorem getPackedBody_missing (hget : ds.get t.db (keyAt keysBuffer packed i t) = (none, s')) :
    ∃ vals, vals.length = t.vals.length ∧ getPackedBody ds keysBuffer packed i t =
      some { t with
        db := s', keysOffset := t.keysOffset + wordAt keysBuffer i, vals := vals } := by
  obtain ⟨vals, hwrite, hlength⟩ := exists_writeWord hvals (2 ^ 64 - 1)
  refine ⟨vals, hlength, ?_⟩
  rw [getPackedBody, readWord_of_le hword, Option.bind_eq_bind, Option.bind_some,
    readBytes, if_pos hkey, Option.bind_eq_bind, Option.bind_some, if_neg hroom, ← keyAt, hget]
  simp only [hwrite, Option.bind_some]

/-- An iteration whose value exceeds the memory of the client. -/
theorem getPackedBody_large {w : Bulk}
    (hget : ds.get t.db (keyAt keysBuffer packed i t) = (some w, s'))
    (hlarge : w.length > t.availableClientMemory) :
    ∃ vals, vals.length = t.vals.length ∧ getPackedBody ds keysBuffer packed i t =
      some { t with
        db := s', keysOffset := t.keysOffset + wordAt keysBuffer i, vals := vals,
        availableClientMemory := 0, ret := .errSize } := by
  obtain ⟨vals, hwrite, hlength⟩ := exists_writeWord hvals 0
  refine ⟨vals, hlength, ?_⟩
  rw [getPackedBody, readWord_of_le hword, Option.bind_eq_bind, Option.bind_some,
    readBytes, if_pos hkey, Option.bind_eq_bind, Option.bind_some, if_neg hroom, ← keyAt, hget]
  simp only [if_pos hlarge, hwrite, Option.bind_some]

/-- An iteration that copies a value: it stays in the buffer when the value ends in it. -/
theorem getPackedBody_copied {w : Bulk}
    (hget : ds.get t.db (keyAt keysBuffer packed i t) = (some w, s'))
    (hle : w.length ≤ t.availableClientMemory) (hlt : w.length < 2 ^ 64)
    (hbehind : 8 * i + 8 ≤ packed)
    (hcopy : packed + t.valsOffset + w.length ≤ t.vals.length) :
    ∃ vals, vals.length = t.vals.length ∧ getPackedBody ds keysBuffer packed i t =
      some { t with
        db := s', keysOffset := t.keysOffset + wordAt keysBuffer i, vals := vals,
        valsOffset := t.valsOffset + w.length, numKeys := t.numKeys + 1 } := by
  obtain ⟨vals, hwrite, hlength⟩ := exists_writeWord hvals w.length
  rw [← hlength] at hcopy
  obtain ⟨vals', hcopied⟩ := Option.ne_none_iff_exists'.1
    (writeBytes_ne_none_iff.2 (Or.inr hcopy))
  have hadvance : readWord vals' (8 * i) = some w.length := by
    rw [readWord_writeBytes hcopied (by omega)]
    exact readWord_writeWord hwrite hlt
  refine ⟨vals', (length_writeBytes hcopied).trans hlength, ?_⟩
  rw [getPackedBody, readWord_of_le hword, Option.bind_eq_bind, Option.bind_some,
    readBytes, if_pos hkey, Option.bind_eq_bind, Option.bind_some, if_neg hroom, ← keyAt, hget]
  simp only [if_neg (Nat.not_lt.2 hle), hwrite, Option.bind_some, hcopied, hadvance]

theorem getPackedBody_overrun {w : Bulk}
    (hget : ds.get t.db (keyAt keysBuffer packed i t) = (some w, s'))
    (hle : w.length ≤ t.availableClientMemory)
    (hstart : packed + t.valsOffset ≤ t.vals.length)
    (hcopy : t.vals.length < packed + t.valsOffset + w.length) :
    getPackedBody ds keysBuffer packed i t = none := by
  obtain ⟨vals, hwrite, hlength⟩ := exists_writeWord hvals w.length
  have hnone : writeBytes vals (packed + t.valsOffset) w = none := by
    by_contra hsome
    obtain rfl | hroom := writeBytes_ne_none_iff.1 hsome
    · simp only [List.length_nil] at hcopy
      omega
    · omega
  rw [getPackedBody, readWord_of_le hword, Option.bind_eq_bind, Option.bind_some,
    readBytes, if_pos hkey, Option.bind_eq_bind, Option.bind_some, if_neg hroom, ← keyAt, hget]
  simp only [if_neg (Nat.not_lt.2 hle), hwrite, Option.bind_some, hnone, Option.bind_none]

end Step

/-- Every iteration reads a size and writes one. -/
theorem getPackedBody_words {t' : GetPackedState σ}
    (hbody : getPackedBody ds keysBuffer packed i t = some t') :
    (8 * i + 8 ≤ keysBuffer.length ∧ 8 * i + 8 ≤ t.vals.length) ∧
      t'.vals.length = t.vals.length := by
  have hwritten : ∀ {v vals}, writeWord t.vals (8 * i) v = some vals →
      8 * i + 8 ≤ t.vals.length ∧ vals.length = t.vals.length := by
    intro v vals hwrite
    have hne := Option.some_ne_none vals
    rw [← hwrite] at hne
    exact ⟨writeWord_ne_none_iff.1 hne, length_writeBytes hwrite⟩
  rw [getPackedBody, Option.bind_eq_bind, Option.bind_eq_some_iff] at hbody
  obtain ⟨size, hsize, hbody⟩ := hbody
  have hne := Option.some_ne_none size
  rw [← hsize] at hne
  have hread := readWord_ne_none_iff.1 hne
  rw [Option.bind_eq_bind, Option.bind_eq_some_iff] at hbody
  obtain ⟨key, -, hbody⟩ := hbody
  split_ifs at hbody with hroom
  · obtain ⟨vals, hwrite, hbody⟩ := Option.bind_eq_some_iff.1 hbody
    cases hbody
    exact ⟨⟨hread, (hwritten hwrite).1⟩, (hwritten hwrite).2⟩
  · split at hbody
    · split_ifs at hbody with hlarge
      · obtain ⟨vals, hwrite, hbody⟩ := Option.bind_eq_some_iff.1 hbody
        cases hbody
        exact ⟨⟨hread, (hwritten hwrite).1⟩, (hwritten hwrite).2⟩
      · obtain ⟨vals, hwrite, hbody⟩ := Option.bind_eq_some_iff.1 hbody
        obtain ⟨vals', hcopied, hbody⟩ := Option.bind_eq_some_iff.1 hbody
        obtain ⟨advance, -, hbody⟩ := Option.bind_eq_some_iff.1 hbody
        cases hbody
        exact ⟨⟨hread, (hwritten hwrite).1⟩,
          (length_writeBytes hcopied).trans (hwritten hwrite).2⟩
    · obtain ⟨vals, hwrite, hbody⟩ := Option.bind_eq_some_iff.1 hbody
      cases hbody
      exact ⟨⟨hread, (hwritten hwrite).1⟩, (hwritten hwrite).2⟩

/-- Iterations that stay in the buffers find the arrays of sizes in them. -/
theorem sizes_of_through {n : ℕ} {t' : GetPackedState σ}
    (hthrough : Loop.through (getPackedBody ds keysBuffer packed) (List.range' i n) t =
      some t') :
    n = 0 ∨ 8 * (i + n) ≤ keysBuffer.length ∧ 8 * (i + n) ≤ t.vals.length := by
  induction n generalizing i t with
  | zero => exact Or.inl rfl
  | succ n ih =>
      rw [List.range'_succ, Loop.through, Option.bind_eq_some_iff] at hthrough
      obtain ⟨t₁, hbody, hrest⟩ := hthrough
      obtain ⟨hwords, hlength⟩ := getPackedBody_words hbody
      right
      obtain rfl | hrest := ih hrest
      · omega
      · rw [hlength] at hrest
        omega

/-- Once the memory of the client is used up, the iterations read the keys at one place and
copy nothing. -/
theorem through_usedUp {n : ℕ} (hroom : t.availableClientMemory = 0)
    (hkeys : 8 * (i + n) ≤ keysBuffer.length) (hvals : 8 * (i + n) ≤ t.vals.length) :
    (Loop.through (getPackedBody ds keysBuffer packed) (List.range' i n) t).map
        GetPackedState.valsOffset =
      if ∀ size ∈ wordsFrom keysBuffer i n,
          size = 0 ∨ packed + t.keysOffset + size ≤ keysBuffer.length then
        some t.valsOffset
      else none := by
  induction n generalizing i t with
  | zero => rfl
  | succ n ih =>
      have hword : 8 * i + 8 ≤ keysBuffer.length := by omega
      rw [List.range'_succ, Loop.through, wordsFrom_succ]
      simp only [List.forall_mem_cons]
      by_cases hkey : wordAt keysBuffer i = 0 ∨
          packed + t.keysOffset + wordAt keysBuffer i ≤ keysBuffer.length
      · obtain ⟨vals, hlength, hbody⟩ := getPackedBody_usedUp ds hword hkey
          (by omega) hroom
        rw [hbody, Option.bind_some]
        simp only [hkey, true_and]
        exact ih (i := i + 1) (t := { t with vals := vals, ret := .errSize }) hroom (by omega)
          (by simp only [hlength]; omega)
      · rw [getPackedBody_outside hword hkey]
        simp [hkey]

/-- The iterations as long as there is memory. -/
theorem through_getPackedBody (h : ServesReads ds view) {contents : Bulk → Option Bulk}
    {room : ℕ} (hpos : 0 < room) (hlt : room < 2 ^ 64) (n : ℕ)
    (hcontents : view t.db = contents) (hroom : t.availableClientMemory = room)
    (hsizes : 8 * (i + n) ≤ packed) (hkeys : packed + t.keysOffset ≤ keysBuffer.length)
    (hvals : packed + t.valsOffset ≤ t.vals.length) :
    (Loop.through (getPackedBody ds keysBuffer packed) (List.range' i n) t).map
        GetPackedState.valsOffset =
      if PackedFits contents room keysBuffer (packed + t.keysOffset)
          (wordsFrom keysBuffer i n) (packed + t.valsOffset) t.vals.length then
        some (t.valsOffset + servedBytes contents room
          (cutItems keysBuffer (packed + t.keysOffset) (wordsFrom keysBuffer i n)))
      else none := by
  induction n generalizing i t with
  | zero =>
      simp [Loop.through, PackedFits, wordsFrom, cutItems, servedKeys, servedBytes, hkeys, hvals]
  | succ n ih =>
      have hword : 8 * i + 8 ≤ keysBuffer.length := by omega
      have hvalsWord : 8 * i + 8 ≤ t.vals.length := by omega
      have hmemory : ¬ t.availableClientMemory = 0 := by omega
      rw [List.range'_succ, Loop.through, wordsFrom_succ, cutItems, ← keyAt]
      by_cases hkey : wordAt keysBuffer i = 0 ∨
          packed + t.keysOffset + wordAt keysBuffer i ≤ keysBuffer.length
      · have hnext : packed + (t.keysOffset + wordAt keysBuffer i) ≤ keysBuffer.length := by
          omega
        obtain ⟨hread, hview⟩ := h.get t.db (keyAt keysBuffer packed i t)
        rw [hcontents] at hread hview
        cases hget : ds.get t.db (keyAt keysBuffer packed i t) with
        | mk vdata s' =>
        rw [hget] at hread hview
        cases vdata with
        | none =>
            obtain ⟨vals, hlength, hbody⟩ :=
              getPackedBody_missing hword hkey hvalsWord hmemory hget
            have hrest := ih (i := i + 1) (t := { t with
              db := s', keysOffset := t.keysOffset + wordAt keysBuffer i, vals := vals }) hview
              hroom (by omega) hnext (by simpa only [hlength] using hvals)
            rw [servedBytes_cons_of_none hread.symm,
              if_congr (packedFits_cons_of_none hread.symm) rfl rfl, hbody, Option.bind_some,
              hrest, hlength, Nat.add_assoc packed]
        | some w =>
            by_cases hlarge : w.length > t.availableClientMemory
            · obtain ⟨vals, hlength, hbody⟩ :=
                getPackedBody_large hword hkey hvalsWord hmemory hget hlarge
              have hfits := packedFits_cons_of_large (wordsFrom keysBuffer (i + 1) n) hread.symm
                (show room < w.length by omega) (by rw [Nat.add_assoc]; exact hnext) hvals
              rw [Nat.add_assoc packed] at hfits
              rw [servedBytes_cons_of_lt hread.symm (by omega), if_congr hfits rfl rfl, hbody,
                Option.bind_some]
              exact through_usedUp rfl (by omega) (by simp only [hlength]; omega)
            · have hle : w.length ≤ room := by omega
              rw [servedBytes_cons_of_le hread.symm hle,
                if_congr (packedFits_cons_of_le hread.symm hle) rfl rfl]
              by_cases hcopy : packed + t.valsOffset + w.length ≤ t.vals.length
              · obtain ⟨vals, hlength, hbody⟩ :=
                  getPackedBody_copied hword hkey hvalsWord hmemory hget (by omega) (by omega)
                    (by omega) hcopy
                have hrest := ih (i := i + 1) (t := { t with
                  db := s', keysOffset := t.keysOffset + wordAt keysBuffer i, vals := vals,
                  valsOffset := t.valsOffset + w.length, numKeys := t.numKeys + 1 }) hview hroom
                  (by omega) hnext (by simp only [hlength]; omega)
                rw [hbody, Option.bind_some, hrest, hlength, Nat.add_assoc packed,
                  Nat.add_assoc packed, Nat.add_assoc t.valsOffset]
              · have hfits : ¬ PackedFits contents room keysBuffer
                    (packed + t.keysOffset + wordAt keysBuffer i)
                    (wordsFrom keysBuffer (i + 1) n) (packed + t.valsOffset + w.length)
                    t.vals.length :=
                  fun hfits => hcopy hfits.copied_le
                rw [getPackedBody_overrun hword hkey hvalsWord hmemory hget (by omega) hvals
                  (by omega), if_neg hfits]
                rfl
      · have hfits : ¬ PackedFits contents room keysBuffer (packed + t.keysOffset)
            (wordAt keysBuffer i :: wordsFrom keysBuffer (i + 1) n) (packed + t.valsOffset)
            t.vals.length := by
          intro hfits
          exact hkey (Or.inr hfits.head_le)
        rw [getPackedBody_outside hword hkey, if_neg hfits]
        rfl

/-- A packed get keeps to its buffers: both begin with an array of sizes, and the keys and
values that the handler meets lie behind them. -/
def GetPackedFits (contents : Bulk → Option Bulk) (keysBuffer : Bulk) (numKeys valsSize : ℕ) :
    Prop :=
  let sizes := readArray 8 keysBuffer numKeys
  numKeys = 0 ∨ (8 * numKeys ≤ keysBuffer.length ∧ 8 * numKeys ≤ valsSize) ∧
    (valsSize = 8 * numKeys → ∀ size ∈ sizes, 8 * numKeys + size ≤ keysBuffer.length) ∧
    (valsSize ≠ 8 * numKeys → PackedFits contents (valsSize - 8 * numKeys) keysBuffer
      (8 * numKeys) sizes (8 * numKeys) valsSize)

instance (contents : Bulk → Option Bulk) (keysBuffer : Bulk) (numKeys valsSize : ℕ) :
    Decidable (GetPackedFits contents keysBuffer numKeys valsSize) :=
  inferInstanceAs (Decidable (_ ∨ (_ ∧ _) ∧ (_ → _) ∧ (_ → _)))

/-- Without memory for the values, every key has to lie in the buffer. -/
theorem getPackedFits_of_no_room {contents : Bulk → Option Bulk} {n : ℕ} (hzero : n ≠ 0)
    (hkeys : 8 * n ≤ keysBuffer.length) :
    GetPackedFits contents keysBuffer n (8 * n) ↔ ∀ size ∈ wordsFrom keysBuffer 0 n,
      size = 0 ∨ 8 * n + 0 + size ≤ keysBuffer.length := by
  simp only [GetPackedFits, hzero, hkeys, ne_eq, not_true_eq_false, true_and, false_or, le_refl,
    wordsFrom_zero, Nat.add_zero, forall_const, and_true, false_implies]
  apply forall_congr'
  intro size
  apply imp_congr_right
  intro _
  omega

theorem getPackedFits_of_room {contents : Bulk → Option Bulk} {n valsSize : ℕ} (hzero : n ≠ 0)
    (hsizes : 8 * n ≤ keysBuffer.length ∧ 8 * n ≤ valsSize) (hroom : valsSize ≠ 8 * n) :
    GetPackedFits contents keysBuffer n valsSize ↔
      PackedFits contents (valsSize - 8 * n) keysBuffer (8 * n) (wordsFrom keysBuffer 0 n)
        (8 * n) valsSize := by
  simp only [GetPackedFits, hzero, hsizes, hroom, ne_eq, not_false_eq_true, true_and, false_or,
    wordsFrom_zero, forall_const, false_implies]

/-- The loop of the handler, from its start. -/
theorem through_getPackedBody_start (h : ServesReads ds view) {n valsSize : ℕ}
    (hn : 8 * n < 2 ^ 64) (hvals : valsSize < 2 ^ 64) (s : σ) :
    (Loop.through (getPackedBody ds keysBuffer (8 * n)) (List.range n)
        { db := s, keysOffset := 0, vals := List.replicate valsSize 0, valsOffset := 0,
          availableClientMemory := (valsSize + (2 ^ 64 - 8 * n)) % 2 ^ 64, numKeys := 0,
          ret := .success }).map GetPackedState.valsOffset =
      if GetPackedFits (view s) keysBuffer n valsSize then
        some (servedBytes (view s) (valsSize - 8 * n)
          (cutItems keysBuffer (8 * n) (readArray 8 keysBuffer n)))
      else none := by
  rw [List.range_eq_range']
  by_cases hzero : n = 0
  · subst hzero
    have hfits : GetPackedFits (view s) keysBuffer 0 valsSize := Or.inl rfl
    rw [if_pos hfits]
    rfl
  · by_cases hsizes : 8 * n ≤ keysBuffer.length ∧ 8 * n ≤ valsSize
    · have hmemory : (valsSize + (2 ^ 64 - 8 * n)) % 2 ^ 64 = valsSize - 8 * n := by omega
      rw [hmemory, ← wordsFrom_zero]
      by_cases hroom : valsSize = 8 * n
      · subst hroom
        rw [if_congr (getPackedFits_of_no_room hzero hsizes.1) rfl rfl, Nat.sub_self,
          servedBytes_zero]
        exact through_usedUp rfl (by omega) (by simp)
      · have hthrough := through_getPackedBody h (show 0 < valsSize - 8 * n by omega)
          (by omega) n (i := 0)
          (t := { db := s, keysOffset := 0, vals := List.replicate valsSize 0, valsOffset := 0,
                  availableClientMemory := valsSize - 8 * n, numKeys := 0, ret := .success })
          rfl rfl (show 8 * (0 + n) ≤ 8 * n by omega) hsizes.1
          (by rw [List.length_replicate]; exact hsizes.2)
        simp only [List.length_replicate, Nat.add_zero, Nat.zero_add] at hthrough
        rw [hthrough, if_congr (getPackedFits_of_room hzero hsizes hroom) rfl rfl]
    · have hfits : ¬ GetPackedFits (view s) keysBuffer n valsSize := by
        rintro (hnil | ⟨hle, -⟩)
        · exact hzero hnil
        · exact hsizes hle
      rw [if_neg hfits, Option.map_eq_none_iff]
      by_contra hsome
      obtain ⟨t', hthrough⟩ := Option.ne_none_iff_exists'.1 hsome
      obtain hnil | hle := sizes_of_through hthrough
      · exact hzero hnil
      · rw [List.length_replicate, Nat.zero_add] at hle
        exact hsizes hle

section Whole

variable {input : GetMultiIn} (hn : input.numKeys < 2 ^ 32)
  (hvals : input.valsBulkSize < 2 ^ 64)
include hn hvals

/-- The iterations of the handler, when its counter can hold the number of keys. -/
theorem through_getPackedLoop (h : ServesReads ds view) (keysBuffer : Bulk) (s : σ) :
    (Loop.through (getPackedBody ds keysBuffer (sizesBytes input.numKeys))
        (List.range input.numKeys)
        { db := s, keysOffset := 0, vals := List.replicate input.valsBulkSize 0,
          valsOffset := 0, availableClientMemory :=
            (input.valsBulkSize + (2 ^ 64 - sizesBytes input.numKeys)) % 2 ^ 64,
          numKeys := 0, ret := .success }).map GetPackedState.valsOffset =
      if GetPackedFits (view s) keysBuffer input.numKeys input.valsBulkSize then
        some (servedBytes (view s) (input.valsBulkSize - 8 * input.numKeys)
          (cutItems keysBuffer (8 * input.numKeys) (readArray 8 keysBuffer input.numKeys)))
      else none := by
  rw [sizesBytes_of_lt (by omega)]
  exact through_getPackedBody_start h (by omega) hvals s

theorem getPackedLoop_safe_iff (h : ServesReads ds view) (keysBuffer : Bulk) (s : σ) :
    (∀ fuel, getPackedLoop ds fuel input keysBuffer s ≠ .fault) ↔
      GetPackedFits (view s) keysBuffer input.numKeys input.valsBulkSize := by
  have hthrough := through_getPackedLoop hn hvals h keysBuffer s
  simp only [getPackedLoop]
  rw [Loop.safe_iff hn, ne_eq, ← Option.map_eq_none_iff (f := GetPackedState.valsOffset), hthrough]
  split_ifs with hfits <;> simp [hfits]

/-- What a loop that has ended has copied. -/
theorem valsOffset_of_getPackedLoop (h : ServesReads ds view) {s : σ} {fuel : ℕ}
    {t : GetPackedState σ} (hdone : getPackedLoop ds fuel input keysBuffer s = .done t) :
    GetPackedFits (view s) keysBuffer input.numKeys input.valsBulkSize ∧
      t.valsOffset = servedBytes (view s) (input.valsBulkSize - 8 * input.numKeys)
        (cutItems keysBuffer (8 * input.numKeys) (readArray 8 keysBuffer input.numKeys)) := by
  have hthrough := through_getPackedLoop hn hvals h keysBuffer s
  obtain ⟨-, hsome⟩ := Loop.ends_iff.1 ⟨fuel, hdone⟩
  rw [hsome, Option.map_some] at hthrough
  split_ifs at hthrough with hfits
  exact ⟨hfits, Option.some.inj hthrough⟩

end Whole

end Loop

section Client

/-- The request of `sdskv_get_packed`. -/
def getPackedIn (dbId : UInt64) (packedKeys : Pointer) (ksizes : List ℕ) (vbufsize : UInt64)
    (packedVals : Pointer) (vsizes : List ℕ) : Option GetMultiIn :=
  (unsignedSum ksizes).map fun totalKsize =>
    { dbId := dbId
      numKeys := ksizes.length
      keysBulkHandle := [arrayBytes 8 ksizes, bulkOfPointer packedKeys totalKsize]
      keysBulkSize := (totalKsize + sizesBytes ksizes.length) % 2 ^ 64
      valsBulkHandle := [arrayBytes 8 vsizes, bulkOfPointer packedVals vbufsize.toNat]
      valsBulkSize := (sizesBytes ksizes.length + vbufsize.toNat) % 2 ^ 64 }

/-- Keys that lie back to back in the memory of a client, which also holds the array of
their sizes. -/
structure PackedKeys where
  keys : List KvData
  fits : keysBytes keys < 2 ^ 64

namespace PackedKeys

variable (p : PackedKeys)

/-- The argument `packed_keys`. -/
def pointer : Pointer := (p.keys.map KvData.data).flatten

/-- The argument `ksizes`. -/
def ksizes : List ℕ := p.keys.map fun k => k.data.length

@[simp] theorem length_ksizes : p.ksizes.length = p.keys.length := List.length_map _

theorem sum_ksizes : p.ksizes.sum = p.pointer.length := by
  rw [pointer, List.length_flatten, List.map_map]
  rfl

theorem length_lt : 8 * p.keys.length + p.ksizes.sum < 2 ^ 64 := p.fits

/-- The buffer that the handler receives. -/
def region : Bulk := packItems (p.keys.map KvData.data)

theorem region_eq : p.region = arrayBytes 8 p.ksizes ++ p.pointer := by
  rw [region, packItems, List.map_map]
  rfl

theorem length_region : p.region.length = 8 * p.keys.length + p.ksizes.sum := by
  rw [region_eq, List.length_append, length_arrayBytes, length_ksizes, sum_ksizes]

theorem readArray_region : readArray 8 p.region p.keys.length = p.ksizes := by
  have hlt : ∀ v ∈ p.ksizes, v < 256 ^ 8 := by
    intro v hv
    obtain ⟨k, -, rfl⟩ := List.mem_map.1 hv
    exact k.size_lt
  have hread := readArray_arrayBytes hlt p.pointer
  rwa [length_ksizes, ← region_eq] at hread

theorem cutItems_region :
    cutItems p.region (8 * p.keys.length) p.ksizes = p.keys.map KvData.data := by
  have hdrop : p.region.drop (8 * p.keys.length) = (p.keys.map KvData.data).flatten ++ [] := by
    rw [region_eq, List.append_nil]
    exact List.drop_left' (by rw [length_arrayBytes, length_ksizes])
  have hcut := cutItems_of_drop hdrop
  rwa [List.map_map] at hcut

theorem take_sum_add_le {m : ℕ} {size : ℕ} (h : size ∈ p.ksizes.drop m) :
    (p.ksizes.take m).sum + size ≤ p.ksizes.sum := by
  have hle := List.single_le_sum (fun _ _ => Nat.zero_le _) size h
  have hsplit := List.sum_take_add_sum_drop p.ksizes m
  omega

end PackedKeys

variable {dbId : UInt64} {p : PackedKeys} {vbufsize : UInt64} {packedVals : Pointer}
  {vsizes : List ℕ} {input : GetMultiIn}

/-- The keys of a client stay inside of the buffer, and its memory for the values is what the
handler compares with. -/
theorem getPackedFits_region (contents : Bulk → Option Bulk) (p : PackedKeys)
    (vbufsize : UInt64) :
    GetPackedFits contents p.region p.keys.length
        ((8 * p.keys.length + vbufsize.toNat) % 2 ^ 64) ↔
      8 * p.keys.length + vbufsize.toNat < 2 ^ 64 ∧
        servedBytes contents vbufsize.toNat (p.keys.map KvData.data) ≤ vbufsize.toNat := by
  have hlt := p.length_lt
  have hbuf := vbufsize.toNat_lt
  have hlength := p.length_region
  by_cases hnil : p.keys = []
  · simp [GetPackedFits, hnil, servedBytes, servedKeys, hbuf]
  · have hzero : p.keys.length ≠ 0 := fun h => hnil (List.length_eq_zero_iff.1 h)
    by_cases hwrap : 8 * p.keys.length + vbufsize.toNat < 2 ^ 64
    · rw [Nat.mod_eq_of_lt hwrap, GetPackedFits, p.readArray_region, Nat.add_sub_cancel_left]
      simp only [hzero, hwrap, false_or, true_and]
      constructor
      · rintro ⟨-, -, hfits⟩
        by_cases hroom : vbufsize.toNat = 0
        · rw [hroom, servedBytes_zero]
        · have hle := (hfits (by omega)).2
          rw [p.cutItems_region] at hle
          omega
      · intro hle
        refine ⟨by omega, ?_, ?_⟩
        · intro _ size hsize
          have := p.take_sum_add_le (m := 0) hsize
          omega
        · intro _
          refine ⟨⟨?_, ?_⟩, by rw [p.cutItems_region]; omega⟩
          · have hsplit := List.sum_take_add_sum_drop p.ksizes ((servedKeys contents
              vbufsize.toNat (cutItems p.region (8 * p.keys.length) p.ksizes)).length + 1)
            omega
          · intro size hsize
            have := p.take_sum_add_le hsize
            omega
    · constructor
      · rintro (h | ⟨⟨-, hle⟩, -⟩)
        · exact absurd h hzero
        · omega
      · rintro ⟨h, -⟩
        exact absurd h hwrap

/-- A request that the client builds. -/
theorem getPackedIn_eq_some_iff :
    getPackedIn dbId p.pointer p.ksizes vbufsize packedVals vsizes = some input ↔
      p.keys.length < 2 ^ 32 ∧ input =
        { dbId := dbId
          numKeys := p.keys.length
          keysBulkHandle := [arrayBytes 8 p.ksizes, p.pointer]
          keysBulkSize := p.region.length
          valsBulkHandle := [arrayBytes 8 vsizes, bulkOfPointer packedVals vbufsize.toNat]
          valsBulkSize := (8 * p.keys.length + vbufsize.toNat) % 2 ^ 64 } := by
  have hlt := p.length_lt
  have hsum : p.ksizes.sum % 2 ^ 64 = p.ksizes.sum := Nat.mod_eq_of_lt (by omega)
  have hsizes : sizesBytes p.keys.length = 8 * p.keys.length := sizesBytes_of_lt (by omega)
  have hregion : (p.ksizes.sum + 8 * p.keys.length) % 2 ^ 64 = p.region.length := by
    rw [p.length_region]
    omega
  have hpointer : bulkOfPointer p.pointer p.ksizes.sum = p.pointer := by
    rw [p.sum_ksizes, bulkOfPointer, List.take_length]
  simp only [getPackedIn, Option.map_eq_some_iff, unsignedSum_eq_some_iff, p.length_ksizes, hsum]
  constructor
  · rintro ⟨_, ⟨hn, rfl⟩, rfl⟩
    refine ⟨hn, ?_⟩
    rw [hsizes, hregion, hpointer]
  · rintro ⟨hn, rfl⟩
    refine ⟨_, ⟨hn, rfl⟩, ?_⟩
    rw [hsizes, hregion, hpointer]

/-- The handler receives the keys, unless one of its calls fails. -/
theorem receive_getPackedIn (calls : BulkCalls)
    (hinput : getPackedIn dbId p.pointer p.ksizes vbufsize packedVals vsizes = some input) :
    input.toKeysIn.receive calls = calls.receive (.ok p.region) := by
  obtain ⟨-, rfl⟩ := getPackedIn_eq_some_iff.1 hinput
  have hflatten : [arrayBytes 8 p.ksizes, p.pointer].flatten = p.region := by
    rw [p.region_eq]
    simp
  rw [KeysIn.receive, BulkCalls.pull, bulkPull]
  simp only [hflatten, List.length_replicate, le_refl, and_self, if_true, List.take_length,
    List.drop_replicate, Nat.sub_self, List.replicate_zero, List.append_nil]

theorem receive_getPackedIn_of_succeed {calls : BulkCalls} (hcalls : calls.Succeed)
    (hinput : getPackedIn dbId p.pointer p.ksizes vbufsize packedVals vsizes = some input) :
    input.toKeysIn.receive calls = .ok p.region := by
  rw [receive_getPackedIn calls hinput, BulkCalls.receive, hcalls.1]

/-- A packed get keeps to the buffer of the values: no access of the handler is out of
bounds, what it copies is at most the memory of the client, and ends in the buffer. -/
structure GetPackedSafe {σ : Type} (ds : DatastoreReads σ) (calls : BulkCalls)
    (dbs : Databases σ) (s : σ) (input : GetMultiIn) (vbufsize : ℕ) : Prop where
  inside : ∀ fuel, sdskvGetPackedUlt ds calls fuel dbs input ≠ .fault
  total : ∀ fuel keysBuffer t, input.toKeysIn.receive calls = .ok keysBuffer →
    getPackedLoop ds fuel input keysBuffer s = .done t →
      t.valsOffset ≤ vbufsize ∧ 8 * input.numKeys + t.valsOffset ≤ input.valsBulkSize

section Received

variable {σ : Type} {ds : DatastoreReads σ} {calls : BulkCalls} {dbs : Databases σ} {s : σ}
  {input : GetMultiIn} (hdb : dbs input.dbId = some s)
include hdb

/-- A handler that does not get the keys has no loop to leave its buffers in. -/
theorem getPackedSafe_of_error {hret : ℕ} (hreceive : input.toKeysIn.receive calls = .error hret)
    (vbufsize : ℕ) : GetPackedSafe ds calls dbs s input vbufsize := by
  constructor
  · intro fuel hfault
    rw [sdskvGetPackedUlt, serveMulti_of_error hdb hreceive] at hfault
    cases hfault
  · intro fuel keysBuffer t hbuffer
    rw [hreceive] at hbuffer
    cases hbuffer

/-- With the keys, the handler leaves its buffers when its loop does. -/
theorem sdskvGetPackedUlt_eq_fault_iff {keysBuffer : Bulk}
    (hreceive : input.toKeysIn.receive calls = .ok keysBuffer) (fuel : ℕ) :
    sdskvGetPackedUlt ds calls fuel dbs input = .fault ↔
      getPackedLoop ds fuel input keysBuffer s = .fault := by
  rw [sdskvGetPackedUlt, serveMulti_of_ok hdb hreceive, Loop.Run.map_eq_fault_iff,
    Loop.Run.map_eq_fault_iff]

end Received

/-- `sdskv_get_packed_ult` keeps to its buffer on a request of `sdskv_get_packed` exactly when
it does not come to its loop, or the size of the buffer has not wrapped and the values of the
keys, up to the first one that exceeds the memory of the client on its own, fit into this
memory together. -/
theorem getPackedSafe_iff {σ : Type} {ds : DatastoreReads σ} {view : σ → Bulk → Option Bulk}
    (h : ServesReads ds view) (calls : BulkCalls) {dbs : Databases σ} {dbId : UInt64} {s : σ}
    (hdb : dbs dbId = some s) (p : PackedKeys) (vbufsize : UInt64) (packedVals : Pointer)
    (vsizes : List ℕ) {input : GetMultiIn}
    (hinput : getPackedIn dbId p.pointer p.ksizes vbufsize packedVals vsizes = some input) :
    GetPackedSafe ds calls dbs s input vbufsize.toNat ↔
      firstFailure calls.before ≠ none ∨
        8 * p.keys.length + vbufsize.toNat < 2 ^ 64 ∧
          servedBytes (view s) vbufsize.toNat (p.keys.map KvData.data) ≤ vbufsize.toNat := by
  have hreceive := receive_getPackedIn calls hinput
  obtain ⟨hlt, hin⟩ := getPackedIn_eq_some_iff.1 hinput
  have hdb : dbs input.dbId = some s := by rwa [hin]
  have hn : input.numKeys < 2 ^ 32 := by rwa [hin]
  have hvals : input.valsBulkSize < 2 ^ 64 := by
    rw [hin]
    exact Nat.mod_lt _ (by decide)
  have hfits : GetPackedFits (view s) p.region input.numKeys input.valsBulkSize ↔
      8 * p.keys.length + vbufsize.toNat < 2 ^ 64 ∧
        servedBytes (view s) vbufsize.toNat (p.keys.map KvData.data) ≤ vbufsize.toNat := by
    rw [hin]
    exact getPackedFits_region (view s) p vbufsize
  cases hfailure : firstFailure calls.before with
  | some hret =>
      have hreceive : input.toKeysIn.receive calls = .error hret := by
        rw [hreceive, BulkCalls.receive, hfailure]
      simp only [ne_eq, reduceCtorEq, not_false_eq_true, true_or, iff_true]
      exact getPackedSafe_of_error hdb hreceive _
  | none =>
      have hreceive : input.toKeysIn.receive calls = .ok p.region := by
        rw [hreceive, BulkCalls.receive, hfailure]
      have hsafe := getPackedLoop_safe_iff hn hvals h p.region s
      simp only [ne_eq, not_true_eq_false, false_or]
      rw [← hfits]
      constructor
      · intro hinside
        apply hsafe.1
        intro fuel hfault
        exact hinside.inside fuel ((sdskvGetPackedUlt_eq_fault_iff hdb hreceive fuel).2 hfault)
      · intro hfit
        constructor
        · intro fuel hfault
          rw [sdskvGetPackedUlt_eq_fault_iff hdb hreceive] at hfault
          exact hsafe.2 hfit fuel hfault
        · intro fuel keysBuffer t hbuffer hdone
          rw [hreceive] at hbuffer
          cases hbuffer
          obtain ⟨-, hoffset⟩ := valsOffset_of_getPackedLoop hn hvals h hdone
          obtain ⟨hwrap, hle⟩ := hfits.1 hfit
          rw [hin] at hoffset ⊢
          simp only [Nat.mod_eq_of_lt hwrap, Nat.add_sub_cancel_left, p.readArray_region,
            p.cutItems_region] at hoffset ⊢
          omega

/-- The keys 1 and 3, back to back. -/
def twoByteKeys : PackedKeys :=
  { keys := [KvData.single 1, KvData.single 3], fits := by decide }

/-- A map database that binds both of them to values of one byte. -/
def bindsTwoKeys : MapDataStore := (bindsByteKey.put [3] [4]).2

theorem getPackedSafe_twoBytes :
    ∃ input, getPackedIn 5 twoByteKeys.pointer twoByteKeys.ksizes 2 [0, 0] [0, 0] = some input ∧
      GetPackedSafe MapDataStore.reads .succeeding (oneDatabase bindsTwoKeys) bindsTwoKeys input
        2 := by
  refine ⟨_, rfl, ?_⟩
  exact (getPackedSafe_iff MapDataStore.servesReads .succeeding rfl twoByteKeys 2 [0, 0] [0, 0]
    rfl).2 (Or.inr ⟨by decide, by decide⟩)

/-- With memory for one of the two values, both are copied. -/
theorem getPacked_overruns :
    ∃ input, getPackedIn 5 twoByteKeys.pointer twoByteKeys.ksizes 1 [0] [0, 0] = some input ∧
      ¬ GetPackedSafe MapDataStore.reads .succeeding (oneDatabase bindsTwoKeys) bindsTwoKeys
        input 1 := by
  refine ⟨_, rfl, ?_⟩
  intro hsafe
  exact hsafe.inside 3 rfl

end Client

end Sdskv
