import Sdskv.Rpc.PutBatch

/-!
# When a batched put stays inside of the buffers

A put hands regions of its buffers to the datastore, whose offsets are running sums of the
sizes. The sums are computed before any region is read and may wrap around, but a sum that
wraps has passed the end of the buffer with one of the regions.
-/

namespace Sdskv

open Wire

/-- The keys and the values of a put lie in their buffers. -/
def PutMultiFits (keysBuffer valsBuffer : Bulk) (numKeys : ℕ) : Prop :=
  if numKeys < 2 ^ 32 then
    8 * numKeys + (readArray 8 keysBuffer numKeys).sum ≤ keysBuffer.length ∧
      8 * numKeys + (readArray 8 valsBuffer numKeys).sum ≤ valsBuffer.length
  else 8 * 2 ^ 32 ≤ keysBuffer.length ∧ 8 * 2 ^ 32 ≤ valsBuffer.length

/-- The two arrays of a packed put, its keys and its values lie in the buffer. -/
def PutPackedFits (localBuffer : Bulk) (numKeys : ℕ) : Prop :=
  if numKeys < 2 ^ 32 then
    16 * numKeys + (readArray 8 localBuffer numKeys).sum +
      (wordsFrom localBuffer numKeys numKeys).sum ≤ localBuffer.length
  else 8 * 2 ^ 32 ≤ localBuffer.length

section Put

/-- The datastore reads all regions when each is as long as what its pointer has. -/
theorem mapM_readRegion_ne_none_iff {regions : List (Pointer × ℕ)} :
    regions.mapM readRegion ≠ none ↔ ∀ region ∈ regions, region.2 ≤ region.1.length := by
  induction regions with
  | nil => simp
  | cons region regions ih =>
      rw [List.mapM_cons, List.forall_mem_cons, ← ih]
      by_cases hle : region.2 ≤ region.1.length
      · have hread : readRegion region = some ((region.1.drop 0).take region.2) :=
          if_pos (by omega)
        rw [hread]
        cases regions.mapM readRegion with
        | none => simp
        | some data => simp [hle]
      · have hread : readRegion region = none := if_neg (by omega)
        rw [hread]
        simp [hle]

/-- Regions back to back from an offset on are in the buffer when their sum is. A sum of the
offsets that wraps around has left the buffer before. -/
theorem packedRegions_le_iff {pointer : Pointer} (hpointer : pointer.length < 2 ^ 64)
    {offset : ℕ} (hoffset : offset < 2 ^ 64) (sizes : List ℕ) :
    (∀ region ∈ packedRegions pointer offset sizes, region.2 ≤ region.1.length) ↔
      sizes.sum = 0 ∨ offset + sizes.sum ≤ pointer.length := by
  induction sizes generalizing offset with
  | nil => simp [packedRegions]
  | cons size sizes ih =>
      rw [packedRegions, List.forall_mem_cons, List.sum_cons, List.length_drop,
        ih (Nat.mod_lt _ (by decide))]
      by_cases hwrap : offset + size < 2 ^ 64
      · rw [Nat.mod_eq_of_lt hwrap]
        omega
      · omega

/-- A region without bytes may have a null pointer. -/
def nullIfEmpty (region : Pointer × ℕ) : Pointer × ℕ :=
  (if region.2 = 0 then [] else region.1, region.2)

theorem map_nullIfEmpty_le_iff {regions : List (Pointer × ℕ)} :
    (∀ region ∈ regions.map nullIfEmpty, region.2 ≤ region.1.length) ↔
      ∀ region ∈ regions, region.2 ≤ region.1.length := by
  rw [List.forall_mem_map]
  apply forall_congr'
  intro region
  apply imp_congr_right
  intro _
  rw [nullIfEmpty]
  split_ifs with hzero
  · omega
  · rfl

section PutMulti

variable {keysBuffer valsBuffer : Bulk}

theorem putPointersBody_of_le {i : ℕ} (hkeys : 8 * i + 8 ≤ keysBuffer.length)
    (hvals : 8 * i + 8 ≤ valsBuffer.length) (t : PutPointers) :
    putPointersBody keysBuffer valsBuffer i t = some
      { kptrs := t.kptrs ++ [(keysBuffer.drop t.keysOffset, wordAt keysBuffer i)]
        vptrs := t.vptrs ++
          [nullIfEmpty (valsBuffer.drop t.valsOffset, wordAt valsBuffer i)]
        keysOffset := (t.keysOffset + wordAt keysBuffer i) % 2 ^ 64
        valsOffset := (t.valsOffset + wordAt valsBuffer i) % 2 ^ 64 } := by
  rw [putPointersBody, readWord_of_le hkeys, readWord_of_le hvals]
  rfl

/-- The loop of a put computes the regions of the keys and of the values. -/
theorem through_putPointersBody {n i : ℕ} (hkeys : 8 * (i + n) ≤ keysBuffer.length)
    (hvals : 8 * (i + n) ≤ valsBuffer.length) (t : PutPointers) :
    ∃ t', Loop.through (putPointersBody keysBuffer valsBuffer) (List.range' i n) t = some t' ∧
      t'.kptrs = t.kptrs ++ packedRegions keysBuffer t.keysOffset (wordsFrom keysBuffer i n) ∧
      t'.vptrs = t.vptrs ++
        (packedRegions valsBuffer t.valsOffset (wordsFrom valsBuffer i n)).map nullIfEmpty := by
  induction n generalizing i t with
  | zero => exact ⟨t, rfl, by simp [wordsFrom, packedRegions]⟩
  | succ n ih =>
      rw [List.range'_succ, Loop.through, putPointersBody_of_le (by omega) (by omega),
        Option.bind_some, wordsFrom_succ, wordsFrom_succ, packedRegions, packedRegions]
      obtain ⟨t', hthrough, hkptrs, hvptrs⟩ := ih (i := i + 1) (by omega) (by omega) _
      refine ⟨t', hthrough, ?_, ?_⟩
      · rw [hkptrs, List.append_assoc, List.singleton_append]
      · rw [hvptrs, List.append_assoc, List.singleton_append, List.map_cons]

/-- Every iteration of the loop reads a word of each buffer. -/
theorem le_of_through_putPointersBody {n i : ℕ} {t : PutPointers}
    (h : Loop.through (putPointersBody keysBuffer valsBuffer) (List.range' i n) t ≠ none) :
    n = 0 ∨ 8 * (i + n) ≤ keysBuffer.length ∧ 8 * (i + n) ≤ valsBuffer.length := by
  induction n generalizing i t with
  | zero => exact Or.inl rfl
  | succ n ih =>
      rw [List.range'_succ, Loop.through] at h
      by_cases hwords : 8 * i + 8 ≤ keysBuffer.length ∧ 8 * i + 8 ≤ valsBuffer.length
      · rw [putPointersBody_of_le hwords.1 hwords.2, Option.bind_some] at h
        have hrest := ih h
        omega
      · have hnone : putPointersBody keysBuffer valsBuffer i t = none := by
          rw [putPointersBody]
          by_cases hvals : 8 * i + 8 ≤ valsBuffer.length
          · rw [readWord_of_le hvals, readWord_of_lt (by omega)]
            rfl
          · rw [readWord_of_lt (by omega)]
            rfl
        rw [hnone] at h
        exact absurd rfl h

theorem through_putPointersBody_ne_none_iff {n : ℕ} (t : PutPointers) :
    Loop.through (putPointersBody keysBuffer valsBuffer) (List.range n) t ≠ none ↔
      n = 0 ∨ 8 * n ≤ keysBuffer.length ∧ 8 * n ≤ valsBuffer.length := by
  rw [List.range_eq_range']
  constructor
  · intro hthrough
    have hle := le_of_through_putPointersBody hthrough
    rwa [Nat.zero_add] at hle
  · intro hwords
    obtain rfl | hwords := hwords
    · exact Option.some_ne_none t
    · obtain ⟨t', hthrough, -⟩ := through_putPointersBody (i := 0)
        (by rw [Nat.zero_add]; exact hwords.1) (by rw [Nat.zero_add]; exact hwords.2) t
      rw [hthrough]
      exact Option.some_ne_none t'

theorem callPutMulti_eq {σ : Type} (ds : DatastoreWrites σ) (reads : RegionReads σ) (s : σ)
    (t : PutPointers) :
    callPutMulti ds reads s t =
      if ∀ region ∈ reads s (t.kptrs ++ t.vptrs), region.2 ≤ region.1.length then
        some ((ds.putMulti s t.kptrs t.vptrs).1.code, (ds.putMulti s t.kptrs t.vptrs).2)
      else none := by
  rw [callPutMulti, if_congr mapM_readRegion_ne_none_iff.symm rfl rfl]
  cases (reads s (t.kptrs ++ t.vptrs)).mapM readRegion with
  | none => rfl
  | some data => rfl

theorem callPutMulti_ne_none_iff {σ : Type} (ds : DatastoreWrites σ) {reads : RegionReads σ}
    (hreads : ReadsAll reads) (s : σ) (t : PutPointers) :
    callPutMulti ds reads s t ≠ none ↔
      (∀ region ∈ t.kptrs, region.2 ≤ region.1.length) ∧
        ∀ region ∈ t.vptrs, region.2 ≤ region.1.length := by
  rw [callPutMulti_eq, hreads, ← List.forall_mem_append, ne_eq, ite_eq_right_iff]
  simp

/-- A datastore that reads fewer regions leaves no buffer either. -/
theorem callPutMulti_ne_none_of_within {σ : Type} {ds : DatastoreWrites σ}
    {reads all : RegionReads σ} (hreads : ReadsWithin reads) (hall : ReadsAll all) {s : σ}
    {t : PutPointers} (h : callPutMulti ds all s t ≠ none) : callPutMulti ds reads s t ≠ none := by
  have hfits := List.forall_mem_append.2 ((callPutMulti_ne_none_iff ds hall s t).1 h)
  rw [callPutMulti_eq, if_pos fun region hregion => hfits region (hreads s _ hregion)]
  exact Option.some_ne_none _

/-- The loop of a put and what the datastore reads after it stay in the buffers. -/
theorem putMulti_safe_iff {σ : Type} {ds : DatastoreWrites σ} {reads : RegionReads σ}
    (hreads : ReadsAll reads) (hkeys : keysBuffer.length < 2 ^ 64)
    (hvals : valsBuffer.length < 2 ^ 64) {n : ℕ} {s : σ} :
    (∀ fuel, (putPointers fuel n (keysBuffer, valsBuffer)).bind
        (fun t => .ofOption (callPutMulti ds reads s t)) ≠ .fault) ↔
      PutMultiFits keysBuffer valsBuffer n := by
  simp only [putPointers, PutMultiFits]
  split_ifs with hn
  · have hsizes : sizesBytes n = 8 * n := sizesBytes_of_lt (by omega)
    rw [Loop.bind_safe_iff hn, ← wordsFrom_zero, ← wordsFrom_zero]
    by_cases hwords : 8 * (0 + n) ≤ keysBuffer.length ∧ 8 * (0 + n) ≤ valsBuffer.length
    · obtain ⟨t, hthrough, hkptrs, hvptrs⟩ := through_putPointersBody hwords.1 hwords.2
        (PutPointers.start n)
      simp only [PutPointers.start, List.nil_append, hsizes] at hkptrs hvptrs
      rw [List.range_eq_range', hthrough, Option.bind_some,
        callPutMulti_ne_none_iff ds hreads, hkptrs, hvptrs, map_nullIfEmpty_le_iff,
        packedRegions_le_iff hkeys (by omega), packedRegions_le_iff hvals (by omega)]
      omega
    · have hnone : Loop.through (putPointersBody keysBuffer valsBuffer) (List.range n)
          (PutPointers.start n) = none := by
        by_contra hthrough
        have hle := (through_putPointersBody_ne_none_iff _).1 hthrough
        omega
      rw [hnone, Option.bind_none]
      simp only [ne_eq, not_true_eq_false, false_iff]
      omega
  · rw [Loop.endless_bind_safe_iff (Nat.le_of_not_lt hn)]
    apply Loop.rounds_safe_iff
    intro t
    rw [through_putPointersBody_ne_none_iff]
    omega

end PutMulti

section PutPacked

variable {localBuffer : Bulk}

/-- The loop that adds up the sizes of the keys. -/
theorem through_keySizesBody (n i k : ℕ) :
    Loop.through (keySizesBody localBuffer) (List.range' i n) k =
      if n = 0 ∨ 8 * (i + n) ≤ localBuffer.length then
        some ((wordsFrom localBuffer i n).foldl (fun k size => (k + size) % 2 ^ 64) k)
      else none := by
  induction n generalizing i k with
  | zero => rfl
  | succ n ih =>
      rw [List.range'_succ, Loop.through, keySizesBody, wordsFrom_succ, List.foldl_cons]
      by_cases hword : 8 * i + 8 ≤ localBuffer.length
      · have hwords : (n = 0 ∨ 8 * (i + 1 + n) ≤ localBuffer.length) ↔
            (n + 1 = 0 ∨ 8 * (i + (n + 1)) ≤ localBuffer.length) := by
          omega
        rw [readWord_of_le hword, Option.map_some, Option.bind_some, ih,
          if_congr hwords rfl rfl]
      · rw [readWord_of_lt (by omega), if_neg (by omega)]
        rfl

theorem packedArgs_eq (localBuffer : Bulk) (n k : ℕ) :
    packedArgs localBuffer n k =
      if n = 0 ∨ 8 * (n + n) ≤ localBuffer.length then
        some
          { keys := localBuffer.drop (8 * n + 8 * n)
            ksizes := wordsFrom localBuffer 0 n
            values := (localBuffer.drop (8 * n + 8 * n)).drop k
            vsizes := wordsFrom localBuffer n n }
      else none := by
  rw [packedArgs, readWords_eq, readWords_eq]
  by_cases hvals : n = 0 ∨ 8 * (n + n) ≤ localBuffer.length
  · rw [if_pos hvals, if_pos (by omega), if_pos hvals]
    rfl
  · rw [if_neg hvals, if_neg hvals]
    cases (if n = 0 ∨ 8 * (0 + n) ≤ localBuffer.length then some (wordsFrom localBuffer 0 n)
      else none) with
    | none => rfl
    | some sizes => rfl

theorem callPutPacked_eq {σ : Type} (ds : DatastoreWrites σ) (reads : RegionReads σ) (s : σ)
    (args : PackedArgs) :
    callPutPacked ds reads s args =
      if ∀ region ∈ reads s args.regions, region.2 ≤ region.1.length then
        some ((ds.putPacked s args.keys args.ksizes args.values args.vsizes).1.code,
          (ds.putPacked s args.keys args.ksizes args.values args.vsizes).2)
      else none := by
  rw [callPutPacked, if_congr mapM_readRegion_ne_none_iff.symm rfl rfl]
  cases (reads s args.regions).mapM readRegion with
  | none => rfl
  | some data => rfl

theorem callPutPacked_ne_none_iff {σ : Type} (ds : DatastoreWrites σ) {reads : RegionReads σ}
    (hreads : ReadsAll reads) (s : σ) (args : PackedArgs) :
    callPutPacked ds reads s args ≠ none ↔ ∀ region ∈ args.regions, region.2 ≤ region.1.length := by
  rw [callPutPacked_eq, hreads, ne_eq, ite_eq_right_iff]
  simp

theorem callPutPacked_ne_none_of_within {σ : Type} {ds : DatastoreWrites σ}
    {reads all : RegionReads σ} (hreads : ReadsWithin reads) (hall : ReadsAll all) {s : σ}
    {args : PackedArgs} (h : callPutPacked ds all s args ≠ none) :
    callPutPacked ds reads s args ≠ none := by
  have hfits := (callPutPacked_ne_none_iff ds hall s args).1 h
  rw [callPutPacked_eq, if_pos fun region hregion => hfits region (hreads s _ hregion)]
  exact Option.some_ne_none _

/-- The regions of a packed put are in the buffer when the keys and the values are. -/
theorem regions_le_iff {args : PackedArgs} (hkeys : args.keys.length < 2 ^ 64)
    (hvalues : args.values.length < 2 ^ 64) :
    (∀ region ∈ args.regions, region.2 ≤ region.1.length) ↔
      (args.ksizes.sum = 0 ∨ args.ksizes.sum ≤ args.keys.length) ∧
        (args.vsizes.sum = 0 ∨ args.vsizes.sum ≤ args.values.length) := by
  rw [PackedArgs.regions, List.forall_mem_append, packedRegions_le_iff hkeys (by decide),
    packedRegions_le_iff hvalues (by decide), Nat.zero_add, Nat.zero_add]

/-- The datastore reads both arrays of sizes, and the regions that it is handed. -/
theorem packedArgs_bind_ne_none_iff {σ : Type} (ds : DatastoreWrites σ) {reads : RegionReads σ}
    (hreads : ReadsAll reads) (hlength : localBuffer.length < 2 ^ 64) (n k : ℕ) (s : σ) :
    (packedArgs localBuffer n k).bind (callPutPacked ds reads s) ≠ none ↔
      (n = 0 ∨ 8 * (n + n) ≤ localBuffer.length) ∧
        ((wordsFrom localBuffer 0 n).sum = 0 ∨
          (wordsFrom localBuffer 0 n).sum ≤ localBuffer.length - (8 * n + 8 * n)) ∧
        ((wordsFrom localBuffer n n).sum = 0 ∨
          (wordsFrom localBuffer n n).sum ≤ localBuffer.length - (8 * n + 8 * n) - k) := by
  rw [packedArgs_eq]
  by_cases hvals : n = 0 ∨ 8 * (n + n) ≤ localBuffer.length
  · rw [if_pos hvals, Option.bind_some, callPutPacked_ne_none_iff ds hreads, regions_le_iff]
    · simp only [hvals, true_and, List.length_drop]
    · simp only [List.length_drop]
      omega
    · simp only [List.length_drop]
      omega
  · simp only [hvals, if_false, Option.bind_none, ne_eq, not_true_eq_false, false_and]

/-- The loop of a packed put and what the datastore reads after it, as one computation behind
the loop. -/
theorem putPackedArgs_bind {σ : Type} (ds : DatastoreWrites σ) (reads : RegionReads σ)
    (fuel n : ℕ) (s : σ) :
    (putPackedArgs fuel n localBuffer).bind
        (fun args => .ofOption (callPutPacked ds reads s args)) =
      (Loop.counted 32 n (keySizesBody localBuffer) fuel 0 0).bind fun k =>
        .ofOption ((packedArgs localBuffer n k).bind (callPutPacked ds reads s)) := by
  rw [putPackedArgs]
  cases Loop.counted 32 n (keySizesBody localBuffer) fuel 0 0 with
  | done k =>
      simp only [Loop.Run.bind]
      cases packedArgs localBuffer n k <;> rfl
  | fault => rfl
  | running => rfl

/-- A packed put stays in its buffer. -/
theorem putPacked_safe_iff {σ : Type} {ds : DatastoreWrites σ} {reads : RegionReads σ}
    (hreads : ReadsAll reads) (hlength : localBuffer.length < 2 ^ 64) {n : ℕ} {s : σ} :
    (∀ fuel, (putPackedArgs fuel n localBuffer).bind
        (fun args => .ofOption (callPutPacked ds reads s args)) ≠ .fault) ↔
      PutPackedFits localBuffer n := by
  simp only [putPackedArgs_bind]
  rw [PutPackedFits]
  split_ifs with hn
  · have hsum := Loop.foldl_add_mod (2 ^ 64) (wordsFrom localBuffer 0 n) 0
    rw [Nat.zero_mod, Nat.zero_add] at hsum
    rw [Loop.bind_safe_iff hn, List.range_eq_range', ← wordsFrom_zero, through_keySizesBody, hsum]
    by_cases hzero : n = 0
    · subst hzero
      rw [if_pos (Or.inl rfl), Option.bind_some, packedArgs_bind_ne_none_iff ds hreads hlength]
      simp [wordsFrom]
    · split_ifs with hwords
      · rw [Option.bind_some, packedArgs_bind_ne_none_iff ds hreads hlength]
        omega
      · simp only [Option.bind_none, ne_eq, not_true_eq_false, false_iff]
        omega
  · rw [Loop.endless_bind_safe_iff (Nat.le_of_not_lt hn)]
    apply Loop.rounds_safe_iff
    intro k
    rw [List.range_eq_range', through_keySizesBody]
    by_cases hwords : 8 * 2 ^ 32 ≤ localBuffer.length
    · rw [if_pos (by omega)]
      simp only [ne_eq, reduceCtorEq, not_false_eq_true, hwords]
    · rw [if_neg (by omega)]
      simp only [ne_eq, not_true_eq_false, hwords]

end PutPacked

end Put

end Sdskv
