import Sdskv.Wire.Codec

/-!
# Checked accesses to a buffer

A read or a write of bytes at an offset of a buffer is `none` when one of the bytes lies
outside of it. An access to no bytes is in bounds wherever it points. The words at the
start of a buffer are an array, and what follows it is written at offsets after the array.

`readPacked` reads items that lie back to back behind an array of their sizes.
-/

namespace Wire

/-- The `n` bytes at an offset. -/
def readBytes (buffer : List UInt8) (offset n : ℕ) : Option (List UInt8) :=
  if n = 0 ∨ offset + n ≤ buffer.length then some ((buffer.drop offset).take n) else none

/-- The word of 8 bytes at an offset. -/
def readWord (buffer : List UInt8) (offset : ℕ) : Option ℕ :=
  (readBytes buffer offset 8).map leValue

/-- The word with the number `i`, where the buffer has it. -/
def wordAt (buffer : List UInt8) (i : ℕ) : ℕ := leValue ((buffer.drop (8 * i)).take 8)

/-- Bytes are copied to an offset. -/
def writeBytes (buffer : List UInt8) (offset : ℕ) (data : List UInt8) :
    Option (List UInt8) :=
  if data = [] ∨ offset + data.length ≤ buffer.length then
    some (buffer.take offset ++ data ++ buffer.drop (offset + data.length))
  else none

/-- A word of 8 bytes is written at an offset. -/
def writeWord (buffer : List UInt8) (offset v : ℕ) : Option (List UInt8) :=
  writeBytes buffer offset (leBytes 8 v)

theorem readBytes_eq_some_iff {buffer : List UInt8} {offset n : ℕ} {data : List UInt8} :
    readBytes buffer offset n = some data ↔
      (n = 0 ∨ offset + n ≤ buffer.length) ∧ data = (buffer.drop offset).take n := by
  rw [readBytes]
  split_ifs with h
  · simp [h, eq_comm]
  · simp [h]

theorem readBytes_isSome_iff {buffer : List UInt8} {offset n : ℕ} :
    readBytes buffer offset n ≠ none ↔ n = 0 ∨ offset + n ≤ buffer.length := by
  rw [readBytes]
  split_ifs with h <;> simp [h]

theorem length_readBytes {buffer data : List UInt8} {offset n : ℕ}
    (h : readBytes buffer offset n = some data) : data.length = n := by
  obtain ⟨hroom, rfl⟩ := readBytes_eq_some_iff.1 h
  rw [List.length_take, List.length_drop]
  omega

theorem readWord_ne_none_iff {buffer : List UInt8} {offset : ℕ} :
    readWord buffer offset ≠ none ↔ offset + 8 ≤ buffer.length := by
  rw [readWord, ne_eq, Option.map_eq_none_iff, ← ne_eq, readBytes_isSome_iff]
  simp

theorem readWord_of_le {buffer : List UInt8} {i : ℕ} (h : 8 * i + 8 ≤ buffer.length) :
    readWord buffer (8 * i) = some (wordAt buffer i) := by
  rw [readWord, readBytes, if_pos (Or.inr h), Option.map_some, wordAt]

theorem leValue_lt (bs : List UInt8) : leValue bs < 256 ^ bs.length := by
  induction bs with
  | nil => simp [leValue]
  | cons b bs ih =>
      have hbyte := b.toNat_lt
      rw [leValue, List.length_cons, Nat.pow_succ]
      omega

theorem wordAt_lt (buffer : List UInt8) (i : ℕ) : wordAt buffer i < 2 ^ 64 := by
  have hlt := leValue_lt ((buffer.drop (8 * i)).take 8)
  have hle : ((buffer.drop (8 * i)).take 8).length ≤ 8 := List.length_take_le _ _
  have hpow := Nat.pow_le_pow_right (show 0 < 256 by decide) hle
  rw [wordAt]
  omega

/-- What stands at an offset is read back. -/
theorem readBytes_of_drop {buffer rest data : List UInt8} {offset : ℕ}
    (h : buffer.drop offset = data ++ rest) :
    readBytes buffer offset data.length = some data := by
  rw [readBytes_eq_some_iff, h, List.take_left]
  refine ⟨?_, rfl⟩
  by_cases hnil : data.length = 0
  · exact Or.inl hnil
  · right
    have hlen := congrArg List.length h
    rw [List.length_drop, List.length_append] at hlen
    omega

theorem length_writeBytes {buffer buffer' data : List UInt8} {offset : ℕ}
    (h : writeBytes buffer offset data = some buffer') : buffer'.length = buffer.length := by
  rw [writeBytes] at h
  split_ifs at h with hroom
  cases h
  obtain rfl | hroom := hroom
  · simp
  · simp
    omega

theorem writeBytes_ne_none_iff {buffer data : List UInt8} {offset : ℕ} :
    writeBytes buffer offset data ≠ none ↔
      data = [] ∨ offset + data.length ≤ buffer.length := by
  rw [writeBytes]
  split_ifs with h <;> simp [h]

theorem writeBytes_nil (buffer : List UInt8) (offset : ℕ) :
    writeBytes buffer offset [] = some buffer := by
  rw [writeBytes, if_pos (Or.inl rfl), List.append_nil, List.length_nil, Nat.add_zero,
    List.take_append_drop]

/-- Writing over bytes of the same number behind a part that stays. -/
theorem writeBytes_append {before old data : List UInt8} (after : List UInt8) {offset : ℕ}
    (hoffset : offset = before.length) (hlen : old.length = data.length) :
    writeBytes (before ++ old ++ after) offset data = some (before ++ data ++ after) := by
  subst hoffset
  have hroom : before.length + data.length ≤ (before ++ old ++ after).length := by
    simp [hlen]
  have hdrop : (before ++ old ++ after).drop (before.length + data.length) = after := by
    rw [← hlen, List.append_assoc, ← List.drop_drop, List.drop_left, List.drop_left]
  rw [writeBytes, if_pos (Or.inr hroom), hdrop, List.append_assoc before old, List.take_left]

theorem writeWord_ne_none_iff {buffer : List UInt8} {offset v : ℕ} :
    writeWord buffer offset v ≠ none ↔ offset + 8 ≤ buffer.length := by
  have hword : leBytes 8 v ≠ [] := by
    intro h
    have hlen := congrArg List.length h
    simp at hlen
  rw [writeWord, writeBytes_ne_none_iff, length_leBytes]
  simp [hword]

theorem exists_writeWord {buffer : List UInt8} {offset : ℕ} (h : offset + 8 ≤ buffer.length)
    (v : ℕ) : ∃ buffer', writeWord buffer offset v = some buffer' ∧
      buffer'.length = buffer.length := by
  obtain ⟨buffer', hwrite⟩ := Option.ne_none_iff_exists'.1 (writeWord_ne_none_iff.2 h)
  exact ⟨buffer', hwrite, length_writeBytes hwrite⟩

/-- A write changes no byte in front of it. -/
theorem take_writeBytes {buffer buffer' data : List UInt8} {offset n : ℕ}
    (h : writeBytes buffer offset data = some buffer') (hle : n ≤ offset) :
    buffer'.take n = buffer.take n := by
  rw [writeBytes] at h
  split_ifs at h with hroom
  cases h
  obtain rfl | hroom := hroom
  · simp
  · have hfront : n ≤ (buffer.take offset).length := by
      rw [List.length_take]
      omega
    rw [List.append_assoc, List.take_append_of_le_length hfront, List.take_take,
      Nat.min_eq_left hle]

/-- What was written stands at its offset. -/
theorem prefix_drop_writeBytes {buffer buffer' data : List UInt8} {offset : ℕ}
    (h : writeBytes buffer offset data = some buffer') (hoffset : offset ≤ buffer.length) :
    data <+: buffer'.drop offset := by
  rw [writeBytes] at h
  split_ifs at h
  cases h
  have hfront : (buffer.take offset).length = offset := by
    rw [List.length_take]
    omega
  rw [List.append_assoc, List.drop_left' hfront]
  exact List.prefix_append _ _

/-- A write changes no byte behind it. -/
theorem drop_writeBytes {buffer buffer' data : List UInt8} {offset n : ℕ}
    (h : writeBytes buffer offset data = some buffer') (hle : offset + data.length ≤ n) :
    buffer'.drop n = buffer.drop n := by
  rw [writeBytes] at h
  split_ifs at h with hroom
  cases h
  obtain rfl | hroom := hroom
  · simp
  · have hlength : (buffer.take offset ++ data).length = offset + data.length := by
      rw [List.length_append, List.length_take, Nat.min_eq_left (by omega)]
    rw [show n = (buffer.take offset ++ data).length + (n - (offset + data.length)) by omega,
      ← List.drop_drop, List.drop_left, List.drop_drop, hlength]

theorem readBytes_writeBytes {buffer buffer' data : List UInt8} {offset n offset' : ℕ}
    (h : writeBytes buffer offset' data = some buffer') (hle : offset + n ≤ offset') :
    readBytes buffer' offset n = readBytes buffer offset n := by
  rw [readBytes, readBytes, length_writeBytes h, List.take_drop, List.take_drop,
    take_writeBytes h hle]

/-- A word that a write does not overlap keeps its value. -/
theorem wordAt_writeBytes {buffer buffer' data : List UInt8} {offset i : ℕ}
    (h : writeBytes buffer offset data = some buffer')
    (hapart : 8 * i + 8 ≤ offset ∨ offset + data.length ≤ 8 * i) :
    wordAt buffer' i = wordAt buffer i := by
  rw [wordAt, wordAt]
  obtain hbefore | hbehind := hapart
  · rw [List.take_drop, List.take_drop, take_writeBytes h hbefore]
  · rw [drop_writeBytes h hbehind]

theorem readWord_writeBytes {buffer buffer' data : List UInt8} {offset offset' : ℕ}
    (h : writeBytes buffer offset' data = some buffer') (hle : offset + 8 ≤ offset') :
    readWord buffer' offset = readWord buffer offset := by
  rw [readWord, readWord, readBytes_writeBytes h hle]

theorem readWord_writeWord {buffer buffer' : List UInt8} {offset v : ℕ}
    (h : writeWord buffer offset v = some buffer') (hv : v < 2 ^ 64) :
    readWord buffer' offset = some v := by
  have hroom := writeWord_ne_none_iff.1 (h ▸ Option.some_ne_none buffer')
  rw [writeWord, writeBytes, length_leBytes, if_pos (Or.inr hroom)] at h
  cases h
  have hfront : (buffer.take offset).length = offset := by
    rw [List.length_take]
    omega
  have hdrop : (buffer.take offset ++ leBytes 8 v ++ buffer.drop (offset + 8)).drop offset =
      leBytes 8 v ++ buffer.drop (offset + 8) := by
    rw [List.append_assoc]
    exact List.drop_left' hfront
  have hread := readBytes_of_drop hdrop
  rw [length_leBytes] at hread
  rw [readWord, hread, Option.map_some, leValue_leBytes (by simpa using hv)]

section Words

theorem arrayBytes_append (w : ℕ) (us vs : List ℕ) :
    arrayBytes w (us ++ vs) = arrayBytes w us ++ arrayBytes w vs :=
  List.flatMap_append

theorem arrayBytes_cons (w v : ℕ) (vs : List ℕ) :
    arrayBytes w (v :: vs) = leBytes w v ++ arrayBytes w vs := rfl

theorem arrayBytes_replicate_zero (n : ℕ) :
    arrayBytes 8 (List.replicate n 0) = List.replicate (8 * n) 0 := by
  induction n with
  | zero => rfl
  | succ n ih =>
      have hword : leBytes 8 0 = List.replicate 8 0 := rfl
      rw [List.replicate_succ, arrayBytes_cons, ih, hword, ← List.replicate_add,
        Nat.mul_succ, Nat.add_comm]

/-- A word of an array at the start of a buffer is read back. -/
theorem readWord_arrayBytes (before after : List ℕ) {v : ℕ} (hv : v < 2 ^ 64)
    (rest : List UInt8) :
    readWord (arrayBytes 8 (before ++ v :: after) ++ rest) (8 * before.length) = some v := by
  have hdrop : (arrayBytes 8 (before ++ v :: after) ++ rest).drop (8 * before.length) =
      leBytes 8 v ++ (arrayBytes 8 after ++ rest) := by
    rw [arrayBytes_append, arrayBytes_cons, List.append_assoc, List.append_assoc]
    exact List.drop_left' (length_arrayBytes 8 before)
  have hread := readBytes_of_drop hdrop
  rw [length_leBytes] at hread
  rw [readWord, hread, Option.map_some, leValue_leBytes (by simpa using hv)]

/-- A word of an array at the start of a buffer is replaced. -/
theorem writeWord_arrayBytes (before after : List ℕ) (u v : ℕ) (rest : List UInt8) :
    writeWord (arrayBytes 8 (before ++ u :: after) ++ rest) (8 * before.length) v =
      some (arrayBytes 8 (before ++ v :: after) ++ rest) := by
  have hsplit : ∀ x, arrayBytes 8 (before ++ x :: after) ++ rest =
      arrayBytes 8 before ++ leBytes 8 x ++ (arrayBytes 8 after ++ rest) := by
    intro x
    simp only [arrayBytes_append, arrayBytes_cons, List.append_assoc]
  rw [hsplit u, hsplit v, writeWord]
  exact writeBytes_append _ (length_arrayBytes 8 before).symm (by simp)

end Words

section Packed

/-- Read `n` items from `packed + offset` on, whose sizes are the words from number `i` on. -/
def readPacked (buffer : List UInt8) (packed : ℕ) : ℕ → ℕ → ℕ → Option (List (List UInt8))
  | 0, _, _ => some []
  | n + 1, i, offset => do
      let size ← readWord buffer (8 * i)
      let item ← readBytes buffer (packed + offset) size
      let items ← readPacked buffer packed n (i + 1) (offset + size)
      some (item :: items)

/-- Items that lie back to back behind an array of their sizes. -/
def packItems (items : List (List UInt8)) : List UInt8 :=
  arrayBytes 8 (items.map List.length) ++ items.flatten

/-- The items of the given sizes that lie back to back from an offset on. -/
def cutItems (buffer : List UInt8) : ℕ → List ℕ → List (List UInt8)
  | _, [] => []
  | offset, size :: sizes =>
      (buffer.drop offset).take size :: cutItems buffer (offset + size) sizes

theorem cutItems_of_drop {buffer rest : List UInt8} {offset : ℕ} {items : List (List UInt8)}
    (h : buffer.drop offset = items.flatten ++ rest) :
    cutItems buffer offset (items.map List.length) = items := by
  induction items generalizing offset with
  | nil => rfl
  | cons item items ih =>
      rw [List.flatten_cons, List.append_assoc] at h
      rw [List.map_cons, cutItems, h, List.take_left, ih]
      rw [← List.drop_drop, h, List.drop_left]

/-- The words of a buffer from number `i` on. -/
def wordsFrom (buffer : List UInt8) (i n : ℕ) : List ℕ :=
  (List.range' i n).map (wordAt buffer)

theorem wordsFrom_succ (buffer : List UInt8) (i n : ℕ) :
    wordsFrom buffer i (n + 1) = wordAt buffer i :: wordsFrom buffer (i + 1) n := by
  rw [wordsFrom, List.range'_succ, List.map_cons, ← wordsFrom]

theorem wordsFrom_zero (buffer : List UInt8) (n : ℕ) :
    wordsFrom buffer 0 n = readArray 8 buffer n := by
  rw [wordsFrom, readArray, List.range_eq_range']
  rfl

theorem wordsFrom_eq_readArray (buffer : List UInt8) (i n : ℕ) :
    wordsFrom buffer i n = readArray 8 (buffer.drop (8 * i)) n := by
  rw [wordsFrom, readArray, List.range'_eq_map_range, List.map_map]
  apply List.map_congr_left
  intro j _
  rw [Function.comp_apply, wordAt, List.drop_drop, Nat.mul_add]

/-- Read `n` words from number `i` on. -/
def readWords (buffer : List UInt8) (i n : ℕ) : Option (List ℕ) :=
  (List.range' i n).mapM fun j => readWord buffer (8 * j)

theorem readWord_of_lt {buffer : List UInt8} {offset : ℕ} (h : buffer.length < offset + 8) :
    readWord buffer offset = none := by
  by_contra hsome
  have hle := readWord_ne_none_iff.1 hsome
  omega

/-- The words are read when all of them are in the buffer. -/
theorem readWords_eq (buffer : List UInt8) (i n : ℕ) :
    readWords buffer i n =
      if n = 0 ∨ 8 * (i + n) ≤ buffer.length then some (wordsFrom buffer i n) else none := by
  induction n generalizing i with
  | zero => rfl
  | succ n ih =>
      have hrest := ih (i + 1)
      rw [readWords] at hrest
      rw [readWords, List.range'_succ, List.mapM_cons, hrest, wordsFrom_succ]
      by_cases hword : 8 * i + 8 ≤ buffer.length
      · rw [readWord_of_le hword]
        by_cases hle : n = 0 ∨ 8 * (i + 1 + n) ≤ buffer.length
        · rw [if_pos hle, if_pos (by omega)]
          rfl
        · rw [if_neg hle, if_neg (by omega)]
          rfl
      · have hout : ¬ (n + 1 = 0 ∨ 8 * (i + (n + 1)) ≤ buffer.length) := by omega
        rw [readWord_of_lt (by omega), if_neg hout]
        rfl

theorem readPacked_ne_none_iff {buffer : List UInt8} {packed n i offset : ℕ} :
    readPacked buffer packed n i offset ≠ none ↔
      (n = 0 ∨ 8 * (i + n) ≤ buffer.length) ∧ ((wordsFrom buffer i n).sum = 0 ∨
        packed + offset + (wordsFrom buffer i n).sum ≤ buffer.length) := by
  induction n generalizing i offset with
  | zero => simp [readPacked, wordsFrom]
  | succ n ih =>
      rw [readPacked, wordsFrom_succ, List.sum_cons]
      by_cases hword : 8 * i + 8 ≤ buffer.length
      · simp only [readWord_of_le hword, Option.bind_eq_bind, Option.bind_some]
        generalize wordAt buffer i = size
        by_cases hitem : size = 0 ∨ packed + offset + size ≤ buffer.length
        · rw [readBytes, if_pos hitem, Option.bind_some]
          have hrest := @ih (i + 1) (offset + size)
          cases htail : readPacked buffer packed n (i + 1) (offset + size) with
          | none =>
              rw [htail] at hrest
              simp only [Option.bind_none, ne_eq, not_true_eq_false, false_iff] at hrest ⊢
              omega
          | some items =>
              rw [htail] at hrest
              simp only [Option.bind_some, ne_eq, reduceCtorEq, not_false_eq_true,
                true_iff] at hrest ⊢
              omega
        · rw [readBytes, if_neg hitem, Option.bind_none]
          simp only [ne_eq, not_true_eq_false, false_iff]
          omega
      · rw [readWord_of_lt (by omega)]
        simp only [Option.bind_eq_bind, Option.bind_none, ne_eq, not_true_eq_false, false_iff]
        omega

/-- The items that are read have the sizes of the array, and are cut out of the buffer. -/
theorem of_readPacked {buffer : List UInt8} {packed n i offset : ℕ} {items : List (List UInt8)}
    (h : readPacked buffer packed n i offset = some items) :
    items.map List.length = wordsFrom buffer i n ∧
      items = cutItems buffer (packed + offset) (wordsFrom buffer i n) := by
  induction n generalizing i offset items with
  | zero =>
      cases h
      exact ⟨rfl, rfl⟩
  | succ n ih =>
      rw [readPacked, Option.bind_eq_bind, Option.bind_eq_some_iff] at h
      obtain ⟨size, hsize, h⟩ := h
      rw [Option.bind_eq_bind, Option.bind_eq_some_iff] at h
      obtain ⟨item, hitem, h⟩ := h
      rw [Option.bind_eq_bind, Option.bind_eq_some_iff] at h
      obtain ⟨rest, hrest, h⟩ := h
      cases h
      have hword : 8 * i + 8 ≤ buffer.length := by
        apply readWord_ne_none_iff.1
        rw [hsize]
        exact Option.some_ne_none size
      rw [readWord_of_le hword] at hsize
      cases hsize
      obtain ⟨hlengths, hcut⟩ := ih hrest
      rw [wordsFrom_succ, List.map_cons, cutItems, length_readBytes hitem, hlengths]
      refine ⟨rfl, ?_⟩
      rw [(readBytes_eq_some_iff.1 hitem).2, Nat.add_assoc packed, ← hcut]

theorem length_of_readPacked {buffer : List UInt8} {packed n i offset : ℕ}
    {items : List (List UInt8)} (h : readPacked buffer packed n i offset = some items) :
    items.length = n := by
  have hlength := congrArg List.length (of_readPacked h).1
  rwa [List.length_map, wordsFrom, List.length_map, List.length_range'] at hlength

/-- The size of an item is read from the array. -/
theorem readWord_packItems (before after : List (List UInt8)) {item : List UInt8}
    (hlt : item.length < 2 ^ 64) (rest : List UInt8) :
    readWord (packItems (before ++ item :: after) ++ rest) (8 * before.length) =
      some item.length := by
  have hread := readWord_arrayBytes (before.map List.length) (after.map List.length) hlt
    ((before ++ item :: after).flatten ++ rest)
  rwa [List.length_map, ← List.map_cons, ← List.map_append, ← List.append_assoc] at hread

/-- An item is read behind those in front of it. -/
theorem readBytes_packItems (before after : List (List UInt8)) (item rest : List UInt8) :
    readBytes (packItems (before ++ item :: after) ++ rest)
      (8 * (before ++ item :: after).length + before.flatten.length) item.length =
      some item := by
  have hdrop : (packItems (before ++ item :: after) ++ rest).drop
      (8 * (before ++ item :: after).length + before.flatten.length) =
        item ++ (after.flatten ++ rest) := by
    rw [packItems, ← List.drop_drop, List.append_assoc, List.drop_left' (by simp),
      List.flatten_append, List.flatten_cons, List.append_assoc, List.append_assoc]
    exact List.drop_left
  exact readBytes_of_drop hdrop

/-- The items behind the first ones are read back. -/
theorem readPacked_packItems (before : List (List UInt8)) {items : List (List UInt8)}
    (hlt : ∀ item ∈ items, item.length < 2 ^ 64) (rest : List UInt8) :
    readPacked (packItems (before ++ items) ++ rest) (8 * (before ++ items).length)
      items.length before.length before.flatten.length = some items := by
  induction items generalizing before with
  | nil => rfl
  | cons item items ih =>
      have hsize := readWord_packItems before items (hlt item List.mem_cons_self) rest
      have hitem := readBytes_packItems before items item rest
      have hrest := ih (before ++ [item])
        (fun item' h => hlt item' (List.mem_cons_of_mem item h))
      have hcount : (before ++ [item]).length = before.length + 1 := by simp
      have hoffset : (before ++ [item]).flatten.length =
          before.flatten.length + item.length := by simp
      rw [hcount, hoffset, List.append_assoc, List.singleton_append] at hrest
      rw [List.length_cons, readPacked, hsize, Option.bind_eq_bind, Option.bind_some, hitem,
        Option.bind_eq_bind, Option.bind_some, hrest]
      rfl

/-- The sizes are read back from a buffer that the array of them has been copied to. -/
theorem readArray_take_packItems {items : List (List UInt8)}
    (hlt : ∀ item ∈ items, item.length < 2 ^ 64) {m : ℕ} (hm : 8 * items.length ≤ m) :
    readArray 8 ((packItems items).take m) items.length = items.map List.length := by
  have hle : (arrayBytes 8 (items.map List.length)).length ≤ m := by
    rw [length_arrayBytes, List.length_map]
    exact hm
  have hwords : ∀ v ∈ items.map List.length, v < 256 ^ 8 := by
    intro v hv
    obtain ⟨item, hitem, rfl⟩ := List.mem_map.1 hv
    exact hlt item hitem
  have hread := readArray_arrayBytes hwords
    (items.flatten.take (m - (arrayBytes 8 (items.map List.length)).length))
  rw [List.length_map] at hread
  rwa [packItems, List.take_append, List.take_of_length_le hle]

/-- The items are read back from a buffer that all of them have been copied to, and from no
shorter one. -/
theorem readPacked_take {items : List (List UInt8)} (hlt : ∀ item ∈ items, item.length < 2 ^ 64)
    (m : ℕ) :
    readPacked ((packItems items).take m) (8 * items.length) items.length 0 0 =
      if (packItems items).length ≤ m then some items else none := by
  split_ifs with hm
  · rw [List.take_of_length_le hm]
    have hread := readPacked_packItems [] hlt []
    rwa [List.append_nil] at hread
  · by_contra hread
    obtain ⟨hsizes, hitems⟩ := readPacked_ne_none_iff.1 hread
    have hlen : (packItems items).length = 8 * items.length + items.flatten.length := by
      simp [packItems]
    rw [List.length_take, Nat.zero_add] at hsizes
    have harray := readArray_take_packItems hlt (m := m) (by omega)
    rw [wordsFrom_zero, harray, ← List.length_flatten, List.length_take] at hitems
    omega

end Packed

end Wire
