import Sdskv.Client.Exits
import Sdskv.Client.ProviderHandle
import Sdskv.Loop.While

/-!
# The batches of the benchmark

The benchmarks `put-multi`, `get-multi`, `length-multi` and `erase-multi` generate their keys
and values in `setup` and send them in batches in `execute`. Each has a copy of the loop that
fills the arrays of a batch from the position `j` on and counts down the entries that remain.
The copy of `PutMultiBenchmark` does not advance `j`.

The random numbers are a parameter: `gen i` is the key and the value that the iteration `i` of
the generating loop makes. So are the outcomes of the calls: `remote i` has the answers of the
transport calls of the call `i` and the answer of the handler. A call that returns an error code
throws an exception, which leaves `execute`. An access outside of a vector is a fault, and so is
a call of the client whose behaviour is undefined.
-/

namespace Sdskv

open Loop (Run forLoop whileLoop)

/-- An entry of the arrays `m_kptrs` and `m_ksizes` (and `m_vptrs` and `m_vsizes`): the position
in `m_keys` that the pointer is taken from, the key there, the value at the same position of
`m_vals`, and the position in `m_vals_buffer` that a value is read into. -/
structure BatchSlot where
  position : ℕ
  key : Bulk
  value : Option Bulk
  buffer : Option ℕ
  deriving DecidableEq

/-- The members that `execute` reads: `valsBuffer` and `vsizes` are the sizes of the vectors
`m_vals_buffer` and, in `LengthMultiBenchmark`, `m_vsizes`. -/
structure BatchMembers where
  numEntries : ℕ
  batchSize : ℕ
  reuseBuffer : Bool
  keys : List Bulk
  vals : List Bulk
  valsBuffer : ℕ
  vsizes : ℕ

/-- The variables of `execute`, the arrays of the batch, the batches that were sent, and the code
of the exception that has left the loop. An array entry that was never written is `none`. -/
structure BatchState where
  slots : List (Option BatchSlot)
  remaining : ℕ
  j : ℕ
  k : ℕ
  sent : List (List (Option BatchSlot))
  thrown : Option Int

/-- `remaining != 0`, in a loop that no exception has left. -/
def BatchState.more (s : BatchState) : Bool := decide (s.remaining ≠ 0 ∧ s.thrown = none)

/-- The outcomes of the calls of `execute`. -/
abbrev RemoteCalls := ℕ → MultiCalls × Int

/-- A call of the client with a batch. The calls before it have all sent theirs. -/
def BatchState.call (s : BatchState) (remote : RemoteCalls) (f : MultiFunction)
    (batch : List (Option BatchSlot)) : Run BatchState :=
  (Run.ofOption (f.returned (remote s.sent.length).1 (remote s.sent.length).2)).map fun x =>
    { s with
      sent := if x.1 then s.sent ++ [batch] else s.sent
      thrown := checkRet x.2 }

/-- The sizes in `m_ksizes`; an entry that was never written is zero. -/
def slotSizes (slots : List (Option BatchSlot)) : List ℕ :=
  slots.map fun slot => slot.elim 0 fun x => x.key.length

/-- `v.resize(n)`. -/
def resizeSlots (slots : List (Option BatchSlot)) (n : ℕ) : List (Option BatchSlot) :=
  slots.take n ++ List.replicate (n - slots.length) none

/-- `for (unsigned i = 0; i < count; i++)`, where the iteration `i` writes `slot i` to the entry
`i` of the arrays. -/
def fillSlots (slot : ℕ → Option BatchSlot) (count : ℕ) (slots : List (Option BatchSlot)) :
    Run (List (Option BatchSlot)) :=
  forLoop 32 count
    (fun i slots => (slot i).bind fun x =>
      if i < slots.length then some (slots.set i (some x)) else none)
    slots

/-- An `unsigned` after `+= count`. -/
def advance32 (n count : ℕ) : ℕ := (n + count) % 2 ^ 32

namespace BatchMembers

/-- The loop that generates the keys and the values; `none` when it does not end. -/
def generate (gen : ℕ → Bulk × Bulk) (numEntries : ℕ) : Option (List (Bulk × Bulk)) :=
  (Loop.indices 32 numEntries).map fun is => is.map gen

/-- The key at a position of `m_keys`. -/
def keySlot (b : BatchMembers) (p : ℕ) : Option BatchSlot :=
  b.keys[p]?.map fun key => { position := p, key := key, value := none, buffer := none }

/-- The beginning of `execute`. -/
def initial (b : BatchMembers) : BatchState where
  slots := List.replicate b.batchSize none
  remaining := b.numEntries
  j := 0
  k := 0
  sent := []
  thrown := none

/-- The arrays after `if (count != m_batch_size) resize(count)`. -/
def shrink (b : BatchMembers) (count : ℕ) (slots : List (Option BatchSlot)) :
    List (Option BatchSlot) :=
  if count ≠ b.batchSize then resizeSlots slots count else slots

/-- An iteration of `PutMultiBenchmark::execute`. -/
def putMultiBody (b : BatchMembers) (remote : RemoteCalls) (s : BatchState) : Run BatchState :=
  let count := min s.remaining b.batchSize
  let slot := fun i =>
    let p := advance32 i s.j
    (b.keySlot p).bind fun x => b.vals[p]?.map fun val => { x with value := some val }
  (fillSlots slot count s.slots).bind fun slots =>
    let slots := b.shrink count slots
    (s.call remote (.putMulti (slotSizes slots)) slots).map fun t =>
      { t with
        slots := slots
        remaining := s.remaining - count }

/-- An iteration of `GetMultiBenchmark::execute`. -/
def getMultiBody (b : BatchMembers) (remote : RemoteCalls) (s : BatchState) : Run BatchState :=
  let count := min s.remaining b.batchSize
  let slot := fun i =>
    let q := advance32 i s.k
    (b.keySlot (advance32 i s.j)).bind fun x =>
      if q < b.valsBuffer then some { x with buffer := some q } else none
  (fillSlots slot count s.slots).bind fun slots =>
    let slots := b.shrink count slots
    (s.call remote (.getMulti slots.length false) slots).map fun t =>
      { t with
        slots := slots
        remaining := s.remaining - count
        j := advance32 s.j count
        k := if b.reuseBuffer then s.k else advance32 s.k count }

/-- An iteration of `LengthMultiBenchmark::execute`: the call gets the number of keys, and
writes as many sizes from the position `k` of `m_vsizes` on. -/
def lengthMultiBody (b : BatchMembers) (remote : RemoteCalls) (s : BatchState) : Run BatchState :=
  let count := min s.remaining b.batchSize
  (fillSlots (fun i => b.keySlot (advance32 i s.j)) count s.slots).bind fun slots =>
    if count ≤ slots.length ∧ s.k + count ≤ b.vsizes then
      (s.call remote (.lengthMulti count) (slots.take count)).map fun t =>
        { t with
          slots := slots
          remaining := s.remaining - count
          j := advance32 s.j count
          k := if b.reuseBuffer then s.k else advance32 s.k count }
    else .fault

/-- An iteration of `EraseMultiBenchmark::execute`. -/
def eraseMultiBody (b : BatchMembers) (remote : RemoteCalls) (s : BatchState) : Run BatchState :=
  let count := min s.remaining b.batchSize
  (fillSlots (fun i => b.keySlot (advance32 i s.j)) count s.slots).bind fun slots =>
    if count ≤ slots.length then
      (s.call remote (.eraseMulti count) (slots.take count)).map fun t =>
        { t with
          slots := slots
          remaining := s.remaining - count
          j := advance32 s.j count }
    else .fault

end BatchMembers

/-- The benchmarks that send batches. -/
inductive BatchBenchmark
  | putMulti
  | getMulti
  | lengthMulti
  | eraseMulti
  deriving DecidableEq

namespace BatchBenchmark

/-- `setup`; `none` when it does not end. `m_vals` is a member of `PutMultiBenchmark` only, and
`m_vals_buffer` is emptied by `EraseBenchmark::setup`. The puts of the others change no
member. -/
def setup (benchmark : BatchBenchmark) (gen : ℕ → Bulk × Bulk) (numEntries batchSize : ℕ)
    (reuseBuffer : Bool) : Option BatchMembers :=
  (BatchMembers.generate gen numEntries).map fun pairs =>
    let shared := if reuseBuffer then batchSize else numEntries
    { numEntries := numEntries
      batchSize := batchSize
      reuseBuffer := reuseBuffer
      keys := pairs.map Prod.fst
      vals := if benchmark = putMulti then pairs.map Prod.snd else []
      valsBuffer := if benchmark = getMulti then shared else 0
      vsizes := if benchmark = lengthMulti then shared else 0 }

/-- An iteration of `execute`. -/
def body (b : BatchMembers) (remote : RemoteCalls) :
    BatchBenchmark → BatchState → Run BatchState
  | putMulti => b.putMultiBody remote
  | getMulti => b.getMultiBody remote
  | lengthMulti => b.lengthMultiBody remote
  | eraseMulti => b.eraseMultiBody remote

/-- `execute`, within `fuel` tests of the condition: the batches that it sends before it ends or
an exception leaves it. -/
def execute (benchmark : BatchBenchmark) (b : BatchMembers) (remote : RemoteCalls) (fuel : ℕ) :
    Run (List (List (Option BatchSlot))) :=
  (whileLoop BatchState.more (benchmark.body b remote) fuel b.initial).map BatchState.sent

/-- All benchmarks but `erase-multi` call a function that exposes memory for the results. -/
def exposesResults : BatchBenchmark → Bool
  | eraseMulti => false
  | _ => true

end BatchBenchmark

section Filling

/-- What a batch sends of an entry, with its position in `m_keys`. -/
def BatchSlot.entry (x : BatchSlot) : ℕ × Bulk × Option Bulk := (x.position, x.key, x.value)

theorem advance32_of_lt {n count : ℕ} (h : n + count < 2 ^ 32) : advance32 n count = n + count :=
  Nat.mod_eq_of_lt h

/-- A loop that stays within the arrays fills their beginning. -/
theorem fillSlots_eq_done {slot : ℕ → Option BatchSlot} {x : ℕ → BatchSlot} {count : ℕ}
    {slots : List (Option BatchSlot)} (hslot : ∀ i < count, slot i = some (x i))
    (hcount : count < 2 ^ 32) (hlen : count ≤ slots.length) :
    ∃ filled, fillSlots slot count slots = .done filled ∧ filled.length = slots.length ∧
      filled.take count = (List.range count).map fun i => some (x i) := by
  have hstep : ∀ i (filled : List (Option BatchSlot)), i < count →
      (filled.length = slots.length ∧
        filled.take i = (List.range i).map fun i => some (x i)) →
      ∃ filled', ((slot i).bind fun x =>
          if i < filled.length then some (filled.set i (some x)) else none) = some filled' ∧
        filled'.length = slots.length ∧
        filled'.take (i + 1) = (List.range (i + 1)).map fun i => some (x i) := by
    rintro i filled hi ⟨hlength, htake⟩
    have hin : i < filled.length := by omega
    refine ⟨filled.set i (some (x i)), ?_, ?_, ?_⟩
    · rw [hslot i hi, Option.bind_some, if_pos hin]
    · rw [List.length_set, hlength]
    · rw [List.range_succ, List.map_append, ← htake, List.take_add_one, List.take_set_of_le le_rfl,
        List.getElem?_set_self hin]
      rfl
  obtain ⟨filled, hthrough, hlength, htake⟩ :=
    Loop.through_invariant _ _ hstep ⟨rfl, rfl⟩
  refine ⟨filled, ?_, hlength, htake⟩
  rw [fillSlots, Loop.forLoop_of_lt hcount, hthrough]
  rfl

theorem resizeSlots_of_le {slots : List (Option BatchSlot)} {n : ℕ} (h : n ≤ slots.length) :
    resizeSlots slots n = slots.take n := by
  rw [resizeSlots, Nat.sub_eq_zero_of_le h, List.replicate_zero, List.append_nil]

namespace BatchMembers

variable {b : BatchMembers} {s : BatchState}

/-- What is sent of full arrays, and of a last batch that is shorter. -/
theorem shrink_eq_take {slots : List (Option BatchSlot)} {count : ℕ}
    (hcount : count ≤ b.batchSize) (hlength : slots.length = b.batchSize) :
    b.shrink count slots = slots.take count := by
  rw [shrink]
  split
  · exact resizeSlots_of_le (by omega)
  · next heq => rw [List.take_of_length_le (by omega)]

/-- The key at a position, with a buffer for its value. -/
def slotAt (b : BatchMembers) (p : ℕ) (buffer : Option ℕ) : BatchSlot where
  position := p
  key := b.keys.getD p []
  value := none
  buffer := buffer

theorem keySlot_of_lt {p : ℕ} (h : p < b.keys.length) :
    b.keySlot p = some (b.slotAt p none) := by
  rw [keySlot, slotAt, List.getD_eq_getElem?_getD, List.getElem?_eq_getElem h]
  rfl

end BatchMembers

end Filling

section Calls

variable {remote : RemoteCalls} {s t : BatchState} {f : MultiFunction}
  {batch : List (Option BatchSlot)}

/-- A call either is refused, or it has sent the batch, and the answer is thrown if it is an
error. -/
theorem BatchState.call_eq_done_iff :
    s.call remote f batch = .done t ↔
      f.Refused ∧ t = { s with thrown := some SdskvReturn.errInvalidArg.code } ∨
        ¬ f.Refused ∧
          (f.num + 1 < 2 ^ 31 ∧ (remote s.sent.length).1.Succeed f.exposesResults) ∧
            t = { s with
              sent := s.sent ++ [batch]
              thrown := checkRet (remote s.sent.length).2 } := by
  simp only [call, Run.map_eq_done_iff, Run.ofOption_eq_done_iff, returned_eq_some_iff]
  constructor
  · rintro ⟨x, ⟨hrefused, rfl⟩ | ⟨hnot, hnum, hsucceed, rfl⟩, rfl⟩
    · exact Or.inl ⟨hrefused, rfl⟩
    · exact Or.inr ⟨hnot, ⟨hnum, hsucceed⟩, rfl⟩
  · rintro (⟨hrefused, rfl⟩ | ⟨hnot, ⟨hnum, hsucceed⟩, rfl⟩)
    · exact ⟨_, Or.inl ⟨hrefused, rfl⟩, rfl⟩
    · exact ⟨_, Or.inr ⟨hnot, hnum, hsucceed, rfl⟩, rfl⟩

theorem checkRet_eq_none_iff {ret : Int} :
    checkRet ret = none ↔ ret = SdskvReturn.success.code := by
  by_cases h : ret = SdskvReturn.success.code
  · simp [checkRet, h]
  · simp [checkRet, h]

end Calls

namespace BatchBenchmark

open BatchMembers (generate)

/-- What `setup` leaves. -/
structure Prepared (benchmark : BatchBenchmark) (b : BatchMembers) : Prop where
  lt : b.numEntries < 2 ^ 32
  keys : b.keys.length = b.numEntries
  vals : benchmark = putMulti → b.vals.length = b.numEntries
  valsBuffer : benchmark = getMulti →
    b.valsBuffer = if b.reuseBuffer then b.batchSize else b.numEntries
  vsizes : benchmark = lengthMulti →
    b.vsizes = if b.reuseBuffer then b.batchSize else b.numEntries

/-- The generated entry at a position, with a value for `PutMultiBenchmark` only. -/
def entryAt (benchmark : BatchBenchmark) (b : BatchMembers) (p : ℕ) : ℕ × Bulk × Option Bulk :=
  (p, b.keys.getD p [], if benchmark = putMulti then some (b.vals.getD p []) else none)

variable {benchmark : BatchBenchmark} {b : BatchMembers} {s : BatchState} {remote : RemoteCalls}

theorem prepared_of_setup {gen : ℕ → Bulk × Bulk} {n batch : ℕ} {reuse : Bool}
    (h : benchmark.setup gen n batch reuse = some b) :
    benchmark.Prepared b ∧ b.numEntries = n ∧ b.batchSize = batch := by
  obtain ⟨pairs, hpairs, rfl⟩ := Option.map_eq_some_iff.1 h
  obtain ⟨is, his, rfl⟩ := Option.map_eq_some_iff.1 hpairs
  rw [Loop.indices] at his
  split_ifs at his with hlt
  cases his
  refine ⟨⟨hlt, ?_, ?_, ?_, ?_⟩, rfl, rfl⟩
  · simp
  · intro hput
    simp [hput]
  · intro hget
    simp [hget]
  · intro hlength
    simp [hlength]

/-- The loop has sent the first `j` entries, in full batches as long as entries remain. -/
structure Advancing (benchmark : BatchBenchmark) (b : BatchMembers) (s : BatchState) : Prop where
  total : s.remaining + s.j = b.numEntries
  batches : s.remaining ≠ 0 → s.sent.length * b.batchSize = s.j
  slots : s.remaining ≠ 0 → s.slots.length = b.batchSize
  buffer : benchmark ≠ eraseMulti → s.k = if b.reuseBuffer then 0 else s.j
  sent : s.sent.flatten.map (Option.map BatchSlot.entry) =
    (List.range s.j).map fun p => some (benchmark.entryAt b p)

theorem advancing_initial (benchmark : BatchBenchmark) (b : BatchMembers) :
    benchmark.Advancing b b.initial where
  total := Nat.add_zero _
  batches _ := Nat.zero_mul _
  slots _ := List.length_replicate
  buffer _ := (ite_self 0).symm
  sent := rfl

/-- The entries of one more batch. -/
theorem sent_append {filled : List (Option BatchSlot)} {x : ℕ → BatchSlot} {count : ℕ}
    (hsent : s.sent.flatten.map (Option.map BatchSlot.entry) =
      (List.range s.j).map fun p => some (benchmark.entryAt b p))
    (htake : filled.take count = (List.range count).map fun i => some (x i))
    (hentry : ∀ i < count, (x i).entry = benchmark.entryAt b (i + s.j)) :
    (s.sent ++ [filled.take count]).flatten.map (Option.map BatchSlot.entry) =
      (List.range (s.j + count)).map fun p => some (benchmark.entryAt b p) := by
  rw [List.flatten_append, List.map_append, hsent, List.flatten_singleton, htake, List.map_map,
    List.range_add, List.map_append, List.map_map]
  congr 1
  apply List.map_congr_left
  intro i hi
  rw [Function.comp_apply, Function.comp_apply, Option.map_some, hentry i (List.mem_range.1 hi),
    Nat.add_comm]

theorem Advancing.count_le (hs : benchmark.Advancing b s) :
    s.j + min s.remaining b.batchSize ≤ b.numEntries := by
  have htotal := hs.total
  omega

/-- A benchmark that advances `j` after a batch. -/
theorem Advancing.next {s' : BatchState} (hb : benchmark.Prepared b)
    (hs : benchmark.Advancing b s) {filled : List (Option BatchSlot)} {x : ℕ → BatchSlot}
    (htake : filled.take (min s.remaining b.batchSize) =
      (List.range (min s.remaining b.batchSize)).map fun i => some (x i))
    (hentry : ∀ i < min s.remaining b.batchSize, (x i).entry = benchmark.entryAt b (i + s.j))
    (hslots : s'.remaining ≠ 0 → s'.slots.length = b.batchSize)
    (hremaining : s'.remaining = s.remaining - min s.remaining b.batchSize)
    (hj : s'.j = advance32 s.j (min s.remaining b.batchSize))
    (hk : benchmark ≠ eraseMulti →
      s'.k = if b.reuseBuffer then s.k else advance32 s.k (min s.remaining b.batchSize))
    (hsent : s'.sent = s.sent ++ [filled.take (min s.remaining b.batchSize)]) :
    benchmark.Advancing b s' := by
  have hle := hs.count_le
  have hlt := hb.lt
  rw [advance32_of_lt (by omega)] at hj
  have htotal := hs.total
  refine ⟨by omega, ?_, hslots, ?_, ?_⟩
  · intro hmore
    have hbatches := hs.batches (by omega)
    rw [hsent, List.length_append, List.length_singleton, Nat.add_mul, hbatches, hj]
    omega
  · intro hne
    rw [hk hne, hs.buffer hne]
    split
    · rfl
    · rw [advance32_of_lt (by omega), hj]
  · rw [hsent, hj]
    exact sent_append hs.sent htake hentry

/-- The position of an iteration of the inner loop. -/
theorem advance32_eq (hb : benchmark.Prepared b) (hs : benchmark.Advancing b s) {i : ℕ}
    (hi : i < min s.remaining b.batchSize) :
    advance32 i s.j = i + s.j ∧ i + s.j < b.keys.length := by
  have hle := hs.count_le
  have hlt := hb.lt
  rw [hb.keys]
  exact ⟨advance32_of_lt (by omega), by omega⟩

theorem Advancing.count_lt (hb : benchmark.Prepared b) (hs : benchmark.Advancing b s) :
    min s.remaining b.batchSize < 2 ^ 32 := by
  have hle := hs.count_le
  have hlt := hb.lt
  omega

theorem entry_slotAt (hne : benchmark ≠ putMulti) (p : ℕ) (buffer : Option ℕ) :
    (b.slotAt p buffer).entry = benchmark.entryAt b p := by
  rw [BatchSlot.entry, entryAt, if_neg hne]
  rfl

/-- The keys from the position `j` on, for the benchmarks that send nothing else. -/
theorem fillSlots_keys (hb : benchmark.Prepared b) (hs : benchmark.Advancing b s)
    (hrem : s.remaining ≠ 0) :
    ∃ filled, fillSlots (fun i => b.keySlot (advance32 i s.j)) (min s.remaining b.batchSize)
        s.slots = .done filled ∧ filled.length = b.batchSize ∧
      filled.take (min s.remaining b.batchSize) =
        (List.range (min s.remaining b.batchSize)).map fun i =>
          some (b.slotAt (i + s.j) none) := by
  rw [← hs.slots hrem]
  refine fillSlots_eq_done (fun i hi => ?_) ?_ (by omega)
  · rw [hs.slots hrem] at hi
    obtain ⟨hposition, hin⟩ := advance32_eq hb hs hi
    rw [hposition, BatchMembers.keySlot_of_lt hin]
  · rw [hs.slots hrem]
    exact hs.count_lt hb

/-- The entries that are sent are the first `j` ones. -/
theorem Advancing.length_sent (hs : benchmark.Advancing b s) : s.sent.flatten.length = s.j := by
  have hlength := congrArg List.length hs.sent
  rwa [List.length_map, List.length_map, List.length_range] at hlength

/-- The iteration from `s` sends the next batch and leaves `t`, if the call of the client has a
defined behaviour. -/
structure Iterates (benchmark : BatchBenchmark) (b : BatchMembers) (remote : RemoteCalls)
    (s t : BatchState) : Prop where
  advancing : benchmark.Advancing b t
  remaining : t.remaining = s.remaining - min s.remaining b.batchSize
  thrown : t.thrown = checkRet (remote s.sent.length).2
  done_iff : ∀ s', benchmark.body b remote s = .done s' ↔
    (min s.remaining b.batchSize + 1 < 2 ^ 31 ∧
      (remote s.sent.length).1.Succeed benchmark.exposesResults) ∧ s' = t

/-- An iteration whose call is not refused. -/
theorem iterates_of_call {f : MultiFunction} {batch : List (Option BatchSlot)}
    {next : BatchState → BatchState} {t : BatchState}
    (hbody : benchmark.body b remote s = (s.call remote f batch).map next)
    (hrefused : ¬ f.Refused) (hnum : f.num = min s.remaining b.batchSize)
    (hexposes : f.exposesResults = benchmark.exposesResults)
    (ht : next { s with
      sent := s.sent ++ [batch]
      thrown := checkRet (remote s.sent.length).2 } = t)
    (hadvancing : benchmark.Advancing b t)
    (hremaining : t.remaining = s.remaining - min s.remaining b.batchSize)
    (hthrown : t.thrown = checkRet (remote s.sent.length).2) :
    benchmark.Iterates b remote s t := by
  refine ⟨hadvancing, hremaining, hthrown, fun s' => ?_⟩
  rw [hbody, Run.map_eq_done_iff]
  simp only [BatchState.call_eq_done_iff, hrefused, hnum, hexposes, false_and, not_false_eq_true,
    true_and, false_or]
  constructor
  · rintro ⟨u, ⟨hdefined, rfl⟩, rfl⟩
    exact ⟨hdefined, ht⟩
  · rintro ⟨hdefined, rfl⟩
    exact ⟨_, ⟨hdefined, rfl⟩, ht⟩

theorem eraseMultiBody_iterates (hb : Prepared eraseMulti b) (hs : Advancing eraseMulti b s)
    (hrem : s.remaining ≠ 0) : ∃ t, Iterates eraseMulti b remote s t := by
  obtain ⟨filled, hfill, hlength, htake⟩ := fillSlots_keys hb hs hrem
  have hroom : min s.remaining b.batchSize ≤ filled.length := by omega
  refine ⟨_, iterates_of_call (f := .eraseMulti (min s.remaining b.batchSize)) (by
    simp only [body, BatchMembers.eraseMultiBody, hfill, Run.bind, if_pos hroom]
    rfl) not_false rfl rfl rfl ?_ rfl rfl⟩
  exact hs.next hb htake (fun i _ => entry_slotAt (by decide) _ _) (fun _ => hlength) rfl rfl
    (fun hne => absurd rfl hne) rfl

theorem lengthMultiBody_iterates (hb : Prepared lengthMulti b) (hs : Advancing lengthMulti b s)
    (hrem : s.remaining ≠ 0) : ∃ t, Iterates lengthMulti b remote s t := by
  obtain ⟨filled, hfill, hlength, htake⟩ := fillSlots_keys hb hs hrem
  have hroom : min s.remaining b.batchSize ≤ filled.length ∧
      s.k + min s.remaining b.batchSize ≤ b.vsizes := by
    have hle := hs.count_le
    refine ⟨by omega, ?_⟩
    rw [hb.vsizes rfl, hs.buffer (by decide)]
    split <;> omega
  refine ⟨_, iterates_of_call (f := .lengthMulti (min s.remaining b.batchSize)) (by
    simp only [body, BatchMembers.lengthMultiBody, hfill, Run.bind, if_pos hroom]
    rfl) not_false rfl rfl rfl ?_ rfl rfl⟩
  exact hs.next hb htake (fun i _ => entry_slotAt (by decide) _ _) (fun _ => hlength) rfl rfl
    (fun _ => rfl) rfl

theorem getMultiBody_iterates (hb : Prepared getMulti b) (hs : Advancing getMulti b s)
    (hrem : s.remaining ≠ 0) : ∃ t, Iterates getMulti b remote s t := by
  have hle := hs.count_le
  have hlt := hb.lt
  have hslot : ∀ i < min s.remaining b.batchSize,
      ((b.keySlot (advance32 i s.j)).bind fun x =>
        if advance32 i s.k < b.valsBuffer then
          some { x with buffer := some (advance32 i s.k) } else none) =
        some (b.slotAt (i + s.j) (some (advance32 i s.k))) := by
    intro i hi
    obtain ⟨hposition, hin⟩ := advance32_eq hb hs hi
    have hk : advance32 i s.k < b.valsBuffer := by
      refine lt_of_le_of_lt (Nat.mod_le _ _) ?_
      rw [hb.valsBuffer rfl, hs.buffer (by decide)]
      split <;> omega
    rw [hposition, BatchMembers.keySlot_of_lt hin, Option.bind_some, if_pos hk]
    rfl
  obtain ⟨filled, hfill, hlength, htake⟩ :=
    fillSlots_eq_done hslot (hs.count_lt hb) (by rw [hs.slots hrem]; omega)
  rw [hs.slots hrem] at hlength
  have hshrink := BatchMembers.shrink_eq_take (Nat.min_le_right s.remaining b.batchSize) hlength
  have hcount : (filled.take (min s.remaining b.batchSize)).length =
      min s.remaining b.batchSize := by
    rw [List.length_take, hlength]
    omega
  refine ⟨_, iterates_of_call
    (f := .getMulti (filled.take (min s.remaining b.batchSize)).length false) (by
      simp only [body, BatchMembers.getMultiBody, hfill, Run.bind, hshrink]
      rfl) not_false hcount rfl rfl ?_ rfl rfl⟩
  refine hs.next hb htake (fun i _ => entry_slotAt (by decide) _ _) ?_ rfl rfl (fun _ => rfl) rfl
  intro hmore
  have hfull : min s.remaining b.batchSize = b.batchSize := by
    simp only at hmore
    omega
  exact hcount.trans hfull

/-- The iteration is the call with the number of the batches before it, and another one follows
exactly when entries are left behind its batch. -/
theorem Iterates.batch {t : BatchState} (ht : benchmark.Iterates b remote s t)
    (hs : benchmark.Advancing b s) (hrem : s.remaining ≠ 0) :
    s.sent.length * b.batchSize = s.j ∧ s.j < b.numEntries ∧
      t.j = s.j + min s.remaining b.batchSize ∧
      (t.remaining ≠ 0 ↔ (s.sent.length + 1) * b.batchSize < b.numEntries) := by
  have htotal := hs.total
  have htotal' := ht.advancing.total
  have hremaining := ht.remaining
  have hbatches := hs.batches hrem
  rw [Nat.add_mul, hbatches]
  omega

/-- Every benchmark but `put-multi` sends the entries that remain. -/
theorem body_iterates (remote : RemoteCalls) (hne : benchmark ≠ putMulti)
    (hb : benchmark.Prepared b) (hs : benchmark.Advancing b s) (hrem : s.remaining ≠ 0) :
    ∃ t, benchmark.Iterates b remote s t := by
  cases benchmark with
  | putMulti => exact absurd rfl hne
  | getMulti => exact getMultiBody_iterates hb hs hrem
  | lengthMulti => exact lengthMultiBody_iterates hb hs hrem
  | eraseMulti => exact eraseMultiBody_iterates hb hs hrem

/-- `PutMultiBenchmark` fills every batch from the first position on. -/
theorem putMultiBody_eq (remote : RemoteCalls) (hb : Prepared putMulti b) (hj : s.j = 0)
    (hle : s.remaining ≤ b.numEntries) (hslots : s.slots.length = b.batchSize) :
    ∃ batch, batch.length = min s.remaining b.batchSize ∧
      slotSizes batch = (List.range (min s.remaining b.batchSize)).map
        (fun p => (b.keys.getD p []).length) ∧
      batch.map (Option.map BatchSlot.entry) =
        (List.range (min s.remaining b.batchSize)).map (fun p => some (putMulti.entryAt b p)) ∧
      b.putMultiBody remote s =
        (s.call remote (.putMulti (slotSizes batch)) batch).map fun t =>
          { t with
            slots := batch
            remaining := s.remaining - min s.remaining b.batchSize } := by
  have hlt := hb.lt
  have hkeys := hb.keys
  have hvals := hb.vals rfl
  have hslot : ∀ i < min s.remaining b.batchSize,
      ((b.keySlot (advance32 i s.j)).bind fun x =>
        b.vals[advance32 i s.j]?.map fun val => { x with value := some val }) =
        some { b.slotAt i none with value := some (b.vals.getD i []) } := by
    intro i hi
    have hposition : advance32 i s.j = i := by
      rw [hj, advance32_of_lt (by omega), Nat.add_zero]
    rw [hposition, BatchMembers.keySlot_of_lt (by omega), Option.bind_some,
      List.getD_eq_getElem?_getD, List.getElem?_eq_getElem (by omega)]
    rfl
  have hroom : min s.remaining b.batchSize ≤ s.slots.length := by omega
  obtain ⟨filled, hfill, hlength, htake⟩ := fillSlots_eq_done hslot (by omega) hroom
  rw [hslots] at hlength
  have hshrink := BatchMembers.shrink_eq_take (Nat.min_le_right s.remaining b.batchSize) hlength
  refine ⟨filled.take (min s.remaining b.batchSize), ?_, ?_, ?_, ?_⟩
  · rw [List.length_take, hlength]
    omega
  · rw [slotSizes, htake, List.map_map]
    rfl
  · rw [htake, List.map_map]
    rfl
  · simp only [BatchMembers.putMultiBody, hfill, Run.bind, hshrink]

/-- The batches of `PutMultiBenchmark` never leave the first `batchSize` positions. -/
structure Repeating (b : BatchMembers) (s : BatchState) : Prop where
  j : s.j = 0
  remaining : s.remaining ≤ b.numEntries
  slots : s.remaining ≠ 0 → s.slots.length = b.batchSize
  sent : ∀ e ∈ s.sent.flatten.map (Option.map BatchSlot.entry),
    ∃ p < b.batchSize, e = some (putMulti.entryAt b p)

theorem repeating_initial (b : BatchMembers) : Repeating b b.initial where
  j := rfl
  remaining := Nat.le_refl _
  slots _ := List.length_replicate
  sent _ he := absurd he List.not_mem_nil

theorem repeating_next {t : BatchState} (hb : Prepared putMulti b) (hs : Repeating b s)
    (hrem : s.remaining ≠ 0) (hbody : b.putMultiBody remote s = .done t) : Repeating b t := by
  obtain ⟨batch, hlength, -, hentries, hcall⟩ :=
    putMultiBody_eq remote hb hs.j hs.remaining (hs.slots hrem)
  rw [hcall] at hbody
  obtain ⟨u, hu, rfl⟩ := Run.map_eq_done_iff.1 hbody
  have hremaining := hs.remaining
  have hsent : ∀ e ∈ (s.sent ++ [batch]).flatten.map (Option.map BatchSlot.entry),
      ∃ p < b.batchSize, e = some (putMulti.entryAt b p) := by
    intro e he
    rw [List.flatten_append, List.map_append, List.flatten_singleton, hentries] at he
    rcases List.mem_append.1 he with he | he
    · exact hs.sent e he
    · obtain ⟨p, hp, rfl⟩ := List.mem_map.1 he
      have hlt := List.mem_range.1 hp
      exact ⟨p, by omega, rfl⟩
  have hslots : s.remaining - min s.remaining b.batchSize ≠ 0 → batch.length = b.batchSize := by
    omega
  rcases BatchState.call_eq_done_iff.1 hu with ⟨-, rfl⟩ | ⟨-, -, rfl⟩
  · exact ⟨hs.j, (Nat.sub_le _ _).trans hremaining, hslots, hs.sent⟩
  · exact ⟨hs.j, (Nat.sub_le _ _).trans hremaining, hslots, hsent⟩

/-- The benchmark generates its entries and sends each of them once, in order: the positions
of the batches are those of the generated keys, and the batches are the generated keys, with
the generated values for `put-multi`. -/
def TouchesEachEntry (benchmark : BatchBenchmark) (gen : ℕ → Bulk × Bulk) (remote : RemoteCalls)
    (numEntries batchSize : ℕ) (reuseBuffer : Bool) : Prop :=
  ∃ b fuel batches, benchmark.setup gen numEntries batchSize reuseBuffer = some b ∧
    benchmark.execute b remote fuel = .done batches ∧
    batches.flatten.map (Option.map BatchSlot.entry) =
      (List.range numEntries).map fun p =>
        some (p, (gen p).1, if benchmark = putMulti then some (gen p).2 else none)

/-- What the calls of a benchmark need: the counter of the client can hold the segments of a
batch, no transport call fails, and no handler but the last one answers with an error. -/
structure CallsSucceed (benchmark : BatchBenchmark) (remote : RemoteCalls)
    (numEntries batchSize : ℕ) : Prop where
  counter : numEntries ≠ 0 → min numEntries batchSize + 1 < 2 ^ 31
  transport : ∀ i, i * batchSize < numEntries → (remote i).1.Succeed benchmark.exposesResults
  answer : ∀ i, (i + 1) * batchSize < numEntries → (remote i).2 = SdskvReturn.success.code

/-- The entries of a benchmark are what was generated. -/
theorem entryAt_of_setup {gen : ℕ → Bulk × Bulk} {n batch : ℕ} {reuse : Bool}
    (h : benchmark.setup gen n batch reuse = some b) {p : ℕ} (hp : p < n) :
    benchmark.entryAt b p =
      (p, (gen p).1, if benchmark = putMulti then some (gen p).2 else none) := by
  obtain ⟨pairs, hpairs, rfl⟩ := Option.map_eq_some_iff.1 h
  obtain ⟨is, his, rfl⟩ := Option.map_eq_some_iff.1 hpairs
  rw [Loop.indices] at his
  split_ifs at his
  cases his
  by_cases hput : benchmark = putMulti
  · simp [entryAt, hput, hp]
  · simp [entryAt, hput, hp]

theorem map_entryAt_of_setup {gen : ℕ → Bulk × Bulk} {n batch : ℕ} {reuse : Bool}
    (h : benchmark.setup gen n batch reuse = some b) :
    (List.range n).map (fun p => some (benchmark.entryAt b p)) =
      (List.range n).map fun p =>
        some (p, (gen p).1, if benchmark = putMulti then some (gen p).2 else none) := by
  apply List.map_congr_left
  intro p hp
  rw [entryAt_of_setup h (List.mem_range.1 hp)]

theorem exists_setup {n : ℕ} (hlt : n < 2 ^ 32) (benchmark : BatchBenchmark)
    (gen : ℕ → Bulk × Bulk) (batch : ℕ) (reuse : Bool) :
    ∃ b, benchmark.setup gen n batch reuse = some b := by
  rw [setup, generate, Loop.indices, if_pos hlt]
  exact ⟨_, rfl⟩

section Sends

variable {gen : ℕ → Bulk × Bulk} {n batch : ℕ} {reuse : Bool}

/-- The loop has sent the first `j` entries, and every call until now was as `CallsSucceed`
asks; or an exception has left it before the end. -/
def Sending (benchmark : BatchBenchmark) (b : BatchMembers) (remote : RemoteCalls)
    (s : BatchState) : Prop :=
  (benchmark.Advancing b s ∧ (s.remaining ≠ 0 → s.thrown = none) ∧
    (s.j ≠ 0 → min b.numEntries b.batchSize + 1 < 2 ^ 31) ∧
    ∀ i, i * b.batchSize < s.j → (remote i).1.Succeed benchmark.exposesResults ∧
      ((i + 1) * b.batchSize < b.numEntries → (remote i).2 = SdskvReturn.success.code)) ∨
    s.thrown ≠ none ∧ s.sent.flatten.length < b.numEntries

theorem sending_initial (benchmark : BatchBenchmark) (b : BatchMembers) (remote : RemoteCalls) :
    benchmark.Sending b remote b.initial :=
  Or.inl ⟨advancing_initial benchmark b, fun _ => rfl, fun h => absurd rfl h,
    fun _ h => absurd h (Nat.not_lt_zero _)⟩

theorem sending_next (hne : benchmark ≠ putMulti) (hb : benchmark.Prepared b)
    (hpos : 0 < b.batchSize) {t : BatchState} (hs : benchmark.Sending b remote s)
    (hmore : s.more = true) (hbody : benchmark.body b remote s = .done t) :
    benchmark.Sending b remote t := by
  obtain ⟨hrem, hthrown⟩ := of_decide_eq_true hmore
  rcases hs with ⟨hadv, -, hcounter, hcalls⟩ | ⟨hleft, -⟩
  · obtain ⟨u, hu⟩ := body_iterates remote hne hb hadv hrem
    obtain ⟨⟨hcount, hsucceed⟩, rfl⟩ := (hu.done_iff t).1 hbody
    obtain ⟨hbatches, hlt, hj, hlast⟩ := hu.batch hadv hrem
    have htotal := hadv.total
    by_cases hgone : t.remaining ≠ 0 ∧ (remote s.sent.length).2 ≠ SdskvReturn.success.code
    · refine Or.inr ⟨?_, ?_⟩
      · rw [hu.thrown]
        exact fun h => hgone.2 (checkRet_eq_none_iff.1 h)
      · have htotal' := hu.advancing.total
        rw [hu.advancing.length_sent]
        omega
    · refine Or.inl ⟨hu.advancing, ?_, ?_, ?_⟩
      · intro hrem'
        rw [hu.thrown]
        exact checkRet_eq_none_iff.2 (by_contra fun hret => hgone ⟨hrem', hret⟩)
      · intro _
        by_cases hfirst : s.j = 0
        · have hall : s.remaining = b.numEntries := by omega
          rwa [hall] at hcount
        · exact hcounter hfirst
      · intro i hi
        rcases Nat.lt_or_ge (i * b.batchSize) s.j with hbefore | hthis
        · exact hcalls i hbefore
        · have hnext : i * b.batchSize < (s.sent.length + 1) * b.batchSize := by
            rw [Nat.add_mul, hbatches]
            omega
          rw [← hbatches] at hthis
          obtain rfl : i = s.sent.length := Nat.le_antisymm
            (Nat.le_of_lt_succ (Nat.lt_of_mul_lt_mul_right hnext))
            (Nat.le_of_mul_le_mul_right hthis hpos)
          refine ⟨hsucceed, fun hmore' => ?_⟩
          exact by_contra fun hret => hgone ⟨hlast.2 hmore', hret⟩
  · exact absurd hthrown hleft

/-- Every benchmark but `put-multi` sends all its entries exactly when its calls succeed. -/
theorem touchesEachEntry_of_ne (hne : benchmark ≠ putMulti) (hlt : n < 2 ^ 32)
    (hbatch : 1 ≤ batch) :
    benchmark.TouchesEachEntry gen remote n batch reuse ↔
      benchmark.CallsSucceed remote n batch := by
  obtain ⟨b, hsetup⟩ := exists_setup hlt benchmark gen batch reuse
  obtain ⟨hb, rfl, rfl⟩ := prepared_of_setup hsetup
  constructor
  · rintro ⟨b', fuel, batches, hsetup', hexecute, hentries⟩
    cases hsetup.symm.trans hsetup'
    obtain ⟨s, hdone, rfl⟩ := Run.map_eq_done_iff.1 hexecute
    obtain ⟨hs, -⟩ := Loop.whileLoop_invariant
      (fun s t hs hmore hbody => sending_next hne hb hbatch hs hmore hbody)
      (sending_initial benchmark b remote) hdone
    have hlength := congrArg List.length hentries
    rw [List.length_map, List.length_map, List.length_range] at hlength
    rcases hs with ⟨hadv, -, hcounter, hcalls⟩ | ⟨-, hless⟩
    · rw [hadv.length_sent] at hlength
      rw [hlength] at hcounter hcalls
      exact ⟨hcounter, fun i hi => (hcalls i hi).1, fun i hi => (hcalls i (by
        rw [Nat.add_mul] at hi
        omega)).2 hi⟩
    · omega
  · intro h
    have hbody : ∀ s, (benchmark.Advancing b s ∧ (s.remaining ≠ 0 → s.thrown = none)) →
        s.more = true → ∃ t, benchmark.body b remote s = .done t ∧
          (benchmark.Advancing b t ∧ (t.remaining ≠ 0 → t.thrown = none)) ∧
            t.remaining < s.remaining := by
      rintro s ⟨hadv, -⟩ hmore
      obtain ⟨hrem, -⟩ := of_decide_eq_true hmore
      obtain ⟨t, ht⟩ := body_iterates remote hne hb hadv hrem
      obtain ⟨hbatches, hless, -, hlast⟩ := ht.batch hadv hrem
      have htotal := hadv.total
      have hcounter := h.counter (by omega)
      refine ⟨t, (ht.done_iff t).2 ⟨⟨by omega, h.transport _ (by omega)⟩, rfl⟩,
        ⟨ht.advancing, fun hrem' => ?_⟩, ?_⟩
      · rw [ht.thrown]
        exact checkRet_eq_none_iff.2 (h.answer _ (hlast.1 hrem'))
      · have hremaining := ht.remaining
        omega
    obtain ⟨fuel, s, hdone, ⟨hs, hthrown⟩, hend⟩ := Loop.exists_whileLoop_done
      BatchState.remaining hbody ⟨advancing_initial benchmark b, fun _ => rfl⟩
    have hzero : s.remaining = 0 := by
      by_contra hrem
      exact of_decide_eq_false hend ⟨hrem, hthrown hrem⟩
    have hj : s.j = b.numEntries := by
      have htotal := hs.total
      omega
    refine ⟨b, fuel, s.sent, hsetup, by rw [execute, hdone]; rfl, ?_⟩
    rw [hs.sent, hj, map_entryAt_of_setup hsetup]

/-- The position after the first batch of `put-multi` is never sent. -/
theorem le_of_touchesEachEntry (h : putMulti.TouchesEachEntry gen remote n batch reuse) :
    n ≤ batch := by
  obtain ⟨b, fuel, batches, hsetup, hexecute, hentries⟩ := h
  obtain ⟨hb, rfl, rfl⟩ := prepared_of_setup hsetup
  by_contra hlarge
  obtain ⟨s, hdone, rfl⟩ := Run.map_eq_done_iff.1 hexecute
  obtain ⟨hs, -⟩ := Loop.whileLoop_invariant
    (fun s t hs hmore hbody => repeating_next hb hs (of_decide_eq_true hmore).1 hbody)
    (repeating_initial b) hdone
  have hmem : some (b.batchSize, (gen b.batchSize).1, some (gen b.batchSize).2) ∈
      s.sent.flatten.map (Option.map BatchSlot.entry) := by
    rw [hentries]
    exact List.mem_map.2 ⟨b.batchSize, List.mem_range.2 (by omega), rfl⟩
  obtain ⟨p, hp, heq⟩ := hs.sent _ hmem
  have hposition : b.batchSize = p := congrArg Prod.fst (Option.some.inj heq)
  omega

/-- A batch of all entries is refused exactly when a key has size zero. -/
theorem refused_iff (hsetup : putMulti.setup gen n batch reuse = some b) (hlt : n < 2 ^ 31)
    {sizes : List ℕ} (hsizes : sizes = (List.range n).map fun p => (b.keys.getD p []).length) :
    (MultiFunction.putMulti sizes).Refused ↔ ∃ p < n, (gen p).1 = [] := by
  have hlength : sizes.length ≤ 2 ^ 31 := by
    rw [hsizes, List.length_map, List.length_range]
    omega
  have hkey : ∀ p < n, b.keys.getD p [] = (gen p).1 := fun p hp =>
    congrArg (fun e => e.2.1) (entryAt_of_setup hsetup hp)
  rw [MultiFunction.Refused, List.take_of_length_le hlength, hsizes, List.mem_map]
  constructor
  · rintro ⟨p, hp, hzero⟩
    have hp := List.mem_range.1 hp
    rw [hkey p hp] at hzero
    exact ⟨p, hp, List.length_eq_zero_iff.1 hzero⟩
  · rintro ⟨p, hp, hnil⟩
    exact ⟨p, List.mem_range.2 hp, by rw [hkey p hp, hnil]; rfl⟩

/-- `put-multi` sends its entries when they are one batch, no key is refused and the call
succeeds. -/
theorem touchesEachEntry_putMulti (hlt : n < 2 ^ 32) (hpos : n ≠ 0) (hone : n ≤ batch) :
    putMulti.TouchesEachEntry gen remote n batch reuse ↔
      n + 1 < 2 ^ 31 ∧ (remote 0).1.Succeed true ∧ ∀ p < n, (gen p).1 ≠ [] := by
  obtain ⟨b, hsetup⟩ := exists_setup hlt putMulti gen batch reuse
  obtain ⟨hb, rfl, rfl⟩ := prepared_of_setup hsetup
  have hmore : b.initial.more = true := decide_eq_true ⟨hpos, rfl⟩
  have hmin : min b.initial.remaining b.batchSize = b.numEntries := Nat.min_eq_left hone
  obtain ⟨slots, hlength, hsizes, hslots, hbody⟩ := putMultiBody_eq remote
    (s := b.initial) hb rfl le_rfl List.length_replicate
  rw [hmin] at hlength hsizes hslots hbody
  have hend : ∀ t : BatchState, t.remaining = b.initial.remaining - b.numEntries →
      t.more = false := by
    intro t ht
    rw [BatchState.more, ht]
    exact decide_eq_false fun h => h.1 (Nat.sub_self _)
  have hnum : (MultiFunction.putMulti (slotSizes slots)).num = b.numEntries := by
    rw [MultiFunction.num, hsizes, List.length_map, List.length_range]
  constructor
  · rintro ⟨b', fuel, batches, hsetup', hexecute, hentries⟩
    cases hsetup.symm.trans hsetup'
    obtain ⟨s, hdone, rfl⟩ := Run.map_eq_done_iff.1 hexecute
    -- the only iteration
    match fuel with
    | 0 => cases hdone
    | 1 =>
        rw [Loop.whileLoop, if_pos hmore] at hdone
        obtain ⟨t, -, hdone⟩ := Run.bind_eq_done_iff.1 hdone
        cases hdone
    | fuel + 2 =>
        rw [Loop.whileLoop, if_pos hmore, body, hbody] at hdone
        obtain ⟨t, ht, hdone⟩ := Run.bind_eq_done_iff.1 hdone
        obtain ⟨u, hu, rfl⟩ := Run.map_eq_done_iff.1 ht
        rw [Loop.whileLoop_of_false (hend _ rfl)] at hdone
        cases hdone
        rcases BatchState.call_eq_done_iff.1 hu with ⟨-, rfl⟩ | ⟨hnot, ⟨hcount, hsucceed⟩, -⟩
        · have hnone := congrArg List.length hentries
          rw [List.length_map, List.length_map, List.length_range] at hnone
          exact absurd hnone.symm hpos
        · rw [hnum] at hcount
          rw [refused_iff hsetup (by omega) hsizes] at hnot
          exact ⟨hcount, hsucceed, fun p hp hnil => hnot ⟨p, hp, hnil⟩⟩
  · rintro ⟨hcount, hsucceed, hkeys⟩
    have hnot : ¬ (MultiFunction.putMulti (slotSizes slots)).Refused := by
      rw [refused_iff hsetup (by omega) hsizes]
      rintro ⟨p, hp, hnil⟩
      exact hkeys p hp hnil
    have hcall : b.initial.call remote (.putMulti (slotSizes slots)) slots =
        .done { b.initial with sent := [slots], thrown := checkRet (remote 0).2 } :=
      BatchState.call_eq_done_iff.2 (Or.inr ⟨hnot, ⟨by rwa [hnum], hsucceed⟩, rfl⟩)
    rw [hcall] at hbody
    refine ⟨b, 2, [slots], hsetup, ?_, ?_⟩
    · have hrun := (Loop.whileLoop_of_body hmore hbody 1).trans
        (Loop.whileLoop_of_false (hend _ rfl) 0)
      exact congrArg (Run.map BatchState.sent) hrun
    · rw [List.flatten_singleton, hslots, map_entryAt_of_setup hsetup]

/-- Without entries there is nothing to send. -/
theorem touchesEachEntry_zero : benchmark.TouchesEachEntry gen remote 0 batch reuse := by
  obtain ⟨b, hsetup⟩ := exists_setup (n := 0) (by decide) benchmark gen batch reuse
  obtain ⟨-, hzero, -⟩ := prepared_of_setup hsetup
  have hend : b.initial.more = false := decide_eq_false fun h => h.1 hzero
  refine ⟨b, 1, [], hsetup, ?_, rfl⟩
  rw [execute, Loop.whileLoop_of_false hend]
  rfl

/-- The calls of a benchmark that sends one batch. -/
theorem callsSucceed_iff_of_le (hpos : n ≠ 0) (hone : n ≤ batch) :
    benchmark.CallsSucceed remote n batch ↔
      n + 1 < 2 ^ 31 ∧ (remote 0).1.Succeed benchmark.exposesResults := by
  constructor
  · intro h
    have hcounter := h.counter hpos
    rw [Nat.min_eq_left hone] at hcounter
    exact ⟨hcounter, h.transport 0 (by omega)⟩
  · rintro ⟨hcount, hsucceed⟩
    refine ⟨fun _ => by rwa [Nat.min_eq_left hone], fun i hi => ?_, fun i hi => ?_⟩
    · cases i with
      | zero => exact hsucceed
      | succ i =>
          rw [Nat.succ_mul] at hi
          omega
    · rw [Nat.succ_mul] at hi
      omega

end Sends

/-- The batches are the generated entries exactly when the counters can hold their number, the
calls of the client succeed, and for `put-multi` one batch holds all of them and no key is
empty. -/
theorem touchesEachEntry_iff (benchmark : BatchBenchmark) (gen : ℕ → Bulk × Bulk)
    (remote : RemoteCalls) (numEntries batchSize : ℕ) (reuseBuffer : Bool)
    (hbatch : 1 ≤ batchSize) :
    benchmark.TouchesEachEntry gen remote numEntries batchSize reuseBuffer ↔
      numEntries < 2 ^ 32 ∧ benchmark.CallsSucceed remote numEntries batchSize ∧
        (benchmark = putMulti →
          numEntries ≤ batchSize ∧ ∀ p < numEntries, (gen p).1 ≠ []) := by
  have hlt : benchmark.TouchesEachEntry gen remote numEntries batchSize reuseBuffer →
      numEntries < 2 ^ 32 := by
    rintro ⟨b, -, -, hsetup, -⟩
    obtain ⟨hb, rfl, -⟩ := prepared_of_setup hsetup
    exact hb.lt
  by_cases hne : benchmark = putMulti
  · subst hne
    rw [imp_iff_right (rfl : putMulti = putMulti)]
    by_cases hpos : numEntries = 0
    · subst hpos
      refine iff_of_true touchesEachEntry_zero ⟨by decide, ⟨?_, ?_, ?_⟩, Nat.zero_le _, ?_⟩
      · exact fun h => absurd rfl h
      all_goals exact fun _ h => absurd h (Nat.not_lt_zero _)
    · constructor
      · intro h
        have hone := le_of_touchesEachEntry h
        obtain ⟨hcount, hsucceed, hkeys⟩ := (touchesEachEntry_putMulti (hlt h) hpos hone).1 h
        exact ⟨hlt h, (callsSucceed_iff_of_le hpos hone).2 ⟨hcount, hsucceed⟩, hone, hkeys⟩
      · rintro ⟨hlt, hcalls, hone, hkeys⟩
        obtain ⟨hcount, hsucceed⟩ := (callsSucceed_iff_of_le hpos hone).1 hcalls
        exact (touchesEachEntry_putMulti hlt hpos hone).2 ⟨hcount, hsucceed, hkeys⟩
  · constructor
    · intro h
      exact ⟨hlt h, (touchesEachEntry_of_ne hne (hlt h) hbatch).1 h, fun hput => absurd hput hne⟩
    · rintro ⟨hlt, hcalls, -⟩
      exact (touchesEachEntry_of_ne hne hlt hbatch).2 hcalls

/-- Every transport call succeeds, and every handler answers with success. -/
def answering : RemoteCalls := fun _ =>
  ({ keysBulk := 0, resultBulk := 0, create := 0, forward := 0, getOutput := 0 }, 0)

theorem succeed_answering (i : ℕ) (second : Bool) : (answering i).1.Succeed second :=
  ⟨rfl, fun _ => rfl, rfl, rfl, rfl⟩

theorem touchesEachEntry_getMulti :
    getMulti.TouchesEachEntry (fun _ => ([], [])) answering 5 2 true :=
  (touchesEachEntry_iff getMulti _ answering 5 2 true (by decide)).2
    ⟨by decide, ⟨fun _ => by decide, fun i _ => succeed_answering i _, fun _ _ => rfl⟩, by decide⟩

/-- Two entries in batches of one: the first entry is sent twice. -/
theorem not_touchesEachEntry_putMulti :
    ¬ putMulti.TouchesEachEntry (fun i => ([UInt8.ofNat i], [])) answering 2 1 false := by
  rintro ⟨b, fuel, batches, hsetup, hexecute, hentries⟩
  cases hsetup
  match fuel with
  | 0 => cases hexecute
  | 1 => cases hexecute
  | 2 => cases hexecute
  | fuel + 3 =>
      cases hexecute
      exact absurd hentries (by decide)

end BatchBenchmark

end Sdskv
