import Sdskv.Provider.Ids
import Sdskv.Rpc.ListDb

/-!
# Opening all databases of a provider

`client::open` without a name asks a provider for the number of its databases and then for a
list of as many. Between the two requests databases may be attached and removed. The answer to
the second one goes through `hg_proc_list_db_out_t`, which does not send the return value of an
empty list: the client then finds what its struct held before.
-/

namespace Sdskv

open OrderedMap Transition Wire

namespace Provider

/-- The bytes up to the terminating zero, as `c_str` is read. -/
def cStr (name : Bulk) : HgString := ⟨_, zero_notMem_takeWhile name⟩

theorem listDbLoop_count {i : ℕ} (hi : i < 2 ^ 32) (count : ℕ) (name2id : List (Bulk × UInt64)) :
    (listDbLoop count i name2id).2 = (i + (listDbLoop count i name2id).1.length) % 2 ^ 32 := by
  induction name2id generalizing i with
  | nil => exact (Nat.mod_eq_of_lt hi).symm
  | cons p name2id ih =>
      rw [listDbLoop]
      split_ifs
      · exact (Nat.mod_eq_of_lt hi).symm
      · rw [ih (Nat.mod_lt _ (by norm_num)), List.length_cons, Nat.mod_add_mod, Nat.add_assoc,
          Nat.add_comm 1]

/-- The loop copies as many entries as asked for, if there are as many and its counter can hold
their number. -/
theorem listDbLoop_eq (count : ℕ) {i : ℕ} {name2id : List (Bulk × UInt64)}
    (hlt : i + name2id.length < 2 ^ 32) :
    listDbLoop count i name2id =
      (name2id.take (count - i), i + min (count - i) name2id.length) := by
  induction name2id generalizing i with
  | nil => simp [listDbLoop]
  | cons p name2id ih =>
      rw [List.length_cons] at hlt
      rw [listDbLoop]
      split_ifs with hcount
      · rw [Nat.sub_eq_zero_of_le hcount]
        simp
      · rw [Nat.mod_eq_of_lt (by omega), ih (by omega),
          show count - i = count - (i + 1) + 1 by omega, List.take_succ_cons, List.length_cons]
        refine Prod.ext rfl ?_
        simp only
        omega

/-- The arrays of an answer have as many elements as it says. -/
theorem lengths_sdskvListDbUlt (p : Provider) (count : UInt64) :
    (p.sdskvListDbUlt (.ok count)).dbNames.length = (p.sdskvListDbUlt (.ok count)).count ∧
      (p.sdskvListDbUlt (.ok count)).dbIds.length = (p.sdskvListDbUlt (.ok count)).count ∧
      (p.sdskvListDbUlt (.ok count)).count < 2 ^ 32 := by
  have hcount := listDbLoop_count (i := 0) (by norm_num) count.toNat p.name2id
  have hle := Nat.mod_le (0 + (listDbLoop count.toNat 0 p.name2id).1.length) (2 ^ 32)
  have hlt := Nat.mod_lt (0 + (listDbLoop count.toNat 0 p.name2id).1.length)
    (show 0 < 2 ^ 32 by norm_num)
  simp only [sdskvListDbUlt, List.length_take, List.length_map]
  omega

/-- `list_db_out_t` of a request for `count` databases. -/
def listDbAnswer (p : Provider) (count : UInt64) : ListDbAnswer where
  count := UInt64.ofNat (p.sdskvListDbUlt (.ok count)).count
  dbNames := (p.sdskvListDbUlt (.ok count)).dbNames.map cStr
  dbIds := (p.sdskvListDbUlt (.ok count)).dbIds
  ret := 0
  names_length := by
    obtain ⟨hnames, -, hlt⟩ := p.lengths_sdskvListDbUlt count
    rw [UInt64.toNat_ofNat', List.length_map, hnames, Nat.mod_eq_of_lt (by omega)]
  ids_length := by
    obtain ⟨-, hids, hlt⟩ := p.lengths_sdskvListDbUlt count
    rw [UInt64.toNat_ofNat', hids, Nat.mod_eq_of_lt (by omega)]

end Provider

/-- The arrays `db_names` and `db_ids` of a caller. -/
structure DatabaseArrays where
  names : List (Option HgString)
  ids : List UInt64

section Client

/-- The first `n` elements of an array are overwritten; `none` is an access outside of one. -/
def overwrite {α : Type*} (target source : List α) (n : ℕ) : Option (List α) :=
  if n ≤ target.length ∧ n ≤ source.length then some (source.take n ++ target.drop n) else none

/-- `sdskv_count_databases`; when it fails, `*num` is not assigned. -/
def sdskvCountDatabases (hrets : List ℕ) (p : Provider) : Int × Option ℕ :=
  match firstFailure hrets with
  | some hret => (makeHgError hret, none)
  | none => (SdskvReturn.success.code, some p.countDatabases)

/-- `sdskv_list_databases`; the answer is decoded into the struct `into`. -/
def sdskvListDatabases (proc : HgProc) (hrets : List ℕ) (p : Provider) (into : ListDbOut)
    (count : ℕ) (arrays : DatabaseArrays) : Option (Int × ℕ × DatabaseArrays) :=
  match firstFailure hrets with
  | some hret => some (makeHgError hret, count, arrays)
  | none => do
      let bytes ← encodeListDbOut proc (p.listDbAnswer (UInt64.ofNat count))
      match decodeListDbOut proc into bytes with
      | none => some (makeHgError proc.decodeError, count, arrays)
      | some (out, _) =>
          if out.ret = 0 then do
            let _ ← Loop.indices 32 out.count.toNat
            let names ← overwrite arrays.names (out.dbNames.map some) out.count.toNat
            let ids ← overwrite arrays.ids out.dbIds out.count.toNat
            some (SdskvReturn.success.code, out.count.toNat, { names := names, ids := ids })
          else some (out.ret.toInt, 0, arrays)

/-- `client::open` without a name: the ids of the databases. The provider is `p` at the first
request and `p'` at the second; `none` reads a variable without a value, or is an access outside
of a vector. -/
def clientOpenAll (proc : HgProc) (hrets hrets' : List ℕ) (p p' : Provider) (into : ListDbOut) :
    Option (Except Int (List UInt64)) := do
  let (ret, num) := sdskvCountDatabases hrets p
  let count ← num
  if ret ≠ SdskvReturn.success.code then some (.error ret)
  else
    let (ret, count, arrays) ← sdskvListDatabases proc hrets' p' into count
      { names := List.replicate count none, ids := List.replicate count 0 }
    if ret ≠ SdskvReturn.success.code then some (.error ret)
    else if count ≤ arrays.ids.length then some (.ok (arrays.ids.take count))
    else none

end Client

namespace Provider

variable {p p' : Provider}

/-- The ids in the answer. -/
theorem dbIds_sdskvListDbUlt {count : ℕ} (hcount : count < 2 ^ 64)
    (hlt : p.name2id.length < 2 ^ 32) :
    (p.sdskvListDbUlt (.ok (UInt64.ofNat count))).dbIds = p.listedIds.take count ∧
      (p.sdskvListDbUlt (.ok (UInt64.ofNat count))).count = min count p.listedIds.length := by
  have hloop := listDbLoop_eq count (show 0 + p.name2id.length < 2 ^ 32 by omega)
  rw [Nat.zero_add, Nat.sub_zero] at hloop
  simp only [sdskvListDbUlt, UInt64.toNat_ofNat', Nat.mod_eq_of_lt hcount, hloop, listedIds,
    List.length_map]
  refine ⟨?_, trivial⟩
  rw [← List.map_take, ← List.map_take, List.take_take, Nat.min_comm count, Nat.min_assoc,
    Nat.min_self, ← Nat.min_comm count, ← List.take_eq_take_min]

/-- The ids of different names are different, also when a name was used twice. -/
theorem nodup_listedIds_of_names (h : p.Names) : p.listedIds.Nodup := by
  refine List.Nodup.map_on ?_ (nodup_of_sorted stringLess h.sorted_name2id)
  rintro ⟨name, id⟩ hmem ⟨name', id'⟩ hmem' (rfl : id = id')
  have hname := h.id2name_of_name2id name id
    ((lookup_eq_some_iff stringLess h.sorted_name2id).2 hmem)
  have hname' := h.id2name_of_name2id name' id
    ((lookup_eq_some_iff stringLess h.sorted_name2id).2 hmem')
  rw [hname, Option.some.injEq] at hname'
  rw [hname']

theorem live_of_mem_listedIds (h : p.Names) {id : UInt64} (hid : id ∈ p.listedIds) :
    ∃ db, p.Live id db := by
  obtain ⟨⟨name, id'⟩, hmem, rfl⟩ := List.mem_map.1 hid
  exact live_of_name2id h ((lookup_eq_some_iff stringLess h.sorted_name2id).2 hmem)

theorem names_of_run {ops : List ProviderOp} (h : p.Names) (hrun : run? step p ops = some p') :
    p'.Names :=
  invariant_of_step (fun _ _ _ h hs => names_step h hs) h hrun

end Provider

section Main

variable (proc : HgProc) {hrets hrets' : List ℕ} {p p' : Provider} (into : ListDbOut)

theorem overwrite_replicate {α : Type*} {a : α} {source : List α} {n : ℕ}
    (h : source.length ≤ n) :
    overwrite (List.replicate n a) source source.length =
      some (source ++ List.replicate (n - source.length) a) := by
  rw [overwrite, if_pos ⟨by rwa [List.length_replicate], le_rfl⟩, List.take_length,
    List.drop_replicate]

/-- The listing into arrays of `count` elements. -/
theorem sdskvListDatabases_of_ne_zero (hcalls' : firstFailure hrets' = none) {count : ℕ}
    (hcount : count < 2 ^ 64) (hlt : p'.name2id.length < 2 ^ 32)
    (hne : min count p'.listedIds.length ≠ 0) :
    ∃ names,
      sdskvListDatabases proc hrets' p' into count
          { names := List.replicate count none, ids := List.replicate count 0 } =
        some (SdskvReturn.success.code, (p'.listedIds.take count).length,
          { names := names
            ids := p'.listedIds.take count ++
              List.replicate (count - (p'.listedIds.take count).length) 0 }) := by
  obtain ⟨hids, hanswer⟩ := Provider.dbIds_sdskvListDbUlt hcount hlt
  have hlength : p'.listedIds.length = p'.name2id.length := List.length_map _
  set out := p'.listDbAnswer (UInt64.ofNat count) with hout
  have hoCount : out.count.toNat = (p'.listedIds.take count).length := by
    rw [hout, Provider.listDbAnswer, UInt64.toNat_ofNat', hanswer, List.length_take,
      Nat.mod_eq_of_lt (by omega)]
  have hoIds : out.dbIds = p'.listedIds.take count := hids
  have hoNe : out.count ≠ 0 := by
    intro hzero
    rw [hzero, List.length_take] at hoCount
    exact hne hoCount.symm
  have hoLt : out.count.toNat < 2 ^ 32 := by
    rw [hoCount, List.length_take]
    omega
  have hencode := encodeListDbOut_of_ne_zero proc out hoNe hoLt
  have hdecode := decodeListDbOut_of_ne_zero proc out hoNe hoLt into
  have hindices : Loop.indices 32 out.count.toNat = some (List.range out.count.toNat) :=
    if_pos hoLt
  have hnames : (out.dbNames.map some).length = out.count.toNat := by
    rw [List.length_map, out.names_length]
  have hle : out.count.toNat ≤ count := by
    rw [hoCount, List.length_take]
    exact min_le_left _ _
  have hwriteNames := overwrite_replicate (a := none) (hnames.trans_le hle)
  have hwriteIds := overwrite_replicate (a := 0) (out.ids_length.trans_le hle)
  rw [hnames] at hwriteNames
  rw [out.ids_length] at hwriteIds
  have hret : out.ret = 0 := rfl
  refine ⟨out.dbNames.map some ++ List.replicate (count - out.count.toNat) none, ?_⟩
  rw [sdskvListDatabases, hcalls']
  simp only [← hout, hencode, Option.bind_eq_bind, Option.bind_some, hdecode]
  simp only [hret, if_true, hindices, Option.bind_some, hwriteNames, hwriteIds]
  rw [hoCount, hoIds]

/-- An empty list does not say whether the request succeeded. -/
theorem sdskvListDatabases_of_zero (hcalls' : firstFailure hrets' = none) {count : ℕ}
    (hcount : count < 2 ^ 64) (hlt : p'.name2id.length < 2 ^ 32)
    (hzero : min count p'.listedIds.length = 0) (arrays : DatabaseArrays) :
    sdskvListDatabases proc hrets' p' into count arrays =
      some (if into.ret = 0 then SdskvReturn.success.code else into.ret.toInt, 0, arrays) := by
  obtain ⟨-, hanswer⟩ := Provider.dbIds_sdskvListDbUlt hcount hlt
  have hoCount : (p'.listDbAnswer (UInt64.ofNat count)).count = 0 := by
    change UInt64.ofNat (p'.sdskvListDbUlt (.ok (UInt64.ofNat count))).count = 0
    rw [hanswer, hzero]
    rfl
  have hencode := encodeListDbOut_of_zero proc _ hoCount
  have hdecode := decodeListDbOut_encode_zero proc into
  have hindices : Loop.indices 32 (0 : UInt64).toNat = some [] := rfl
  rw [sdskvListDatabases, hcalls']
  simp only [hencode, Option.bind_eq_bind, Option.bind_some, hdecode, hindices]
  split_ifs <;> simp [overwrite]

/-- `client::open` without a name, with any calls on the provider before, between and, at the
first request, `p`: it never touches memory outside of its vectors. It gives the first databases
of the list, as many as were counted; all of them are live at the second request, and none comes
twice. If there is nothing to list, it succeeds only if the struct that the answer is decoded
into happens to hold a 0. -/
theorem clientOpenAll_lists (compfunctions : List (Bulk × ComparatorFn))
    (ops ops' : List ProviderOp) (hcalls : firstFailure hrets = none)
    (hcalls' : firstFailure hrets' = none)
    (hrun : run? Provider.step (Provider.new compfunctions) ops = some p)
    (hrun' : run? Provider.step p ops' = some p') (hcount : p.countDatabases < 2 ^ 64)
    (hlt : p'.name2id.length < 2 ^ 32) :
    (min p.countDatabases p'.listedIds.length ≠ 0 →
      ∃ ids, clientOpenAll proc hrets hrets' p p' into = some (.ok ids) ∧
        ids = p'.listedIds.take p.countDatabases ∧ ids.Nodup ∧
        ∀ id ∈ ids, ∃ db, p'.Live id db) ∧
    (min p.countDatabases p'.listedIds.length = 0 →
      clientOpenAll proc hrets hrets' p p' into =
        some (if into.ret = 0 then .ok [] else .error into.ret.toInt)) := by
  have hnames : p'.Names :=
    Provider.names_of_run (Provider.names_of_run (Provider.names_new compfunctions) hrun) hrun'
  have hcounted : sdskvCountDatabases hrets p = (SdskvReturn.success.code,
      some p.countDatabases) := by
    rw [sdskvCountDatabases, hcalls]
  constructor
  · intro hne
    obtain ⟨names, hlisted⟩ := sdskvListDatabases_of_ne_zero proc into hcalls' hcount
      hlt hne
    refine ⟨_, ?_, rfl, (Provider.nodup_listedIds_of_names hnames).sublist
      (List.take_sublist _ _), fun id hid =>
        Provider.live_of_mem_listedIds hnames (List.mem_of_mem_take hid)⟩
    rw [clientOpenAll, hcounted]
    simp only [Option.bind_eq_bind, Option.bind_some, hlisted, ne_eq, not_true_eq_false, if_false]
    rw [if_pos (by simp), List.take_left]
  · intro hzero
    have hlisted := fun arrays => sdskvListDatabases_of_zero proc into hcalls' hcount hlt
      hzero arrays
    have hcode : into.ret ≠ 0 → into.ret.toInt ≠ SdskvReturn.success.code := fun hne h =>
      hne (Int32.toInt_inj.1 h)
    rw [clientOpenAll, hcounted]
    simp only [Option.bind_eq_bind, Option.bind_some, hlisted, ne_eq, not_true_eq_false, if_false]
    by_cases hret : into.ret = 0
    · simp [hret]
    · simp [hret, hcode hret]

/-- A struct of the client that an earlier call left an error in. -/
def staleListDbOut : ListDbOut where
  count := 0
  dbNames := []
  dbIds := []
  ret := 7

/-- One of two databases is removed and another one attached between the two requests. -/
theorem clientOpenAll_lists_replaced :
    ∃ p p', run? Provider.step (Provider.new []) [.attach (Provider.plainConfig [97]) (some 16),
        .attach (Provider.plainConfig [98]) (some 32)] = some p ∧
      run? Provider.step p [.remove 16, .attach (Provider.plainConfig [99]) (some 48)] =
        some p' ∧
      clientOpenAll mercuryProc [] [] p p' staleListDbOut = some (.ok [32, 48]) := by
  refine ⟨_, _, rfl, rfl, ?_⟩
  have hcalls : firstFailure [] = none := rfl
  obtain ⟨ids, hopen, hids, -, -⟩ := (clientOpenAll_lists mercuryProc staleListDbOut []
    [.attach (Provider.plainConfig [97]) (some 16), .attach (Provider.plainConfig [98]) (some 32)]
    [.remove 16, .attach (Provider.plainConfig [99]) (some 48)] hcalls hcalls rfl rfl (by decide)
    (by decide)).1 (by decide)
  rw [hopen, hids]
  rfl

end Main

end Sdskv
