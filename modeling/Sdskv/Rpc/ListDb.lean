import Sdskv.Loop.Counter
import Sdskv.Rpc.Types

/-!
# The answer of the list-databases request

`list_db_out_t` is serialised by hand. The routine writes the count first and the
other fields only when the count is not zero, so an answer without databases is
its count alone: the return value is not sent. Decoding fills a struct of the
caller, and what is not sent keeps the content it had.

The count has 64 bits and the counter of the loops over the names has 32.
-/

namespace Sdskv

open Wire

/-- `list_db_out_t` as it lies in memory. -/
structure ListDbOut where
  count : UInt64
  dbNames : List HgString
  dbIds : List UInt64
  ret : Int32

/-- An answer to send: both arrays have `count` elements. -/
structure ListDbAnswer extends ListDbOut where
  names_length : dbNames.length = count.toNat
  ids_length : dbIds.length = count.toNat

namespace ListDbAnswer

/-- The array `db_ids` in memory. -/
def idBytes (out : ListDbAnswer) : Bulk := arrayBytes 8 (out.dbIds.map UInt64.toNat)

theorem length_idBytes (out : ListDbAnswer) :
    out.idBytes.length = 8 * out.count.toNat := by
  rw [idBytes, length_arrayBytes, List.length_map, out.ids_length]

end ListDbAnswer

variable (proc : HgProc)

/-- `hg_proc_list_db_out_t` with `HG_ENCODE`; `none` when the loop over the names does
not end. -/
def encodeListDbOut (out : ListDbAnswer) : Option Bulk :=
  if out.count ≠ 0 then do
    let is ← Loop.indices 32 out.count.toNat
    some (proc.hgSize.encode out.count ++
      ((is.filterMap fun i => out.dbNames[i]?).flatMap proc.hgString.encode ++
        ((proc.raw out.idBytes.length).encode ⟨out.idBytes, rfl⟩ ++
          proc.int32.encode out.ret)))
  else some (proc.hgSize.encode out.count)

/-- `hg_proc_list_db_out_t` with `HG_DECODE` into the struct `into`. -/
def decodeListDbOut (into : ListDbOut) (input : Bulk) : Option (ListDbOut × Bulk) := do
  let (count, input) ← proc.hgSize.decode input
  if count ≠ 0 then
    let is ← Loop.indices 32 count.toNat
    let (dbNames, input) ← proc.hgString.decodeMany is.length input
    let (dbIds, input) ← (proc.raw (8 * count.toNat)).decode input
    let (ret, input) ← proc.int32.decode input
    some ({ count := count, dbNames := dbNames,
            dbIds := (readArray 8 dbIds.1 count.toNat).map UInt64.ofNat, ret := ret }, input)
  else some ({ into with count := count }, input)

/-- The decoded struct has the count, the names, the ids and the return value of
the answer. -/
def ListDbOut.Agrees (o : ListDbOut) (out : ListDbAnswer) : Prop :=
  o.count = out.count ∧ o.dbNames.take o.count.toNat = out.dbNames ∧
    o.dbIds.take o.count.toNat = out.dbIds ∧ o.ret = out.ret

/-- The answer is encoded, and whatever the struct of the receiver holds before,
decoding the bytes gives the answer. -/
def RoundTrips (out : ListDbAnswer) : Prop :=
  ∃ bytes, encodeListDbOut proc out = some bytes ∧
    ∀ into, ∃ o, decodeListDbOut proc into bytes = some (o, []) ∧ o.Agrees out

theorem readArray_idBytes (out : ListDbAnswer) :
    (readArray 8 out.idBytes out.count.toNat).map UInt64.ofNat = out.dbIds := by
  have hlt : ∀ v ∈ out.dbIds.map UInt64.toNat, v < 256 ^ 8 := by
    intro v hv
    obtain ⟨n, -, rfl⟩ := List.mem_map.1 hv
    exact n.toNat_lt
  have hread := readArray_arrayBytes hlt []
  rw [List.append_nil, List.length_map, out.ids_length] at hread
  have hinv : UInt64.ofNat ∘ UInt64.toNat = id := by
    funext n
    exact UInt64.ofNat_toNat
  rw [ListDbAnswer.idBytes, hread, List.map_map, hinv, List.map_id]

theorem encodeListDbOut_of_ne_zero (out : ListDbAnswer) (h : out.count ≠ 0)
    (hlt : out.count.toNat < 2 ^ 32) :
    encodeListDbOut proc out = some (proc.hgSize.encode out.count ++
      (out.dbNames.flatMap proc.hgString.encode ++
        ((proc.raw out.idBytes.length).encode ⟨out.idBytes, rfl⟩ ++
          proc.int32.encode out.ret))) := by
  rw [encodeListDbOut, if_pos h, Loop.indices, if_pos hlt, Option.bind_eq_bind,
    Option.bind_some, ← out.names_length, Loop.filterMap_getElem?_range]

theorem encodeListDbOut_of_le (out : ListDbAnswer) (h : out.count ≠ 0)
    (hle : 2 ^ 32 ≤ out.count.toNat) : encodeListDbOut proc out = none := by
  rw [encodeListDbOut, if_pos h, Loop.indices, if_neg (Nat.not_lt.2 hle)]
  rfl

theorem encodeListDbOut_of_zero (out : ListDbAnswer) (h : out.count = 0) :
    encodeListDbOut proc out = some (proc.hgSize.encode 0) := by
  simp [encodeListDbOut, h]

theorem decodeListDbOut_of_ne_zero (out : ListDbAnswer) (h : out.count ≠ 0)
    (hlt : out.count.toNat < 2 ^ 32) (into : ListDbOut) :
    decodeListDbOut proc into (proc.hgSize.encode out.count ++
      (out.dbNames.flatMap proc.hgString.encode ++
        ((proc.raw out.idBytes.length).encode ⟨out.idBytes, rfl⟩ ++
          proc.int32.encode out.ret))) = some (out.toListDbOut, []) := by
  have hnames := proc.hgString.decodeMany_flatMap out.dbNames
    ((proc.raw out.idBytes.length).encode ⟨out.idBytes, rfl⟩ ++ proc.int32.encode out.ret)
  rw [out.names_length] at hnames
  have hids := proc.raw_decode_encode out.length_idBytes (proc.int32.encode out.ret)
  have hret : proc.int32.decode (proc.int32.encode out.ret) = some (out.ret, []) := by
    simpa using proc.int32.decode_encode out.ret []
  have hindices : Loop.indices 32 out.count.toNat = some (List.range out.count.toNat) :=
    if_pos hlt
  rw [decodeListDbOut, proc.hgSize.decode_encode]
  simp only [Option.bind_eq_bind, Option.bind_some, h, ne_eq, not_false_eq_true, if_true,
    hindices, List.length_range, hnames, hids, hret, readArray_idBytes]

theorem decodeListDbOut_encode_zero (into : ListDbOut) :
    decodeListDbOut proc into (proc.hgSize.encode 0) =
      some ({ into with count := 0 }, []) := by
  have hsize : proc.hgSize.decode (proc.hgSize.encode 0) = some (0, []) := by
    simpa using proc.hgSize.decode_encode 0 []
  simp [decodeListDbOut, hsize]

/-- An answer without databases does not survive: the receiver keeps its own return
value. -/
theorem not_roundTrips_of_zero (out : ListDbAnswer) (h : out.count = 0) :
    ¬ RoundTrips proc out := by
  rintro ⟨bytes, hencode, hdecode⟩
  rw [encodeListDbOut_of_zero proc out h] at hencode
  cases hencode
  obtain ⟨o, hdecode, -, -, -, hret⟩ := hdecode { out.toListDbOut with ret := out.ret + 1 }
  rw [decodeListDbOut_encode_zero, Option.some.injEq, Prod.mk.injEq] at hdecode
  rw [← hdecode.1] at hret
  simp at hret

/-- An answer survives the wire exactly when it lists at least one database, and not
more than the loops over the names can count. -/
theorem roundTrips_iff (out : ListDbAnswer) :
    RoundTrips proc out ↔ out.count ≠ 0 ∧ out.count.toNat < 2 ^ 32 := by
  constructor
  · intro hround
    have hne : out.count ≠ 0 := fun hzero => not_roundTrips_of_zero proc out hzero hround
    refine ⟨hne, ?_⟩
    by_contra hge
    obtain ⟨bytes, hencode, -⟩ := hround
    rw [encodeListDbOut_of_le proc out hne (Nat.not_lt.1 hge)] at hencode
    cases hencode
  · rintro ⟨hne, hlt⟩
    refine ⟨_, encodeListDbOut_of_ne_zero proc out hne hlt, fun into => ?_⟩
    refine ⟨_, decodeListDbOut_of_ne_zero proc out hne hlt into, rfl, ?_, ?_, rfl⟩
    · rw [← out.names_length, List.take_length]
    · rw [← out.ids_length, List.take_length]

/-- The answer of a provider that is not registered: no databases and the code of
`SDSKV_ERR_UNKNOWN_PR`. -/
def unknownProviderAnswer : ListDbAnswer where
  count := 0
  dbNames := []
  dbIds := []
  ret := 7
  names_length := rfl
  ids_length := rfl

/-- Decoded into a zeroed struct, that answer reads as a success. -/
theorem unknownProviderAnswer_lost :
    (encodeListDbOut mercuryProc unknownProviderAnswer).bind
        (decodeListDbOut mercuryProc { count := 0, dbNames := [], dbIds := [], ret := 0 }) =
      some ({ count := 0, dbNames := [], dbIds := [], ret := 0 }, []) ∧
    ¬ RoundTrips mercuryProc unknownProviderAnswer := by
  constructor
  · rw [encodeListDbOut_of_zero mercuryProc unknownProviderAnswer rfl, Option.bind_some,
      decodeListDbOut_encode_zero]
  · exact not_roundTrips_of_zero mercuryProc unknownProviderAnswer rfl

end Sdskv
