import Sdskv.Provider.Registration
import Sdskv.Rpc.Types
import Sdskv.Wire.Record

/-!
# The messages of all requests

`MERCURY_GEN_PROC` makes the serialisation routine of a struct from its fields in order. Both
sides register each RPC with the types of its input and its answer, and a message is written
and read by the routines of these types, whatever the types of the variables are that the
client function and the handler pass. A routine that is given a variable of another type reads
and writes whatever lies there: there `marshal` and `unmarshal` are `none`.

`messages_arrive` says for which requests the handler gets what the client has sent, and that a
truncated message is refused.
-/

namespace Sdskv

open Wire

/-- The types of the fields. -/
inductive FieldType
  | uint64
  | uint16
  | int32
  | hgSize
  | hgString
  | hgBulk
  | kvData

/-- The structs of `sdskv-rpc-types.h` that `MERCURY_GEN_PROC` defines; `void` is the input of a
request without one. -/
inductive GenStruct
  | void
  | openIn
  | openOut
  | countDbOut
  | listDbIn
  | putIn
  | putOut
  | getIn
  | getOut
  | lengthIn
  | lengthOut
  | existsIn
  | existsOut
  | eraseOut
  | eraseIn
  | listKeysIn
  | listKeysOut
  | listKeyvalsIn
  | listKeyvalsOut
  | bulkPutIn
  | bulkPutOut
  | bulkGetIn
  | bulkGetOut
  | putMultiIn
  | putMultiOut
  | putPackedIn
  | putPackedOut
  | getMultiIn
  | getMultiOut
  | getPackedIn
  | getPackedOut
  | lengthMultiIn
  | lengthMultiOut
  | lengthPackedIn
  | lengthPackedOut
  | existsMultiIn
  | existsMultiOut
  | eraseMultiIn
  | eraseMultiOut
  | migrateKeysIn
  | migrateKeysOut
  | migrateKeyRangeIn
  | migrateKeysPrefixedIn
  | migrateAllKeysIn
  | migrateDatabaseIn
  | migrateDatabaseOut
  deriving DecidableEq

/-- The fields, in order. -/
def GenStruct.fields : GenStruct → List FieldType
  | void => []
  | openIn => [.hgString]
  | openOut => [.uint64, .int32]
  | countDbOut => [.uint64, .int32]
  | listDbIn => [.uint64]
  | putIn => [.uint64, .kvData, .kvData]
  | putOut => [.int32]
  | getIn => [.uint64, .kvData, .hgSize]
  | getOut => [.int32, .kvData, .hgSize]
  | lengthIn => [.uint64, .kvData]
  | lengthOut => [.hgSize, .int32]
  | existsIn => [.uint64, .kvData]
  | existsOut => [.int32, .int32]
  | eraseOut => [.int32]
  | eraseIn => [.uint64, .kvData]
  | listKeysIn => [.uint64, .kvData, .kvData, .hgSize, .hgBulk, .hgBulk]
  | listKeysOut => [.hgSize, .int32]
  | listKeyvalsIn => [.uint64, .kvData, .kvData, .hgSize, .hgBulk, .hgBulk, .hgBulk, .hgBulk]
  | listKeyvalsOut => [.hgSize, .int32]
  | bulkPutIn => [.uint64, .kvData, .hgSize, .hgBulk]
  | bulkPutOut => [.int32]
  | bulkGetIn => [.uint64, .kvData, .hgSize, .hgBulk]
  | bulkGetOut => [.hgSize, .int32]
  | putMultiIn => [.uint64, .hgSize, .hgBulk, .hgSize, .hgBulk, .hgSize]
  | putMultiOut => [.int32]
  | putPackedIn => [.uint64, .hgString, .hgSize, .hgSize, .hgBulk]
  | putPackedOut => [.int32]
  | getMultiIn => [.uint64, .hgSize, .hgBulk, .hgSize, .hgBulk, .hgSize]
  | getMultiOut => [.int32]
  | getPackedIn => [.uint64, .hgSize, .hgSize, .hgBulk, .hgSize, .hgBulk]
  | getPackedOut => [.int32, .hgSize]
  | lengthMultiIn => [.uint64, .hgSize, .hgBulk, .hgSize, .hgBulk]
  | lengthMultiOut => [.int32]
  | lengthPackedIn => [.uint64, .hgSize, .hgSize, .hgBulk, .hgBulk]
  | lengthPackedOut => [.int32]
  | existsMultiIn => [.uint64, .hgSize, .hgBulk, .hgSize, .hgBulk]
  | existsMultiOut => [.int32]
  | eraseMultiIn => [.uint64, .hgSize, .hgBulk, .hgSize]
  | eraseMultiOut => [.int32]
  | migrateKeysIn => [.uint64, .hgString, .uint16, .uint64, .hgSize, .hgSize, .hgBulk, .int32]
  | migrateKeysOut => [.int32]
  | migrateKeyRangeIn => [.uint64, .hgString, .uint16, .uint64, .kvData, .kvData, .int32]
  | migrateKeysPrefixedIn => [.uint64, .hgString, .uint16, .uint64, .kvData, .int32]
  | migrateAllKeysIn => [.uint64, .hgString, .uint16, .uint64, .int32]
  | migrateDatabaseIn => [.uint64, .int32, .hgString, .uint16, .hgString]
  | migrateDatabaseOut => [.int32, .int32]

/-- The basic routines that the structs use; `β` is what a bulk handle stands for. A string is
`none` when its pointer is null. -/
structure HgProcs (β : Type) extends HgProc where
  uint16 : Codec UInt16
  hgStringPtr : Codec (Option HgString)
  hgBulk : Codec β

/-- No routine looks at the bytes behind what it decodes. -/
structure HgProcs.Local {β : Type} (proc : HgProcs β) : Prop where
  uint64 : proc.uint64.Local
  uint16 : proc.uint16.Local
  int32 : proc.int32.Local
  hgSize : proc.hgSize.Local
  hgStringPtr : proc.hgStringPtr.Local
  hgBulk : proc.hgBulk.Local
  raw : ∀ n, (proc.raw n).Local

/-- The values of a field. -/
def FieldType.Value (β : Type) : FieldType → Type
  | uint64 => UInt64
  | uint16 => UInt16
  | int32 => Int32
  | hgSize => UInt64
  | hgString => Option HgString
  | hgBulk => β
  | kvData => KvData

/-- The values of a struct. -/
abbrev GenStruct.Value (β : Type) (struct : GenStruct) : Type :=
  Record (FieldType.Value β) struct.fields

/-- A struct in memory. -/
structure GenMessage (β : Type) where
  struct : GenStruct
  value : struct.Value β

section Routines

variable {β : Type} (proc : HgProcs β)

/-- The routine of a field. -/
def hgProcField : (f : FieldType) → Codec (f.Value β)
  | .uint64 => proc.uint64
  | .uint16 => proc.uint16
  | .int32 => proc.int32
  | .hgSize => proc.hgSize
  | .hgString => proc.hgStringPtr
  | .hgBulk => proc.hgBulk
  | .kvData => hgProcKvData proc.toHgProc

/-- `MERCURY_GEN_PROC`. -/
def mercuryGenProc (struct : GenStruct) : Codec (struct.Value β) :=
  Codec.record (hgProcField proc) struct.fields

/-- A struct is written by the routine of the registered type. -/
def marshal (registered : GenStruct) (m : GenMessage β) : Option Bulk :=
  if h : m.struct = registered then some ((mercuryGenProc proc registered).encode (h ▸ m.value))
  else none

/-- A variable of the type `struct` is filled by the routine of the registered type. -/
def unmarshal (registered struct : GenStruct) (message : Bulk) :
    Option (Except ℕ (GenMessage β)) :=
  if registered = struct then
    some ((margoGetInput proc.toHgProc (mercuryGenProc proc registered) message).map (⟨_, ·⟩))
  else none

end Routines

/-- The types of an RPC. The answer of `sdskv_list_databases_rpc` is serialised by hand. -/
structure RpcTypes where
  input : GenStruct
  output : Option GenStruct

namespace SdskvRpc

/-- The types that `sdskv_client_register` and `sdskv_provider_register` register, and of the
variables `in` and `out` of the handler and of the client function. -/
def types : SdskvRpc → RpcTypes
  | .open => ⟨.openIn, some .openOut⟩
  | .countDatabases => ⟨.void, some .countDbOut⟩
  | .listDatabases => ⟨.listDbIn, none⟩
  | .put => ⟨.putIn, some .putOut⟩
  | .putMulti => ⟨.putMultiIn, some .putMultiOut⟩
  | .putPacked => ⟨.putPackedIn, some .putPackedOut⟩
  | .bulkPut => ⟨.bulkPutIn, some .bulkPutOut⟩
  | .get => ⟨.getIn, some .getOut⟩
  | .getMulti => ⟨.getMultiIn, some .getMultiOut⟩
  | .getPacked => ⟨.getPackedIn, some .getPackedOut⟩
  | .length => ⟨.lengthIn, some .lengthOut⟩
  | .lengthMulti => ⟨.lengthMultiIn, some .lengthMultiOut⟩
  | .lengthPacked => ⟨.lengthPackedIn, some .lengthPackedOut⟩
  | .exists => ⟨.existsIn, some .existsOut⟩
  | .existsMulti => ⟨.existsMultiIn, some .existsMultiOut⟩
  | .bulkGet => ⟨.bulkGetIn, some .bulkGetOut⟩
  | .listKeys => ⟨.listKeysIn, some .listKeysOut⟩
  | .listKeyvals => ⟨.listKeyvalsIn, some .listKeyvalsOut⟩
  | .erase => ⟨.eraseIn, some .eraseOut⟩
  | .eraseMulti => ⟨.eraseMultiIn, some .eraseMultiOut⟩
  | .migrateKeys => ⟨.migrateKeysIn, some .migrateKeysOut⟩
  | .migrateKeyRange => ⟨.migrateKeyRangeIn, some .migrateKeysOut⟩
  | .migrateKeysPrefixed => ⟨.migrateKeysPrefixedIn, some .migrateKeysOut⟩
  | .migrateAllKeys => ⟨.migrateAllKeysIn, some .migrateKeysOut⟩
  | .migrateDatabase => ⟨.migrateDatabaseIn, some .migrateDatabaseOut⟩

/-- The RPC that the client function for a request creates its handle with. -/
def used : SdskvRpc → SdskvRpc
  | migrateKeys => .migrateKeyRange
  | rpc => rpc

theorem used_eq {rpc : SdskvRpc} (h : rpc ≠ .migrateKeys) : rpc.used = rpc := by
  cases rpc with
  | migrateKeys => exact absurd rfl h
  | _ => rfl

theorem used_output (rpc : SdskvRpc) : rpc.used.types.output = rpc.types.output := by
  cases rpc <;> rfl

end SdskvRpc

section Local

variable {β : Type} {proc : HgProcs β}

theorem local_hgProcKvData {proc : HgProc} (h : proc.hgSize.Local)
    (hraw : ∀ n, (proc.raw n).Local) : (hgProcKvData proc).Local := by
  intro input more d rest hd
  obtain ⟨⟨size, input₁⟩, hsize, hd⟩ := Option.bind_eq_some_iff.1 hd
  have hsize' := h input more size input₁ hsize
  by_cases hzero : size = 0
  · simp only [hzero, ne_eq, not_true_eq_false, if_false, Option.some.injEq, Prod.mk.injEq] at hd
    simp only [hgProcKvData, hsize', hzero, ne_eq, not_true_eq_false, if_false,
      Option.bind_eq_bind, Option.bind_some, ← hd.1, ← hd.2]
  · simp only [ne_eq, hzero, not_false_eq_true, if_true] at hd
    obtain ⟨⟨data, input₂⟩, hdata, hd⟩ := Option.bind_eq_some_iff.1 hd
    cases hd
    have hdata' := hraw size.toNat input₁ more data input₂ hdata
    simp only [hgProcKvData, hsize', hzero, hdata', ne_eq, not_false_eq_true, if_true,
      Option.bind_eq_bind, Option.bind_some]

theorem local_hgProcField (h : proc.Local) (f : FieldType) : (hgProcField proc f).Local := by
  cases f with
  | uint64 => exact h.uint64
  | uint16 => exact h.uint16
  | int32 => exact h.int32
  | hgSize => exact h.hgSize
  | hgString => exact h.hgStringPtr
  | hgBulk => exact h.hgBulk
  | kvData => exact local_hgProcKvData h.hgSize h.raw

theorem local_mercuryGenProc (h : proc.Local) (struct : GenStruct) :
    (mercuryGenProc proc struct).Local :=
  Codec.local_record (local_hgProcField h) struct.fields

end Local

/-- The routine of `put_in_t` writes what `hgProcPutIn` writes. -/
theorem mercuryGenProc_putIn {β : Type} (proc : HgProcs β) (m : PutIn) :
    (mercuryGenProc proc .putIn).encode (m.dbId, m.key, m.value, .unit) =
      (hgProcPutIn proc.toHgProc).encode m := by
  show _ ++ (_ ++ (_ ++ [])) = _ ++ _ ++ _
  rw [List.append_nil, ← List.append_assoc]
  rfl

section Instance

/-- A byte that says whether there is a string, in front of the string. -/
def hgStringPtrCodec : Codec (Option HgString) where
  encode
    | none => [0]
    | some s => 1 :: hgStringCodec.encode s
  decode
    | [] => none
    | b :: input =>
        if b = 0 then some (none, input)
        else (hgStringCodec.decode input).map fun (s, input) => (some s, input)
  decode_encode
    | none, rest => rfl
    | some s, rest => by
        simp [hgStringCodec.decode_encode]

theorem eq_of_decode_hgString {input rest : Bulk} {s : HgString}
    (h : hgStringCodec.decode input = some (s, rest)) :
    input = hgStringCodec.encode s ++ rest := by
  have hsplit := List.takeWhile_append_dropWhile (p := fun b : UInt8 => decide (b ≠ 0)) (l := input)
  simp only [hgStringCodec] at h ⊢
  split at h
  · rename_i b rest' hdrop
    cases h
    have hb : b = 0 := by
      have hhead := List.head?_dropWhile_not (fun b : UInt8 => decide (b ≠ 0)) input
      rw [hdrop] at hhead
      simpa using hhead
    rw [hdrop, hb] at hsplit
    rw [List.append_assoc]
    exact hsplit.symm
  · cases h

theorem local_hgStringPtrCodec : hgStringPtrCodec.Local := by
  intro input more s rest h
  cases input with
  | nil => cases h
  | cons b input =>
      by_cases hb : b = 0
      · simp only [hgStringPtrCodec, hb, if_true, Option.some.injEq, Prod.mk.injEq] at h
        simp only [hgStringPtrCodec, List.cons_append, hb, if_true, ← h.1, ← h.2]
      · simp only [hgStringPtrCodec, hb, if_false] at h
        obtain ⟨⟨s', rest'⟩, hs, h⟩ := Option.map_eq_some_iff.1 h
        cases h
        have hlocal := Codec.local_of_eq_encode (fun _ _ _ h => eq_of_decode_hgString h) input
          more s' rest' hs
        simp only [hgStringPtrCodec, List.cons_append, hb, if_false, hlocal, Option.map_some]

/-- Words as in `mercuryProc`; a string pointer is a byte that says whether it is null, in front
of the string, and a bulk handle is sent like data. -/
def mercuryProcs : HgProcs KvData where
  toHgProc := mercuryProc
  uint16 := Codec.word 2 UInt16.toNat UInt16.ofNat (fun n => n.toNat_lt) (by simp)
  hgStringPtr := hgStringPtrCodec
  hgBulk := hgProcKvData mercuryProc

theorem local_mercuryProc_hgSize : mercuryProc.hgSize.Local :=
  Codec.local_word 8 UInt64.toNat UInt64.ofNat (fun n => n.toNat_lt) (by simp)

theorem local_mercuryProcs : mercuryProcs.Local where
  uint64 := local_mercuryProc_hgSize
  uint16 := Codec.local_word 2 UInt16.toNat UInt16.ofNat (fun n => n.toNat_lt) (by simp)
  int32 := Codec.local_word 4 (fun n : Int32 => n.toUInt32.toNat)
    (fun n => (UInt32.ofNat n).toInt32) (fun n => n.toUInt32.toNat_lt) (by simp)
  hgSize := local_mercuryProc_hgSize
  hgStringPtr := local_hgStringPtrCodec
  hgBulk := local_hgProcKvData local_mercuryProc_hgSize Codec.local_bytes
  raw := Codec.local_bytes

end Instance

section Delivery

variable {β : Type} {proc : HgProcs β}

/-- A message that is read as it was written: with anything behind it, but not truncated. -/
def Delivered (proc : HgProcs β) (registered struct : GenStruct) (m : GenMessage β)
    (message : Bulk) : Prop :=
  marshal proc registered m = some message ∧
    (∀ more, unmarshal proc registered struct (message ++ more) = some (.ok m)) ∧
    ∀ cut, cut <+: message → cut ≠ message →
      unmarshal proc registered struct cut = some (.error proc.decodeError)

theorem exists_delivered (h : proc.Local) (m : GenMessage β) :
    ∃ message, Delivered proc m.struct m.struct m message := by
  refine ⟨(mercuryGenProc proc m.struct).encode m.value, dif_pos rfl, fun more => ?_,
    fun cut hprefix hne => ?_⟩
  · rw [unmarshal, if_pos rfl, margoGetInput, Codec.decode_encode]
    rfl
  · rw [unmarshal, if_pos rfl, margoGetInput,
      (local_mercuryGenProc h m.struct).decode_eq_none hprefix hne]
    rfl

/-- The handler of a request gets what the client has sent, and refuses it truncated, except for
`sdskv_migrate_keys`; the client gets every answer that is not serialised by hand. -/
theorem messages_arrive (h : proc.Local) (rpc : SdskvRpc) :
    (∀ m : GenMessage β, m.struct = rpc.types.input →
      ((∃ message, Delivered proc rpc.used.types.input rpc.used.types.input m message) ↔
        rpc ≠ .migrateKeys)) ∧
    ∀ a : GenMessage β, some a.struct = rpc.used.types.output →
      ∃ message registered struct, rpc.used.types.output = some registered ∧
        rpc.types.output = some struct ∧ Delivered proc registered struct a message := by
  refine ⟨fun m hm => ⟨?_, fun hrpc => ?_⟩, fun a ha => ?_⟩
  · rintro ⟨message, hmarshal, -, -⟩ rfl
    have htypes : m.struct ≠ SdskvRpc.migrateKeys.used.types.input := by
      rw [hm]
      decide
    rw [marshal, dif_neg htypes] at hmarshal
    cases hmarshal
  · rw [SdskvRpc.used_eq hrpc, ← hm]
    exact exists_delivered h m
  · obtain ⟨message, hmessage⟩ := exists_delivered h a
    exact ⟨message, a.struct, a.struct, ha.symm, (ha.trans rpc.used_output).symm, hmessage⟩

/-- A put of the key `7` without a value. -/
def putMessage : GenMessage KvData :=
  ⟨.putIn, ((16 : UInt64), KvData.single 7, KvData.empty, .unit)⟩

theorem messages_arrive_put :
    ∃ message, Delivered mercuryProcs .putIn .putIn putMessage message :=
  ((messages_arrive local_mercuryProcs .put).1 putMessage rfl).2 (by decide)

end Delivery

end Sdskv
