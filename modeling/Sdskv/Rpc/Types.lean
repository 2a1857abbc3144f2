import Mathlib.Data.List.TakeWhile
import Sdskv.Common.Types
import Sdskv.Wire.Codec

/-!
# Messages on the wire

Mercury's own serialisation routines are the parameter `HgProc`: a codec for each
basic type, so their round trips are assumed and nothing else. The routines that
the repository writes by hand are built from them as the source does, here
`hg_proc_kv_data_t` and the message `put_in_t` that carries two of them.

`mercuryProc` is a concrete `HgProc` with words stored least significant byte
first.
-/

namespace Sdskv

open Wire

/-- A C string: bytes without a terminating zero. -/
abbrev HgString := {s : Bulk // (0 : UInt8) ∉ s}

/-- The basic `hg_proc_*` routines, and the code of a failed decoding. -/
structure HgProc where
  hgSize : Codec UInt64
  uint64 : Codec UInt64
  int32 : Codec Int32
  hgString : Codec HgString
  raw : (n : ℕ) → Codec {b : Bulk // b.length = n}
  decodeError : ℕ

/-- `kv_data_t`: a pointer and a size, here the bytes it delimits. -/
structure KvData where
  data : Bulk
  size_lt : data.length < 2 ^ 64

namespace KvData

/-- The field `size`. -/
def size (d : KvData) : UInt64 := UInt64.ofNat d.data.length

@[simp] theorem size_toNat (d : KvData) : d.size.toNat = d.data.length := by
  rw [size, UInt64.toNat_ofNat']
  exact Nat.mod_eq_of_lt d.size_lt

@[ext] theorem ext {d e : KvData} (h : d.data = e.data) : d = e := by
  cases d
  cases e
  cases h
  rfl

/-- A null pointer with size zero. -/
def empty : KvData := { data := [], size_lt := by decide }

/-- A single byte. -/
def single (b : UInt8) : KvData := { data := [b], size_lt := by simp }

/-- The bytes of a decoded buffer of the announced size. -/
def ofRaw (n : UInt64) (b : {b : Bulk // b.length = n.toNat}) : KvData :=
  { data := b.1, size_lt := by rw [b.2]; exact n.toNat_lt }

end KvData

variable (proc : HgProc)

theorem HgProc.raw_decode_encode {n : ℕ} {b : Bulk} (h : b.length = n) (rest : Bulk) :
    (proc.raw n).decode ((proc.raw b.length).encode ⟨b, rfl⟩ ++ rest) =
      some (⟨b, h⟩, rest) := by
  subst h
  exact (proc.raw b.length).decode_encode ⟨b, rfl⟩ rest

/-- `hg_proc_kv_data_t`. A size of zero is not followed by any bytes. -/
def hgProcKvData : Codec KvData where
  encode d := proc.hgSize.encode d.size ++
    if d.size ≠ 0 then (proc.raw d.data.length).encode ⟨d.data, rfl⟩ else []
  decode input := do
    let (size, input) ← proc.hgSize.decode input
    if size ≠ 0 then
      let (data, input) ← (proc.raw size.toNat).decode input
      some (KvData.ofRaw size data, input)
    else some (KvData.empty, input)
  decode_encode d rest := by
    rw [List.append_assoc, proc.hgSize.decode_encode, Option.bind_eq_bind,
      Option.bind_some]
    by_cases h : d.size = 0
    · have hdata : d.data = [] := by
        rw [← List.length_eq_zero_iff, ← d.size_toNat, h]
        rfl
      simp only [h, ne_eq, not_true_eq_false, if_false, List.nil_append,
        Option.some.injEq, Prod.mk.injEq, and_true]
      exact KvData.ext hdata.symm
    · have hraw := proc.raw_decode_encode d.size_toNat.symm rest
      simp only [h, ne_eq, not_false_eq_true, if_true, hraw, Option.bind_eq_bind,
        Option.bind_some]
      rfl

/-- `put_in_t`. -/
structure PutIn where
  dbId : UInt64
  key : KvData
  value : KvData

/-- `hg_proc_put_in_t`, the fields in order. -/
def hgProcPutIn : Codec PutIn where
  encode m := proc.uint64.encode m.dbId ++ (hgProcKvData proc).encode m.key ++
    (hgProcKvData proc).encode m.value
  decode input := do
    let (dbId, input) ← proc.uint64.decode input
    let (key, input) ← (hgProcKvData proc).decode input
    let (value, input) ← (hgProcKvData proc).decode input
    some ({ dbId := dbId, key := key, value := value }, input)
  decode_encode m rest := by
    simp only [List.append_assoc, Codec.decode_encode, Option.bind_eq_bind,
      Option.bind_some]

/-- `margo_get_input` on the bytes of a message. -/
def margoGetInput {α : Type*} (c : Codec α) (message : Bulk) : Except ℕ α :=
  match c.decode message with
  | some (a, _) => .ok a
  | none => .error proc.decodeError

theorem margoGetInput_encode {α : Type*} (c : Codec α) (a : α) :
    margoGetInput proc c (c.encode a) = .ok a := by
  have h : c.decode (c.encode a) = some (a, []) := by
    simpa using c.decode_encode a []
  rw [margoGetInput, h]

theorem zero_notMem_takeWhile (input : Bulk) :
    (0 : UInt8) ∉ input.takeWhile fun b => decide (b ≠ 0) := by
  intro h
  simpa using List.mem_takeWhile_imp h

/-- A string followed by its terminating zero. -/
def hgStringCodec : Codec HgString where
  encode s := s.1 ++ [0]
  decode input := match input.dropWhile fun b => decide (b ≠ 0) with
    | _ :: rest => some (⟨_, zero_notMem_takeWhile input⟩, rest)
    | [] => none
  decode_encode s rest := by
    obtain ⟨s, hs⟩ := s
    have hpos : ∀ b ∈ s, decide (b ≠ 0) = true := by
      intro b hb
      simp only [decide_eq_true_eq]
      rintro rfl
      exact hs hb
    have hdrop : (s ++ [0] ++ rest).dropWhile (fun b => decide (b ≠ 0)) = 0 :: rest := by
      rw [List.append_assoc, List.dropWhile_append_of_pos hpos]
      rfl
    have htake : (s ++ [0] ++ rest).takeWhile (fun b => decide (b ≠ 0)) = s := by
      rw [List.append_assoc, List.takeWhile_append_of_pos hpos]
      simp
    simp only [hdrop, htake]

/-- Words least significant byte first, strings and raw buffers as they are. -/
def mercuryProc : HgProc where
  hgSize := Codec.word 8 UInt64.toNat UInt64.ofNat (fun n => n.toNat_lt) (by simp)
  uint64 := Codec.word 8 UInt64.toNat UInt64.ofNat (fun n => n.toNat_lt) (by simp)
  int32 := Codec.word 4 (fun n => n.toUInt32.toNat) (fun n => (UInt32.ofNat n).toInt32)
    (fun n => n.toUInt32.toNat_lt) (by simp)
  hgString := hgStringCodec
  raw := Codec.bytes
  decodeError := 1

end Sdskv
