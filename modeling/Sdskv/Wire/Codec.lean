import Mathlib.Data.List.Basic
import Mathlib.Tactic.Ring

/-!
# Words in memory and prefix codecs

`leBytes w v` are the `w` bytes of `v`, least significant first, and `leValue`
reads them back. `arrayBytes w vs` is an array of such words as it lies in memory,
and `readArray w buffer n` reads `n` words from the start of a buffer.

A `Codec α` writes a value and reads it back in front of any remaining input; the
round trip is a field. `decodeMany` reads a given number of values.
-/

namespace Wire

/-- The `w` bytes of `v`, least significant first. -/
def leBytes : ℕ → ℕ → List UInt8
  | 0, _ => []
  | w + 1, v => UInt8.ofNat (v % 256) :: leBytes w (v / 256)

/-- The number that the bytes stand for, least significant first. -/
def leValue : List UInt8 → ℕ
  | [] => 0
  | b :: bs => b.toNat + 256 * leValue bs

@[simp] theorem length_leBytes (w v : ℕ) : (leBytes w v).length = w := by
  induction w generalizing v with
  | zero => rfl
  | succ w ih => simp [leBytes, ih]

theorem leValue_leBytes {w v : ℕ} (h : v < 256 ^ w) : leValue (leBytes w v) = v := by
  induction w generalizing v with
  | zero =>
      rw [pow_zero] at h
      simp [leBytes, leValue]
      omega
  | succ w ih =>
      have hdiv : v / 256 < 256 ^ w := by
        rw [Nat.div_lt_iff_lt_mul (by decide)]
        rwa [pow_succ] at h
      have hbyte : (UInt8.ofNat (v % 256)).toNat = v % 256 := by
        rw [UInt8.toNat_ofNat']
        omega
      rw [leBytes, leValue, ih hdiv, hbyte]
      omega

theorem leBytes_leValue (bs : List UInt8) : leBytes bs.length (leValue bs) = bs := by
  induction bs with
  | nil => rfl
  | cons b bs ih =>
      have hlt : b.toNat < 256 := b.toNat_lt
      have hmod : (b.toNat + 256 * leValue bs) % 256 = b.toNat := by omega
      have hdiv : (b.toNat + 256 * leValue bs) / 256 = leValue bs := by omega
      rw [List.length_cons, leValue, leBytes, hmod, hdiv, ih, UInt8.ofNat_toNat]

/-- Only the low bytes of a number are stored. -/
theorem leBytes_mod (w v : ℕ) : leBytes w (v % 256 ^ w) = leBytes w v := by
  induction w generalizing v with
  | zero => rfl
  | succ w ih =>
      have hlow : v % 256 ^ (w + 1) % 256 = v % 256 :=
        Nat.mod_mod_of_dvd v (Dvd.intro_left (256 ^ w) (pow_succ 256 w).symm)
      have hhigh : v % 256 ^ (w + 1) / 256 = v / 256 % 256 ^ w := by
        rw [pow_succ, Nat.mul_comm, Nat.mod_mul_right_div_self]
      rw [leBytes, leBytes, hlow, hhigh, ih]

/-- An array of words of `w` bytes as it lies in memory. -/
def arrayBytes (w : ℕ) (vs : List ℕ) : List UInt8 := vs.flatMap (leBytes w)

/-- The first `n` words of `w` bytes of a buffer. -/
def readArray (w : ℕ) (buffer : List UInt8) (n : ℕ) : List ℕ :=
  (List.range n).map fun i => leValue ((buffer.drop (w * i)).take w)

@[simp] theorem length_arrayBytes (w : ℕ) (vs : List ℕ) :
    (arrayBytes w vs).length = w * vs.length := by
  induction vs with
  | nil => rfl
  | cons v vs ih =>
      rw [arrayBytes, List.flatMap_cons, List.length_append, length_leBytes]
      rw [← arrayBytes, ih, List.length_cons]
      ring

theorem readArray_succ (w : ℕ) (buffer : List UInt8) (n : ℕ) :
    readArray w buffer (n + 1) =
      leValue (buffer.take w) :: readArray w (buffer.drop w) n := by
  rw [readArray, List.range_succ_eq_map, List.map_cons, List.map_map, readArray]
  congr 1
  apply List.map_congr_left
  intro i _
  rw [Function.comp_apply, List.drop_drop]
  congr 3
  rw [Nat.succ_eq_add_one]
  ring

/-- An array that lies at the start of a buffer is read back. -/
theorem readArray_arrayBytes {w : ℕ} {vs : List ℕ} (h : ∀ v ∈ vs, v < 256 ^ w)
    (rest : List UInt8) : readArray w (arrayBytes w vs ++ rest) vs.length = vs := by
  induction vs with
  | nil => rfl
  | cons v vs ih =>
      have hsplit : arrayBytes w (v :: vs) ++ rest =
          leBytes w v ++ (arrayBytes w vs ++ rest) := by
        simp [arrayBytes]
      have hv : v < 256 ^ w := h v List.mem_cons_self
      have hvs : ∀ u ∈ vs, u < 256 ^ w := fun u hu => h u (List.mem_cons_of_mem v hu)
      rw [List.length_cons, readArray_succ, hsplit]
      rw [List.take_left' (length_leBytes w v), List.drop_left' (length_leBytes w v)]
      rw [leValue_leBytes hv, ih hvs]

/-- The words that are read from a buffer stand for its first bytes. -/
theorem arrayBytes_readArray {w n : ℕ} {buffer : List UInt8} (h : w * n ≤ buffer.length) :
    arrayBytes w (readArray w buffer n) = buffer.take (w * n) := by
  induction n generalizing buffer with
  | zero => rfl
  | succ n ih =>
      rw [Nat.mul_succ] at h ⊢
      have hword : leBytes w (leValue (buffer.take w)) = buffer.take w := by
        have hle := leBytes_leValue (buffer.take w)
        rwa [List.length_take, Nat.min_eq_left (by omega)] at hle
      have hrest : arrayBytes w (readArray w (buffer.drop w) n) =
          (buffer.drop w).take (w * n) :=
        ih (by rw [List.length_drop]; omega)
      rw [readArray_succ, arrayBytes, List.flatMap_cons, ← arrayBytes, hword, hrest,
        Nat.add_comm, List.take_add]

/-- A writer and a reader that consumes exactly what was written. -/
structure Codec (α : Type*) where
  encode : α → List UInt8
  decode : List UInt8 → Option (α × List UInt8)
  decode_encode : ∀ a rest, decode (encode a ++ rest) = some (a, rest)

namespace Codec

variable {α β : Type*}

/-- A word of `w` bytes that carries the values below `256 ^ w`. -/
def word (w : ℕ) (toNat : α → ℕ) (ofNat : ℕ → α) (hlt : ∀ a, toNat a < 256 ^ w)
    (hinv : ∀ a, ofNat (toNat a) = a) : Codec α where
  encode a := leBytes w (toNat a)
  decode bytes :=
    if bytes.length < w then none
    else some (ofNat (leValue (bytes.take w)), bytes.drop w)
  decode_encode a rest := by
    have hlen : ¬ (leBytes w (toNat a) ++ rest).length < w := by simp
    rw [if_neg hlen, List.take_left' (length_leBytes w _),
      List.drop_left' (length_leBytes w _), leValue_leBytes (hlt a), hinv]

/-- A byte string of a length that both sides know. -/
def bytes (n : ℕ) : Codec {b : List UInt8 // b.length = n} where
  encode b := b.1
  decode bytes :=
    if h : n ≤ bytes.length then some (⟨bytes.take n, by simp [h]⟩, bytes.drop n)
    else none
  decode_encode b rest := by
    obtain ⟨b, rfl⟩ := b
    simp

/-- Read `n` values one after the other. -/
def decodeMany (c : Codec α) : ℕ → List UInt8 → Option (List α × List UInt8)
  | 0, input => some ([], input)
  | n + 1, input => do
      let (a, input) ← c.decode input
      let (as, input) ← c.decodeMany n input
      some (a :: as, input)

theorem decodeMany_flatMap (c : Codec α) (as : List α) (rest : List UInt8) :
    c.decodeMany as.length (as.flatMap c.encode ++ rest) = some (as, rest) := by
  induction as with
  | nil => rfl
  | cons a as ih =>
      rw [List.length_cons, List.flatMap_cons, List.append_assoc, decodeMany,
        c.decode_encode, Option.bind_eq_bind, Option.bind_some]
      simp only [ih, Option.bind_eq_bind, Option.bind_some]

end Codec

end Wire
