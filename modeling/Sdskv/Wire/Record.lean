import Mathlib.Data.List.Infix
import Sdskv.Wire.Codec

/-!
# Records of fields

A record type is a list of field types, and its values are read and written one field after
the other. A decoder that only looks at the bytes it consumes (`Codec.Local`) gives the same
value when more bytes follow; then no proper prefix of what was written is accepted, for one
field as for a whole record.
-/

namespace Wire

namespace Codec

variable {α β : Type*}

/-- What a decoder has read does not depend on the bytes behind it. -/
def Local (c : Codec α) : Prop :=
  ∀ input more a rest, c.decode input = some (a, rest) →
    c.decode (input ++ more) = some (a, rest ++ more)

/-- A decoder that looks at nothing else does not accept less than what was written. -/
theorem Local.decode_eq_none {c : Codec α} (h : c.Local) {a : α} {input : List UInt8}
    (hstart : input <+: c.encode a) (hne : input ≠ c.encode a) : c.decode input = none := by
  cases hdecode : c.decode input with
  | none => rfl
  | some p =>
      obtain ⟨b, rest⟩ := p
      obtain ⟨more, hmore⟩ := hstart
      have hall : c.decode (c.encode a) = some (b, rest ++ more) := by
        rw [← hmore]
        exact h input more b rest hdecode
      have hencode : c.decode (c.encode a) = some (a, []) := by
        simpa using c.decode_encode a []
      rw [hencode, Option.some.injEq, Prod.mk.injEq] at hall
      have hnil : more = [] := (List.append_eq_nil_iff.1 hall.2.symm).2
      rw [hnil, List.append_nil] at hmore
      exact absurd hmore hne

/-- A decoder that only accepts what the encoder writes is local. -/
theorem local_of_eq_encode {c : Codec α}
    (h : ∀ input a rest, c.decode input = some (a, rest) → input = c.encode a ++ rest) :
    c.Local := by
  intro input more a rest hdecode
  rw [h input a rest hdecode, List.append_assoc, c.decode_encode]

theorem local_word (w : ℕ) (toNat : α → ℕ) (ofNat : ℕ → α) (hlt : ∀ a, toNat a < 256 ^ w)
    (hinv : ∀ a, ofNat (toNat a) = a) : (word w toNat ofNat hlt hinv).Local := by
  intro input more a rest h
  simp only [word] at h ⊢
  split at h
  · cases h
  · rename_i hlength
    have hle : w ≤ input.length := Nat.not_lt.1 hlength
    cases h
    rw [if_neg (by rw [List.length_append]; omega), List.take_append_of_le_length hle,
      List.drop_append_of_le_length hle]

theorem local_bytes (n : ℕ) : (bytes n).Local := by
  intro input more a rest h
  simp only [bytes] at h ⊢
  split at h
  · rename_i hle
    cases h
    have hle' : n ≤ (input ++ more).length := by
      rw [List.length_append]
      omega
    rw [dif_pos hle']
    simp only [List.take_append_of_le_length hle, List.drop_append_of_le_length hle]
  · cases h

/-- Nothing is written for the empty record. -/
def unit : Codec PUnit where
  encode _ := []
  decode input := some (.unit, input)
  decode_encode _ _ := rfl

/-- One value behind the other. -/
def pair (c : Codec α) (d : Codec β) : Codec (α × β) where
  encode p := c.encode p.1 ++ d.encode p.2
  decode input :=
    (c.decode input).bind fun (a, input) => (d.decode input).map fun (b, input) => ((a, b), input)
  decode_encode p rest := by
    simp only [List.append_assoc, decode_encode, Option.bind_some, Option.map_some]

theorem local_unit : unit.Local := by
  rintro input more a rest ⟨⟩
  rfl

theorem local_pair {c : Codec α} {d : Codec β} (hc : c.Local) (hd : d.Local) :
    (c.pair d).Local := by
  intro input more p rest h
  obtain ⟨⟨a, input₁⟩, ha, h⟩ := Option.bind_eq_some_iff.1 h
  obtain ⟨⟨b, input₂⟩, hb, h⟩ := Option.map_eq_some_iff.1 h
  cases h
  simp only [pair, hc input more a input₁ ha, hd input₁ more b rest hb, Option.bind_some,
    Option.map_some]

end Codec

variable {F : Type*} (V : F → Type*)

/-- The values of a record with these fields. -/
def Record : List F → Type _
  | [] => PUnit
  | f :: fs => V f × Record fs

variable {V}

/-- The fields one after the other. -/
def Codec.record (c : (f : F) → Codec (V f)) : (fs : List F) → Codec (Record V fs)
  | [] => Codec.unit
  | f :: fs => (c f).pair (record c fs)

theorem Codec.local_record {c : (f : F) → Codec (V f)} (hc : ∀ f, (c f).Local) (fs : List F) :
    (Codec.record c fs).Local := by
  induction fs with
  | nil => exact local_unit
  | cons f fs ih => exact local_pair (hc f) ih

end Wire
