import Mathlib.Algebra.Group.Int.Defs
import Mathlib.Algebra.GroupWithZero.Nat
import Mathlib.Data.List.Lex
import Mathlib.Order.RelClasses
import Sdskv.Container.OrderedMap

/-!
# Byte strings, orders and return values

A `ds_bulk_t` is a `std::vector<char>`, here a list of bytes. The default order
`std::less<ds_bulk_t>` is lexicographic and compares the elements as `char`,
which is signed; it is `vectorLess`. A user comparison function is an `int`
valued function on two byte strings, and its order is `comparatorLess`.

A pointer to a buffer is the list of bytes readable from it on.
-/

namespace Sdskv

/-- `ds_bulk_t`. -/
abbrev Bulk := List UInt8

/-- The bytes readable from a pointer on. -/
abbrev Pointer := Bulk

/-- The byte string `ds_bulk_t(p, p + n)`. -/
def bulkOfPointer (p : Pointer) (n : ℕ) : Bulk := p.take n

/-- `comparator_fn`: negative, zero or positive, as for `memcmp`. -/
abbrev ComparatorFn := Bulk → Bulk → Int

/-- A byte read as a `char`, which is signed. -/
def signedChar (b : UInt8) : Int := b.toInt8.toInt

theorem signedChar_injective : Function.Injective signedChar := by
  intro a b h
  have h8 : a.toInt8 = b.toInt8 := Int8.toInt_inj.1 h
  exact congrArg Int8.toUInt8 h8

/-- The order of `char`. -/
def charLess (a b : UInt8) : Prop := signedChar a < signedChar b

instance : DecidableRel charLess := fun a b =>
  inferInstanceAs (Decidable (signedChar a < signedChar b))

instance : IsStrictTotalOrder UInt8 charLess :=
  signedChar_injective.isStrictTotalOrder_onFun (· < ·)

/-- `std::less<ds_bulk_t>`, the default order of `MapDataStore`. -/
def vectorLess : Bulk → Bulk → Prop := List.Lex charLess

instance : DecidableRel vectorLess :=
  inferInstanceAs (DecidableRel (List.Lex charLess))

theorem isStrictTotalOrder_lex {α : Type*} (lt : α → α → Prop) [IsStrictTotalOrder α lt] :
    IsStrictTotalOrder (List α) (List.Lex lt) where
  toTrichotomous := inferInstanceAs (Std.Trichotomous (List.Lex lt))
  toIsStrictOrder :=
    (isStrictWeakOrder_of_isOrderConnected :
      IsStrictWeakOrder (List α) (List.Lex lt)).toIsStrictOrder

instance : IsStrictTotalOrder Bulk vectorLess := isStrictTotalOrder_lex charLess

instance : IsStrictWeakOrder Bulk vectorLess :=
  OrderedMap.isStrictWeakOrder_of_isStrictTotalOrder vectorLess

/-- The order of `unsigned char`. -/
def unsignedCharLess (a b : UInt8) : Prop := a.toNat < b.toNat

instance : DecidableRel unsignedCharLess := fun a b =>
  inferInstanceAs (Decidable (a.toNat < b.toNat))

instance : IsStrictTotalOrder UInt8 unsignedCharLess := by
  have hinj : Function.Injective UInt8.toNat := fun a b => UInt8.toNat_inj.1
  exact hinj.isStrictTotalOrder_onFun (· < ·)

/-- `std::less<std::string>`, which compares the elements as `unsigned char`. -/
def stringLess : Bulk → Bulk → Prop := List.Lex unsignedCharLess

instance : DecidableRel stringLess :=
  inferInstanceAs (DecidableRel (List.Lex unsignedCharLess))

instance : IsStrictTotalOrder Bulk stringLess := isStrictTotalOrder_lex unsignedCharLess

instance : IsStrictWeakOrder Bulk stringLess :=
  OrderedMap.isStrictWeakOrder_of_isStrictTotalOrder stringLess

/-- `std::less<sdskv_database_id_t>`. -/
def idLess (a b : UInt64) : Prop := a.toNat < b.toNat

instance : DecidableRel idLess := fun a b =>
  inferInstanceAs (Decidable (a.toNat < b.toNat))

instance : IsStrictTotalOrder UInt64 idLess := by
  have hinj : Function.Injective UInt64.toNat := fun a b => UInt64.toNat_inj.1
  exact hinj.isStrictTotalOrder_onFun (· < ·)

instance : IsStrictWeakOrder UInt64 idLess :=
  OrderedMap.isStrictWeakOrder_of_isStrictTotalOrder idLess

/-- The order of byte strings that a comparison function induces. -/
def comparatorLess (less : ComparatorFn) (a b : Bulk) : Prop := less a b < 0

instance (less : ComparatorFn) : DecidableRel (comparatorLess less) := fun a b =>
  inferInstanceAs (Decidable (less a b < 0))

/-- `sdskv_return_t`, in the order of `SDSKV_RETURN_VALUES`. -/
inductive SdskvReturn
  | success
  | errAllocation
  | errInvalidArg
  | errPrExists
  | errDbCreate
  | errDbName
  | errUnknownDb
  | errUnknownPr
  | errPut
  | errUnknownKey
  | errSize
  | errErase
  | errMigration
  | opNotImpl
  | errCompFunc
  | errRemi
  | errKeyexists
  | errConfig
  | errMax
  deriving DecidableEq, Repr

/-- The `int32_t` that carries a return value. -/
def SdskvReturn.code (r : SdskvReturn) : Int := r.ctorIdx

@[simp] theorem SdskvReturn.code_inj {r r' : SdskvReturn} : r.code = r'.code ↔ r = r' := by
  constructor
  · intro h
    have hidx : r.ctorIdx = r'.ctorIdx := Int.ofNat_inj.1 h
    rw [← SdskvReturn.ofNat_ctorIdx r, hidx, SdskvReturn.ofNat_ctorIdx]
  · rintro rfl
    rfl

theorem SdskvReturn.code_success : SdskvReturn.success.code = 0 := rfl

/-- `SDSKV_MAKE_HG_ERROR`: a Mercury error sits in the most significant byte. -/
def makeHgError (hret : ℕ) : Int := hret * 2 ^ 24

/-- `HG_SUCCESS`. -/
def hgSuccess : ℕ := 0

/-- The first answer of a sequence of Margo calls that is not `HG_SUCCESS`. -/
def firstFailure (hrets : List ℕ) : Option ℕ := hrets.find? fun hret => hret ≠ hgSuccess

theorem makeHgError_ne_success {hret : ℕ} (h : hret ≠ hgSuccess) :
    makeHgError hret ≠ SdskvReturn.success.code := by
  rw [SdskvReturn.code_success, makeHgError]
  unfold hgSuccess at h
  omega

theorem makeHgError_firstFailure_ne_success {hrets : List ℕ} {hret : ℕ}
    (h : firstFailure hrets = some hret) : makeHgError hret ≠ SdskvReturn.success.code :=
  makeHgError_ne_success (by simpa using List.find?_some h)

/-- `SDSKV_KEEP_ORIGINAL`. -/
def sdskvKeepOriginal : Int := 0

/-- `SDSKV_REMOVE_ORIGINAL`. -/
def sdskvRemoveOriginal : Int := 1

end Sdskv
