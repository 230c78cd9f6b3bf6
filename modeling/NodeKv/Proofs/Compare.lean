import Mathlib.Algebra.Order.Ring.Int
import Mathlib.Order.Compare
import Mathlib.Tactic.Ring
import NodeKv.Model.Decode

/-! # The comparators tell stored values apart

Values of a number type are compared as the numbers that their bytes spell, all others byte by
byte. Among values of the width of their type, only equal ones compare equal.
-/

namespace NodeKv

namespace DataType

/-- How many bytes the numbers of a type take. -/
def width? : DataType → Option ℕ
  | int32 | uint32 => some 4
  | int64 => some 8
  | _ => none

/-- The bytes have the width of their type, if it has one. -/
def Sized (type : DataType) (bytes : Bytes) : Prop :=
  ∀ width, type.width? = some width → bytes.length = width

theorem fromLittleEndian_cons (byte : UInt8) (rest : Bytes) :
    fromLittleEndian (byte :: rest) = byte.toNat + 256 * fromLittleEndian rest := rfl

private theorem fromLittleEndian_lt (bytes : Bytes) :
    fromLittleEndian bytes < 256 ^ bytes.length := by
  induction bytes with
  | nil => exact Nat.one_pos
  | cons byte rest ih =>
    have small : byte.toNat < 256 := byte.toNat_lt
    rw [fromLittleEndian_cons, List.length_cons, pow_succ]
    omega

theorem fromLittleEndian_inj {left right : Bytes} (lengths : left.length = right.length)
    (same : fromLittleEndian left = fromLittleEndian right) : left = right := by
  induction left generalizing right with
  | nil => exact (List.eq_nil_of_length_eq_zero lengths.symm).symm
  | cons byte rest ih =>
    cases right with
    | nil => exact nomatch lengths
    | cons byte' rest' =>
      rw [fromLittleEndian_cons, fromLittleEndian_cons] at same
      have small : byte.toNat < 256 := byte.toNat_lt
      have small' : byte'.toNat < 256 := byte'.toNat_lt
      have heads : byte.toNat = byte'.toNat := by omega
      have tails : fromLittleEndian rest = fromLittleEndian rest' := by omega
      rw [UInt8.toNat_inj.mp heads, ih (Nat.succ.inj lengths) tails]

private theorem bmod_inj {left right modulus : ℕ} (below : left < modulus)
    (below' : right < modulus)
    (same : Int.bmod left modulus = Int.bmod right modulus) : left = right := by
  have residues : (left : ℤ) % modulus = right % modulus := by
    rw [← Int.bmod_emod, same, Int.bmod_emod]
  rw [Int.emod_eq_of_lt (by omega) (by omega), Int.emod_eq_of_lt (by omega) (by omega)] at residues
  omega

/-- Bytes of one width that spell the same signed number. -/
theorem eq_of_signed {width : ℕ} {left right : Bytes} (length : left.length = width)
    (length' : right.length = width)
    (same : Int.bmod (fromLittleEndian left) (256 ^ width) =
      Int.bmod (fromLittleEndian right) (256 ^ width)) : left = right := by
  have below := fromLittleEndian_lt left
  have below' := fromLittleEndian_lt right
  rw [length] at below
  rw [length'] at below'
  exact fromLittleEndian_inj (length.trans length'.symm) (bmod_inj below below' same)

theorem compare_self (type : DataType) (bytes : Bytes) : type.compare bytes bytes = .eq := by
  cases type <;> exact Std.compare_self

theorem compare_swap (type : DataType) (left right : Bytes) :
    type.compare left right = (type.compare right left).swap := by
  cases type <;> exact Std.OrientedOrd.eq_swap

instance (type : DataType) : Std.TransCmp type.compare where
  eq_swap := type.compare_swap _ _
  isLE_trans := by
    intro left middle right
    cases type <;> exact Std.TransOrd.isLE_trans

/-- Values of their type's width compare equal only if they are equal. -/
theorem eq_of_compare {type : DataType} {left right : Bytes} (sized : type.Sized left)
    (sized' : type.Sized right) (same : type.compare left right = .eq) : left = right := by
  cases type with
  | binary => exact Std.LawfulEqOrd.eq_of_compare same
  | string => exact Std.LawfulEqOrd.eq_of_compare same
  | hex => exact Std.LawfulEqOrd.eq_of_compare same
  | int32 => exact eq_of_signed (sized 4 rfl) (sized' 4 rfl) (Std.LawfulEqOrd.eq_of_compare same)
  | uint32 =>
    exact fromLittleEndian_inj ((sized 4 rfl).trans (sized' 4 rfl).symm)
      (Std.LawfulEqOrd.eq_of_compare same)
  | int64 => exact eq_of_signed (sized 8 rfl) (sized' 8 rfl) (Std.LawfulEqOrd.eq_of_compare same)

end DataType

/-- What a constructor stores has the width of the type. -/
theorem Datum.sized {v8 : V8} {type : DataType} (datum : Datum v8 type) :
    type.Sized datum.bytes := by
  have encoded := datum.encode_value
  generalize datum.bytes = bytes at encoded ⊢
  intro width wide
  cases type with
  | binary => exact nomatch wide
  | string => exact nomatch wide
  | hex => exact nomatch wide
  | int32 =>
    obtain rfl := Option.some.inj encoded
    exact (DataType.length_littleEndian 4 _).trans (Option.some.inj wide)
  | uint32 =>
    obtain rfl := Option.some.inj encoded
    exact (DataType.length_littleEndian 4 _).trans (Option.some.inj wide)
  | int64 =>
    obtain rfl := Option.some.inj encoded
    exact (DataType.length_littleEndian 8 _).trans (Option.some.inj wide)

end NodeKv
