import Mathlib

/-! # Decimal texts

Digits with an optional minus in front denote an integer. Every integer is printed as a text that
denotes it, without leading zeros and without a minus in front of zero.
-/

namespace NodeKv.Machine.Decimal

/-- The number that digits spell. -/
def magnitude (digits : List Char) : ℕ := Nat.ofDigitChars 10 digits 0

/-- The integer that a text denotes. -/
def value : List Char → ℤ
  | '-' :: digits => -magnitude digits
  | digits => magnitude digits

@[simp] theorem value_minus (digits : List Char) : value ('-' :: digits) = -magnitude digits := rfl

theorem value_digits {chars : List Char} (unsigned : chars.head? ≠ some '-') :
    value chars = magnitude chars := by
  unfold value
  split
  · exact absurd rfl unsigned
  · rfl

/-- The spellings without needless characters. -/
inductive Canonical : List Char → Prop where
  | zero : Canonical ['0']
  | positive {first : Char} {rest : List Char} (leading : first ≠ '0')
      (digits : ∀ char ∈ first :: rest, char.isDigit = true) : Canonical (first :: rest)
  | negative {first : Char} {rest : List Char} (leading : first ≠ '0')
      (digits : ∀ char ∈ first :: rest, char.isDigit = true) : Canonical ('-' :: first :: rest)

section Printed

theorem isDigit_toDigits {number : ℕ} {char : Char} (member : char ∈ Nat.toDigits 10 number) :
    char.isDigit = true := Nat.isDigit_of_mem_toDigits (by decide) (by decide) member

theorem toDigits_head {number : ℕ} (positive : 0 < number) :
    ∃ first rest, Nat.toDigits 10 number = first :: rest ∧ first ≠ '0' := by
  induction number using Nat.strongRecOn with
  | ind number ih =>
    rw [Nat.toDigits_eq_if (by decide)]
    split
    · exact ⟨_, [], rfl, fun zero => by rw [Nat.digitChar_eq_zero] at zero; omega⟩
    · next large =>
      obtain ⟨first, rest, split, leading⟩ := ih (number / 10) (by omega) (by omega)
      exact ⟨first, rest ++ _, by rw [split]; rfl, leading⟩

theorem toList_toString_of_nonneg {number : ℤ} (nonneg : 0 ≤ number) :
    (toString number).toList = Nat.toDigits 10 number.toNat := by
  rw [Int.toString_eq_repr, Int.repr_eq_if, if_pos nonneg, Nat.toList_repr]

theorem toList_toString_of_neg {number : ℤ} (negative : number < 0) :
    (toString number).toList = '-' :: Nat.toDigits 10 (-number).toNat := by
  rw [Int.toString_eq_repr, Int.repr_eq_if, if_neg (by omega), String.toList_append,
    Nat.toList_repr]
  rfl

theorem toDigits_unsigned (number : ℕ) : (Nat.toDigits 10 number).head? ≠ some '-' := by
  intro signed
  exact absurd (isDigit_toDigits (List.mem_of_head? signed)) (by decide)

/-- A printed integer denotes itself. -/
theorem value_toString (number : ℤ) : value (toString number).toList = number := by
  rcases Int.lt_or_le number 0 with negative | nonneg
  · rw [toList_toString_of_neg negative, value_minus, magnitude, Nat.ofDigitChars_ten_toDigits]
    omega
  · rw [toList_toString_of_nonneg nonneg, value_digits (toDigits_unsigned _), magnitude,
      Nat.ofDigitChars_ten_toDigits]
    omega

theorem toString_injective : Function.Injective fun number : ℤ => toString number := by
  intro left right same
  have read := congrArg (fun text : String => value text.toList) same
  simpa only [value_toString] using read

theorem canonical_toString (number : ℤ) : Canonical (toString number).toList := by
  rcases Int.lt_or_le number 0 with negative | nonneg
  · have positive : 0 < (-number).toNat := by omega
    obtain ⟨first, rest, split, leading⟩ := toDigits_head positive
    rw [toList_toString_of_neg negative, split]
    exact .negative leading fun char member => isDigit_toDigits (split ▸ member)
  · rw [toList_toString_of_nonneg nonneg]
    rcases Nat.eq_zero_or_pos number.toNat with zero | positive
    · rw [zero, Nat.toDigits_zero]
      exact .zero
    · obtain ⟨first, rest, split, leading⟩ := toDigits_head positive
      rw [split]
      exact .positive leading fun char member => isDigit_toDigits (split ▸ member)

/-- The length of a printed integer, from a bound of the integer. -/
theorem length_toString_le {number : ℤ} {count : ℕ} (some : 0 < count)
    (bound : number.natAbs < 10 ^ count) : (toString number).toList.length ≤ count + 1 := by
  rcases Int.lt_or_le number 0 with negative | nonneg
  · have digits : (Nat.toDigits 10 (-number).toNat).length ≤ count :=
      (Nat.length_toDigits_le_iff (by decide) some).mpr (by omega)
    rw [toList_toString_of_neg negative, List.length_cons]
    omega
  · have digits : (Nat.toDigits 10 number.toNat).length ≤ count :=
      (Nat.length_toDigits_le_iff (by decide) some).mpr (by omega)
    rw [toList_toString_of_nonneg nonneg]
    omega

end Printed

end NodeKv.Machine.Decimal
