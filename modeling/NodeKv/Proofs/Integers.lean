import NodeKv.Machine.Decimal
import NodeKv.Proofs.Compare
import NodeKv.Proofs.Decode

/-! # Integers as text and as bytes

`atoll` reads the integer that a decimal text denotes, as long as 64 bits hold it. A stored number
keeps its residue modulo the size of its type, and a number within the range of the type is all of
its residue.
-/

namespace NodeKv.DataType

open Machine

section Texts

private theorem toNat_of_isDigit {char : Char} (digit : char.isDigit = true) :
    48 ≤ char.toNat ∧ char.toNat ≤ 57 := by
  simp only [Char.isDigit, Bool.and_eq_true, decide_eq_true_eq, ge_iff_le,
    UInt32.le_iff_toNat_le] at digit
  exact digit

private theorem toNat_asciiByte {char : Char} (ascii : char.toNat < 128) :
    (asciiByte char).toNat = char.toNat := by
  rw [asciiByte, UInt8.toNat_ofNat']
  omega

private theorem digit?_asciiByte {char : Char} (digit : char.isDigit = true) :
    digit? 10 (asciiByte char) = some (char.toNat - 48) := by
  obtain ⟨low, high⟩ := toNat_of_isDigit digit
  have same : (asciiByte char).toNat = char.toNat := toNat_asciiByte (by omega)
  have small : char.toNat - 48 < 10 := by omega
  simp only [digit?, same, low, high, and_self, if_true, small]

private theorem digits_eq_ofDigitChars {chars : List Char}
    (spelled : ∀ char ∈ chars, char.isDigit = true)
    (start : ℕ) : digits 10 start (chars.map asciiByte) = Nat.ofDigitChars 10 chars start := by
  induction chars generalizing start with
  | nil => rfl
  | cons char rest ih =>
    rw [List.map_cons, digits, digit?_asciiByte (spelled char (List.mem_cons_self ..)),
      Nat.ofDigitChars_cons, Nat.mul_comm 10 start]
    exact ih (fun other member => spelled other (List.mem_cons_of_mem _ member)) _

/-- The texts of the pattern are digits, or a minus and digits. -/
theorem isDecimal_cases {chars : List Char} (decimal : isDecimal chars = true) :
    ∃ first rest, (∀ char ∈ first :: rest, char.isDigit = true) ∧
      (chars = first :: rest ∨ chars = '-' :: first :: rest) := by
  unfold isDecimal at decimal
  simp only [Bool.and_eq_true, Bool.not_eq_true', List.isEmpty_eq_false_iff, List.all_eq_true]
    at decimal
  split_ifs at decimal with minus
  · obtain ⟨some, spelled⟩ := decimal
    obtain ⟨first, rest, split⟩ := List.exists_cons_of_ne_nil some
    refine ⟨first, rest, split ▸ spelled, .inr ?_⟩
    rw [← List.cons_head?_tail minus, split]
  · obtain ⟨some, spelled⟩ := decimal
    obtain ⟨first, rest, rfl⟩ := List.exists_cons_of_ne_nil some
    exact ⟨first, rest, spelled, .inl rfl⟩

theorem isDecimal_of_canonical {chars : List Char} (canonical : Decimal.Canonical chars) :
    isDecimal chars = true := by
  cases canonical with
  | zero => decide
  | positive leading digits =>
    rename_i first rest
    have unsigned : first ≠ '-' := by
      rintro rfl
      exact absurd (digits '-' (List.mem_cons_self ..)) (by decide)
    simpa [isDecimal, unsigned] using digits
  | negative leading digits => simpa [isDecimal] using digits

theorem isDecimal_toString (number : ℤ) : isDecimal (toString number).toList = true :=
  isDecimal_of_canonical (Decimal.canonical_toString number)

section Decimal

variable {text : String} (decimal : isDecimal text.toList = true)

include decimal

theorem utf8_decimal : text.toUTF8.toList = text.toList.map asciiByte := by
  apply utf8_eq_map_asciiByte
  obtain ⟨first, rest, spelled, digits | signed⟩ := isDecimal_cases decimal
  · intro char member
    obtain ⟨-, high⟩ := toNat_of_isDigit (spelled char (digits ▸ member))
    omega
  · intro char member
    rcases List.mem_cons.mp (signed ▸ member) with rfl | digit
    · decide
    · obtain ⟨-, high⟩ := toNat_of_isDigit (spelled char digit)
      omega

/-- `strtol` reads the integer that the text denotes. -/
theorem strtol_decimal : strtol 10 text.toUTF8.toList = Decimal.value text.toList := by
  rw [utf8_decimal decimal]
  obtain ⟨first, rest, spelled, digits | signed⟩ := isDecimal_cases decimal
  · obtain ⟨low, high⟩ := toNat_of_isDigit (spelled first (List.mem_cons_self ..))
    have ascii : (asciiByte first).toNat = first.toNat := toNat_asciiByte (by omega)
    have unsigned : text.toList.head? ≠ some '-' := by
      rw [digits, List.head?_cons]
      rintro ⟨⟩
      exact absurd low (by decide)
    rw [Decimal.value_digits unsigned, digits, List.map_cons, strtol_digits (by omega),
      ← List.map_cons, digits_eq_ofDigitChars spelled, Decimal.magnitude]
  · rw [signed, Decimal.value_minus, List.map_cons, show asciiByte '-' = 45 from rfl, strtol_minus,
      digits_eq_ofDigitChars spelled, Decimal.magnitude]

end Decimal

end Texts

section Bytes

private theorem littleEndian_succ (width : ℕ) (value : ℤ) : littleEndian (width + 1) value =
    UInt8.ofNat (value % 256).toNat :: littleEndian width (value / 256) := by
  rw [littleEndian, List.range_succ_eq_map, List.map_cons, List.map_map, littleEndian, pow_zero,
    Int.ediv_one]
  congr 1
  apply List.map_congr_left
  intro index _
  rw [Function.comp_apply, pow_succ', Int.ediv_ediv_of_nonneg (by decide)]

/-- Residues digit by digit. -/
theorem emod_mul_eq {base modulus : ℤ} (base_pos : 0 < base) (modulus_pos : 0 < modulus)
    (value : ℤ) : value % (base * modulus) = value % base + base * (value / base % modulus) := by
  have low := Int.emod_nonneg value base_pos.ne'
  have low' := Int.emod_lt_of_pos value base_pos
  have high := Int.emod_nonneg (value / base) modulus_pos.ne'
  have high' := Int.emod_lt_of_pos (value / base) modulus_pos
  have split : value = value % base + base * (value / base % modulus) +
      base * modulus * (value / base / modulus) := by
    rw [add_assoc, mul_assoc, ← mul_add, Int.emod_add_mul_ediv, Int.emod_add_mul_ediv]
  have below : base * (value / base % modulus) ≤ base * (modulus - 1) :=
    mul_le_mul_of_nonneg_left (by omega) base_pos.le
  have nonneg : 0 ≤ base * (value / base % modulus) := mul_nonneg base_pos.le high
  rw [mul_sub, mul_one] at below
  calc
    value % (base * modulus) =
        (value % base + base * (value / base % modulus) +
          base * modulus * (value / base / modulus)) % (base * modulus) := by rw [← split]
    _ = (value % base + base * (value / base % modulus)) % (base * modulus) :=
      Int.add_mul_emod_self_left ..
    _ = _ := Int.emod_eq_of_lt (by omega) (by omega)

/-- The bytes of an integer spell its residue. -/
theorem fromLittleEndian_littleEndian (width : ℕ) (value : ℤ) :
    (fromLittleEndian (littleEndian width value) : ℤ) = value % 256 ^ width := by
  induction width generalizing value with
  | zero => rw [pow_zero, Int.emod_one]; rfl
  | succ width ih =>
    have low : 0 ≤ value % 256 := Int.emod_nonneg _ (by decide)
    have high : value % 256 < 256 := Int.emod_lt_of_pos _ (by decide)
    have byte : ((UInt8.ofNat (value % 256).toNat).toNat : ℤ) = value % 256 := by
      rw [UInt8.toNat_ofNat']
      omega
    rw [littleEndian_succ, fromLittleEndian_cons, Nat.cast_add, Nat.cast_mul, byte, ih, pow_succ',
      emod_mul_eq (by decide) (by positivity)]
    rfl

theorem littleEndian_eq_iff {width : ℕ} {left right : ℤ} :
    littleEndian width left = littleEndian width right ↔ left % 256 ^ width = right % 256 ^ width := by
  rw [← fromLittleEndian_littleEndian, ← fromLittleEndian_littleEndian, Nat.cast_inj]
  constructor
  · intro same
    rw [same]
  · intro same
    exact fromLittleEndian_inj (by rw [length_littleEndian, length_littleEndian]) same

/-- Read with a sign, the bytes of an integer give the integer itself if the width holds it. -/
theorem signed_littleEndian_iff {width : ℕ} (some : 0 < width) (value : ℤ) :
    Int.bmod (fromLittleEndian (littleEndian width value)) (256 ^ width) = value ↔
      -(256 ^ width / 2) ≤ value ∧ value < 256 ^ width / 2 := by
  have even : (256 ^ width : ℤ) % 2 = 0 := by
    obtain ⟨rest, rfl⟩ := Nat.exists_eq_succ_of_ne_zero some.ne'
    rw [Nat.succ_eq_add_one, pow_succ']
    omega
  have divides : (256 ^ width : ℤ) ∣ value - fromLittleEndian (littleEndian width value) := by
    rw [fromLittleEndian_littleEndian]
    exact Int.dvd_self_sub_emod
  have cast : ((256 ^ width : ℕ) : ℤ) = 256 ^ width := by push_cast; rfl
  rw [Int.bmod_eq_iff (by positivity), cast]
  constructor
  · rintro ⟨low, high, -⟩
    exact ⟨low, by omega⟩
  · rintro ⟨low, high⟩
    exact ⟨low, by omega, divides⟩

theorem unsigned_littleEndian_iff (width : ℕ) (value : ℤ) :
    (fromLittleEndian (littleEndian width value) : ℤ) = value ↔ 0 ≤ value ∧ value < 256 ^ width := by
  rw [fromLittleEndian_littleEndian]
  constructor
  · intro kept
    rw [← kept]
    exact ⟨Int.emod_nonneg _ (by positivity), Int.emod_lt_of_pos _ (by positivity)⟩
  · rintro ⟨low, high⟩
    exact Int.emod_eq_of_lt low high

end Bytes

end NodeKv.DataType
