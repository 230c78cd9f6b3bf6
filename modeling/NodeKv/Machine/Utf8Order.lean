import NodeKv.Machine.Lexicographic
import NodeKv.Machine.Utf8

/-! # The order of UTF-8

The bytes of texts are in the order of their code points. Among characters that take the same number
of bytes this is the order of digits to the base of 64; else the first bytes decide, since those of
longer characters are larger.
-/

namespace NodeKv.Machine

/-- The code points of a text. -/
def codePoints (text : String) : List ℕ := text.toList.map Char.toNat

theorem codePoints_injective : Function.Injective codePoints := by
  intro left right same
  apply String.toList_injective
  exact List.map_injective_iff.mpr (fun _ _ => Char.toNat_inj.mp) same

theorem compare_ofNat {left right : ℕ} (small : left < 256) (small' : right < 256) :
    compare (UInt8.ofNat left) (UInt8.ofNat right) = compare left right := by
  rw [UInt8.compare_eq_toNat_compare_toNat, UInt8.toNat_ofNat', UInt8.toNat_ofNat',
    Nat.mod_eq_of_lt small, Nat.mod_eq_of_lt small']

theorem toNat_lt (char : Char) : char.val.toNat < 1114112 := by
  rcases char.valid with low | ⟨-, high⟩
  · exact Nat.lt_trans low (by decide)
  · exact high

theorem utf8EncodeChar_less (left right : Char) (less : compare left.toNat right.toNat = .lt)
    (rest rest' : List UInt8) :
    compare (String.utf8EncodeChar left ++ rest) (String.utf8EncodeChar right ++ rest') = .lt := by
  have below : left.val.toNat < right.val.toNat := Nat.compare_eq_lt.mp less
  have valid := toNat_lt right
  unfold String.utf8EncodeChar
  generalize left.val.toNat = code at below
  generalize right.val.toNat = code' at below valid
  -- digit by digit, so that a smaller code has a smaller digit behind equal ones
  have second (code : ℕ) : code / 4096 = code / 64 / 64 := by
    rw [Nat.div_div_eq_div_mul]
  have third (code : ℕ) : code / 262144 = code / 64 / 64 / 64 := by
    rw [Nat.div_div_eq_div_mul, Nat.div_div_eq_div_mul]
  simp only [second, third]
  split_ifs
  all_goals
    simp (disch := omega) only [List.cons_append, List.nil_append, List.compare_cons_cons,
      Ordering.then_eq_lt, compare_ofNat, Nat.compare_eq_lt, Nat.compare_eq_eq]
    omega

theorem utf8_orderedCode : OrderedCode String.utf8EncodeChar Char.toNat where
  ne_nil := fun _ => String.utf8EncodeChar_ne_nil
  rank_inj := fun _ _ => Char.toNat_inj.mp
  less := utf8EncodeChar_less

/-- Texts are encoded in the order of their code points. -/
theorem compare_utf8 (left right : String) :
    compare left.toUTF8.toList right.toUTF8.toList = compareOn codePoints left right := by
  rw [utf8_toList, utf8_toList]
  exact utf8_orderedCode.compare_flatMap left.toList right.toList

end NodeKv.Machine
