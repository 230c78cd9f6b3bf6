import NodeKv.Model.Decode

/-! # Digits that are read and printed

`strtol` skips blanks and takes a sign. Texts that begin with a digit are read as their digits
alone, and texts that begin with a minus as the digits behind it. The digits that hexadecimal values
are printed with are ASCII and no NUL, so the printed text is the value's own. A printed number is
not empty either.
-/

namespace NodeKv

namespace DataType

theorem le_of_digit? {base : ℕ} {char : UInt8} {digit : ℕ} (read : digit? base char = some digit) :
    48 ≤ char.toNat := by
  by_contra below
  simp [digit?, show ¬48 ≤ char.toNat by omega, show ¬65 ≤ char.toNat by omega,
    show ¬97 ≤ char.toNat by omega] at read

theorem strtol_digits {base : ℕ} {char : UInt8} {rest : Bytes} (digit : 48 ≤ char.toNat) :
    strtol base (char :: rest) = digits base 0 (char :: rest) := by
  have ne (other : UInt8) (small : other.toNat < 48) : char ≠ other := by
    rintro rfl
    omega
  have solid : ¬(char = 32 || (9 ≤ char && char ≤ 13)) = true := by
    simp only [Bool.or_eq_true, Bool.and_eq_true, decide_eq_true_eq, UInt8.le_iff_toNat_le]
    rintro (space | ⟨-, below⟩)
    · exact ne 32 (by decide) space
    · exact absurd (digit.trans below) (by decide)
  have kept : (char :: rest).dropWhile (fun char => char = 32 || (9 ≤ char && char ≤ 13)) =
      char :: rest := List.dropWhile_cons_of_neg solid
  rw [strtol, kept]
  split
  · next other rest start => exact absurd (List.cons.inj start).1 (ne 45 (by decide))
  · next other rest start => exact absurd (List.cons.inj start).1 (ne 43 (by decide))
  · rfl

theorem strtol_minus (base : ℕ) (rest : Bytes) : strtol base
    (45 :: rest) = -digits base 0 rest := by
  rw [strtol, List.dropWhile_cons_of_neg (by decide)]
  rfl

theorem hexDigits_digit {nibble : UInt8} (small : nibble.toNat < 16) :
    hexDigits.digit nibble < 128 ∧ hexDigits.digit nibble ≠ 0 := by
  rw [UInt8.lt_iff_toNat_lt, ← UInt8.toNat_inj.ne]
  unfold hexDigits.digit
  split_ifs with decimal
  · rw [UInt8.toNat_add]
    exact ⟨by simp; omega, by simp; omega⟩
  · rw [UInt8.toNat_add]
    exact ⟨by simp; omega, by simp; omega⟩

theorem mem_hexDigits {byte digit : UInt8} (member : digit ∈ hexDigits byte) :
    digit < 128 ∧ digit ≠ 0 := by
  have bound : byte.toNat < 256 := byte.toNat_lt
  rcases List.mem_pair.mp member with rfl | rfl
  · exact hexDigits_digit (by rw [UInt8.toNat_div]; simp; omega)
  · exact hexDigits_digit (by rw [UInt8.toNat_mod]; simp; omega)

/-- The text of ASCII bytes is empty only if there are none. -/
theorem newText_ne_empty (runtime : Runtime) {bytes : Bytes} (some : bytes ≠ [])
    (ascii : ∀ byte ∈ bytes, byte < 128) : runtime.newText bytes ≠ "" := by
  intro empty
  rw [← Machine.utf8_ascii ascii, runtime.newText_utf8] at empty
  have none := congrArg (fun text : String => text.toList.length) empty
  simp at none
  exact some none

private theorem toString_int_ne_empty (value : ℤ) : toString value ≠ "" := by
  cases value with
  | ofNat value => exact Nat.repr_ne_empty
  | negSucc value =>
    have printed : toString (Int.negSucc value) = "-" ++ Nat.repr (value + 1) := rfl
    simp [printed]

/-- The printed digits end at the NUL behind them. -/
theorem cString_hexDigits (bytes : Bytes) :
    cString (bytes.flatMap hexDigits ++ [0]) = some (bytes.flatMap hexDigits) := by
  have clean : ∀ digit ∈ bytes.flatMap hexDigits, decide (digit ≠ 0) = true := by
    intro digit member
    obtain ⟨byte, -, printed⟩ := List.mem_flatMap.mp member
    exact decide_eq_true (mem_hexDigits printed).2
  have ended : (0 : UInt8) ∈ bytes.flatMap hexDigits ++ [0] :=
    List.mem_append_right _ (List.mem_singleton_self 0)
  rw [cString, if_pos ended, List.takeWhile_append_of_pos clean]
  simp

/-- The types whose values the script always takes for true. -/
def alwaysTrue : DataType → Bool
  | binary => true
  | hex => true
  | int64 => true
  | _ => false

end DataType

/-- Buffers are objects, and the texts of the other two types are never empty. -/
theorem decoded_ne_empty (runtime : Runtime) {type : DataType} (always : type.alwaysTrue = true)
    {bytes : Bytes} {val : Value} (decoded : type.decoded runtime bytes = some val) :
    (∃ copy, val = .buffer copy) ∨ ∃ text, val = .text text ∧ text ≠ "" := by
  cases type with
  | binary =>
    obtain ⟨copy, -, rfl⟩ := Option.map_eq_some_iff.mp decoded
    exact .inl ⟨copy, rfl⟩
  | hex =>
    obtain ⟨copy, -, printed⟩ := Option.bind_eq_some_iff.mp decoded
    obtain ⟨chars, ended, rfl⟩ := Option.map_eq_some_iff.mp printed
    cases copy with
    | nil => cases ended
    | cons byte rest =>
      rw [DataType.hexBuffer, DataType.cString_hexDigits] at ended
      obtain rfl := Option.some.inj ended
      refine .inr ⟨_, rfl, DataType.newText_ne_empty runtime ?_ ?_⟩
      · simp [DataType.hexDigits]
      · intro digit member
        obtain ⟨byte, -, printed⟩ := List.mem_flatMap.mp member
        exact (DataType.mem_hexDigits printed).1
  | int64 =>
    obtain ⟨copy, -, rfl⟩ := Option.map_eq_some_iff.mp decoded
    refine .inr ⟨_, rfl, ?_⟩
    rw [runtime.newText_utf8]
    exact DataType.toString_int_ne_empty _
  | string => cases always
  | int32 => cases always
  | uint32 => cases always

end NodeKv
