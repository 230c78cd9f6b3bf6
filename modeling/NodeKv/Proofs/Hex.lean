import Mathlib.Data.List.GetD
import Mathlib.Tactic.IntervalCases
import NodeKv.Model.Hex
import NodeKv.Proofs.Decode

/-! # The loops of hexadecimal values

In their blocks the two loops compute `hexBytes` and the text of `hexBuffer`, whichever block is
chosen and whatever was in it. On digits the two functions undo each other, up to the case of
letters and a missing last digit.
-/

namespace NodeKv.Hex

open Machine DataType

section Print

variable (dest : Block)

private theorem sprintf_bytes (cur : ℕ) (byte : UInt8) :
    (sprintf cur byte dest).bytes (cur + 2) = dest.bytes cur ++ hexDigits byte ∧
      (sprintf cur byte dest).cells (cur + 2) = 0 := by
  have filled : (sprintf cur byte dest).bytes (cur + 2 + 1) =
      dest.bytes cur ++ (hexDigits byte ++ [0]) := Block.bytes_fill
  rw [Block.bytes_succ, ← List.append_assoc] at filled
  obtain ⟨digits, ended⟩ := List.append_inj' filled rfl
  exact ⟨digits, List.singleton_inj.mp ended⟩

/-- The digits of all bytes, and the NUL behind them. -/
theorem printAll_bytes (cur : ℕ) (byte : UInt8) (rest : Bytes) :
    (printAll cur (byte :: rest) dest).bytes (cur + 2 * (rest.length + 1) + 1) =
      dest.bytes cur ++ (byte :: rest).flatMap hexDigits ++ [0] := by
  induction rest generalizing cur byte dest with
  | nil =>
    obtain ⟨digits, ended⟩ := sprintf_bytes dest cur byte
    rw [printAll, printAll, List.length_nil, Block.bytes_succ, digits, ended]
    simp
  | cons next rest ih =>
    obtain ⟨digits, -⟩ := sprintf_bytes dest cur byte
    have later := ih (sprintf cur byte dest) (cur + 2) next
    rw [digits] at later
    rw [printAll, List.length_cons, List.flatMap_cons, ← List.append_assoc, ← later]
    congr 1
    omega

theorem mem_touched_printAll {index : ℕ} (cur : ℕ) (byte : UInt8) (rest : Bytes) :
    index ∈ (printAll cur (byte :: rest) dest).touched ↔
      index ∈ dest.touched ∨ cur ≤ index ∧ index ≤ cur + 2 * (rest.length + 1) := by
  have three : ∀ byte, (hexDigits byte ++ [0]).length = 3 := fun _ => rfl
  induction rest generalizing cur byte dest with
  | nil =>
    rw [printAll, printAll, sprintf, Block.mem_touched_fill, three, List.length_nil]
    constructor
    · rintro (touched | within)
      · exact .inl touched
      · exact .inr (by omega)
    · rintro (touched | within)
      · exact .inl touched
      · exact .inr (by omega)
  | cons next rest ih =>
    refine (ih (sprintf cur byte dest) (cur + 2) next).trans ?_
    rw [sprintf, Block.mem_touched_fill, three, List.length_cons]
    constructor
    · rintro ((touched | within) | within)
      · exact .inl touched
      · exact .inr (by omega)
      · exact .inr (by omega)
    · rintro (touched | within)
      · exact .inl (.inl touched)
      · by_cases first : index < cur + 2
        · exact .inl (.inr (by omega))
        · exact .inr (by omega)

@[simp] theorem capacity_printAll (cur : ℕ) (bytes : Bytes) :
    (printAll cur bytes dest).capacity = dest.capacity := by
  induction bytes generalizing cur dest with
  | nil => rfl
  | cons byte rest ih => exact (ih _ _).trans Block.capacity_fill

/-- What `v8value` makes a text of, wherever it has printed it. -/
theorem print_bytes {bytes : Bytes} (some : bytes ≠ []) (memory : ℕ → UInt8) :
    (print bytes memory).bytes (2 * bytes.length + 1) = bytes.flatMap hexDigits ++ [0] := by
  cases bytes with
  | nil => exact absurd rfl some
  | cons byte rest =>
    have printed := printAll_bytes (textDest (byte :: rest).length memory) 0 byte rest
    rwa [Nat.zero_add] at printed

theorem v8value_eq (runtime : Runtime) {bytes : Bytes} (some : bytes ≠ []) (memory : ℕ → UInt8)
    {readable : ℕ} (enough : 2 * bytes.length < readable) :
    v8value runtime bytes memory readable =
      Option.some (.text (runtime.newText (bytes.flatMap hexDigits))) := by
  obtain ⟨more, rfl⟩ := Nat.exists_eq_add_of_le enough
  have ended : (0 : UInt8) ∈ bytes.flatMap hexDigits ++ [0] :=
    List.mem_append_right _ (List.mem_singleton_self 0)
  have whole := cString_append ended []
  rw [List.append_nil, cString_hexDigits] at whole
  rw [v8value, Block.bytes_add, print_bytes some, cString_append ended, ← whole, Option.map_some]

theorem decoded_eq (runtime : Runtime) {bytes : Bytes} (some : bytes ≠ []) :
    DataType.hex.decoded runtime bytes =
      Option.some (.text (runtime.newText (bytes.flatMap hexDigits))) := by
  cases bytes with
  | nil => exact absurd rfl some
  | cons byte rest =>
    simp only [decoded, decode, window, le_refl, if_true, List.take_length, Option.bind_some,
      hexBuffer]
    rw [cString_hexDigits, Option.map_some]

theorem touched_textDest (size : ℕ) (memory : ℕ → UInt8) : (textDest size memory).touched = [] := by
  unfold textDest
  split_ifs <;> rfl

end Print

section Pack

private theorem littleEndian_one (value : ℤ) : littleEndian 1 value = [toChar value] := by
  simp [littleEndian, toChar]

/-- A pass of the loop makes the next byte of the value. -/
theorem hexBytes_drop {chars : Bytes} {cnt : ℕ} (more : 2 * cnt < chars.length) :
    hexBytes (chars.drop (2 * cnt)) =
      toChar (strtol 16 [chars.getD (2 * cnt) 0,
        if chars.getD (2 * cnt + 1) 0 = 0 then 48 else chars.getD (2 * cnt + 1) 0]) ::
        hexBytes (chars.drop (2 * (cnt + 1))) := by
  rw [List.drop_eq_getElem_cons more, List.getD_eq_getElem _ _ more]
  by_cases pair : 2 * cnt + 1 < chars.length
  · rw [List.drop_eq_getElem_cons pair, List.getD_eq_getElem _ _ pair, hexBytes, littleEndian_one]
    rfl
  · rw [List.drop_of_length_le (by omega), List.getD_eq_default _ _ (by omega),
      List.drop_of_length_le (by omega)]
    exact littleEndian_one _

/-- What the loop leaves when it has made the bytes from one index up to another. -/
structure Packed (chars : Bytes) (first last : ℕ) (utf8 dest : Block) (after : Block × Block) :
    Prop where
  cells : after.1.cells = utf8.cells
  capacity : after.1.capacity = utf8.capacity
  destCapacity : after.2.capacity = dest.capacity
  bytes : after.2.bytes last = dest.bytes first ++ hexBytes (chars.drop (2 * first))
  read : ∀ index ∈ after.1.touched, index ∈ utf8.touched ∨ index ≤ chars.length
  written : ∀ index ∈ after.2.touched, index ∈ dest.touched ∨ index < last

private theorem pack_eq (cnt : ℕ) (utf8 dest : Block) :
    ∃ again : List ℕ, (∀ index ∈ again, index = 2 * cnt + 1) ∧
      pack cnt utf8 dest =
        ({ utf8 with touched := utf8.touched ++ [2 * cnt] ++ [2 * cnt + 1] ++ again },
          dest.store cnt (toChar (strtol 16 [utf8.cells (2 * cnt),
            if utf8.cells (2 * cnt + 1) = 0 then 48 else utf8.cells (2 * cnt + 1)]))) := by
  by_cases ended : utf8.cells (2 * cnt + 1) = 0
  · refine ⟨[], List.forall_mem_nil _, ?_⟩
    simp [pack, Block.load, ended]
  · refine ⟨[2 * cnt + 1], fun _ => List.mem_singleton.mp, ?_⟩
    simp [pack, Block.load, ended]

/-- A pass in front of others. -/
theorem Packed.cons {chars : Bytes} {cnt last : ℕ} {utf8 dest : Block} {again : List ℕ}
    {after : Block × Block} (more : 2 * cnt < chars.length) (made : cnt < last)
    (cells : utf8.cells = (Block.text chars).cells) (same : ∀ index ∈ again, index = 2 * cnt + 1)
    (later : Packed chars (cnt + 1) last
      { utf8 with touched := utf8.touched ++ [2 * cnt] ++ [2 * cnt + 1] ++ again }
      (dest.store cnt (toChar (strtol 16 [utf8.cells (2 * cnt),
        if utf8.cells (2 * cnt + 1) = 0 then 48 else utf8.cells (2 * cnt + 1)]))) after) :
    Packed chars cnt last utf8 dest after := by
  refine ⟨later.cells, later.capacity, later.destCapacity, ?_, ?_, ?_⟩
  · rw [later.bytes, Block.bytes_store, List.append_assoc, List.singleton_append, cells,
      hexBytes_drop more]
    rfl
  · intro index member
    rcases later.read index member with touched | below
    · simp only [List.mem_append, List.mem_singleton] at touched
      rcases touched with ((before | rfl) | rfl) | reread
      · exact .inl before
      · exact .inr (by omega)
      · exact .inr (by omega)
      · have second := same index reread
        exact .inr (by omega)
    · exact .inr below
  · intro index member
    rcases later.written index member with touched | below
    · simp only [Block.store, List.mem_append, List.mem_singleton] at touched
      rcases touched with before | rfl
      · exact .inl before
      · exact .inr made
    · exact .inr below

private theorem packAll_packed {chars : Bytes} {left cnt : ℕ} {utf8 dest : Block}
    (cells : utf8.cells = (Block.text chars).cells) (size : cnt + left = packedSize chars) :
    Packed chars cnt (cnt + left) utf8 dest (packAll left cnt utf8 dest) := by
  unfold packedSize at size
  induction left generalizing cnt utf8 dest with
  | zero =>
    refine ⟨rfl, rfl, rfl, ?_, fun _ => .inl, fun _ => .inl⟩
    rw [List.drop_of_length_le (by omega), hexBytes, List.append_nil]
    rfl
  | succ left ih =>
    obtain ⟨again, same, packed⟩ := pack_eq cnt utf8 dest
    rw [packAll, packed]
    have passes : cnt + 1 + left = cnt + (left + 1) := by omega
    exact .cons (by omega) (by omega) cells same (passes ▸ ih cells (by omega))

private theorem construct_packed (chars : Bytes) (memory : ℕ → UInt8) :
    Packed chars 0 (packedSize chars) (.text chars) (dest (packedSize chars) memory)
      (construct chars memory) := by
  have packed : Packed chars 0 (0 + packedSize chars) (.text chars)
      (dest (packedSize chars) memory) (construct chars memory) :=
    packAll_packed rfl (Nat.zero_add _)
  rwa [Nat.zero_add] at packed

/-- The value that the constructor makes, wherever it has put it. -/
theorem construct_bytes (chars : Bytes) (memory : ℕ → UInt8) :
    (construct chars memory).2.bytes (packedSize chars) = hexBytes chars :=
  (construct_packed chars memory).bytes

theorem construct_within (chars : Bytes) (memory : ℕ → UInt8) :
    (construct chars memory).1.Within ∧ (construct chars memory).2.Within := by
  have packed := construct_packed chars memory
  constructor
  · intro index touched
    rw [packed.capacity]
    rcases packed.read index touched with before | below
    · exact nomatch before
    · exact Nat.lt_succ_of_le below
  · intro index touched
    rw [packed.destCapacity]
    have room : packedSize chars ≤ (dest (packedSize chars) memory).capacity ∧
        (dest (packedSize chars) memory).touched = [] := by
      unfold dest
      split_ifs with large
      · exact ⟨le_rfl, rfl⟩
      · exact ⟨Nat.le_of_not_lt large, rfl⟩
    rcases packed.written index touched with before | below
    · rw [room.2] at before
      exact nomatch before
    · omega

end Pack

section Digits

/-- The characters of the pattern `/^[0-9a-fA-F]+$/`. -/
def isHexChar (char : Char) : Bool :=
  char.isDigit || ('a' ≤ char && char ≤ 'f') || ('A' ≤ char && char ≤ 'F')

theorem isHex_iff {chars : List Char} :
    isHex chars = true ↔ chars ≠ [] ∧ ∀ char ∈ chars, isHexChar char = true := by
  simp [isHex, isHexChar]

/-- A digit in text, its value, and the way the value is printed. -/
structure IsDigit (char : Char) (value : ℕ) : Prop where
  ascii : char.toNat < 128
  small : value < 16
  read : digit? 16 (asciiByte char) = some value
  printed : hexDigits.digit (UInt8.ofNat value) = asciiByte char.toLower
  accepted : isHexChar char.toLower = true

theorem isDigit_of_isHexChar {char : Char} (hex : isHexChar char = true) :
    ∃ value, IsDigit char value := by
  have ranges : 48 ≤ char.toNat ∧ char.toNat ≤ 57 ∨ 97 ≤ char.toNat ∧ char.toNat ≤ 102 ∨
      65 ≤ char.toNat ∧ char.toNat ≤ 70 := by
    simp only [isHexChar, Char.isDigit, Bool.or_eq_true, Bool.and_eq_true, decide_eq_true_eq,
      Char.le_def, UInt32.le_iff_toNat_le] at hex
    rcases hex with (decimal | lower) | upper
    · exact .inl decimal
    · exact .inr (.inl lower)
    · exact .inr (.inr upper)
  rw [← Char.ofNat_toNat char]
  generalize char.toNat = code at ranges
  rcases ranges with ⟨above, below⟩ | ⟨above, below⟩ | ⟨above, below⟩
  · refine ⟨code - 48, ?_⟩
    interval_cases code <;> exact ⟨by decide, by decide, by decide, by decide, by decide⟩
  · refine ⟨code - 87, ?_⟩
    interval_cases code <;> exact ⟨by decide, by decide, by decide, by decide, by decide⟩
  · refine ⟨code - 55, ?_⟩
    interval_cases code <;> exact ⟨by decide, by decide, by decide, by decide, by decide⟩

private theorem digit?_hexDigit {nibble : UInt8} (small : nibble.toNat < 16) :
    digit? 16 (hexDigits.digit nibble) = some nibble.toNat := by
  rw [← UInt8.ofNat_toNat (x := nibble)]
  generalize nibble.toNat = value at small
  interval_cases value <;> decide

/-- Two digits are read without the detours of `strtol`. -/
theorem strtol_pair {high low : UInt8} {first second : ℕ} (readHigh : digit? 16 high = some first)
    (readLow : digit? 16 low = some second) : strtol 16 [high, low] = (16 * first + second : ℕ) := by
  rw [strtol_digits (le_of_digit? readHigh)]
  simp [digits, readHigh, readLow, Nat.mul_comm]

/-- The last character of an odd text is completed by a zero. -/
def padded (chars : List Char) : List Char :=
  if chars.length % 2 = 0 then chars else chars ++ ['0']

private theorem padded_pair (high low : Char) (rest : List Char) :
    padded (high :: low :: rest) = high :: low :: padded rest := by
  unfold padded
  have parity : (high :: low :: rest).length % 2 = rest.length % 2 := by
    rw [List.length_cons, List.length_cons]
    omega
  rw [parity]
  split_ifs <;> rfl

private theorem toNat_toChar {value : ℕ} (small : value < 256) : (toChar value).toNat = value := by
  rw [toChar, Int.emod_eq_of_lt (by omega) (by omega), Int.toNat_natCast, UInt8.toNat_ofNat']
  omega

/-- A byte is printed as the two digits it was read from. -/
theorem hexDigits_pair {first second : ℕ} (small : first < 16) (small' : second < 16) :
    hexDigits (toChar (16 * first + second : ℕ)) =
      [hexDigits.digit (UInt8.ofNat first), hexDigits.digit (UInt8.ofNat second)] := by
  have value : (toChar (16 * first + second : ℕ)).toNat = 16 * first + second :=
    toNat_toChar (by omega)
  have high : toChar (16 * first + second : ℕ) / 16 = UInt8.ofNat first := by
    rw [← UInt8.toNat_inj, UInt8.toNat_div, value, UInt8.toNat_ofNat']
    simp
    omega
  have low : toChar (16 * first + second : ℕ) % 16 = UInt8.ofNat second := by
    rw [← UInt8.toNat_inj, UInt8.toNat_mod, value, UInt8.toNat_ofNat']
    simp
    omega
  rw [hexDigits, high, low]

private theorem asciiByte_ne_zero {char : Char} {value : ℕ} (digit : IsDigit char value) :
    asciiByte char ≠ 0 := by
  intro zero
  have code := le_of_digit? digit.read
  rw [zero] at code
  exact absurd code (by decide)

/-- Reading the text of a value and printing it again gives lower case. -/
theorem flatMap_hexBytes : ∀ {chars : List Char}, (∀ char ∈ chars, isHexChar char = true) →
    (hexBytes (chars.map asciiByte)).flatMap hexDigits =
      (padded chars).map fun char => asciiByte char.toLower
  | [], _ => rfl
  | [last], spelled => by
    obtain ⟨value, digit⟩ := isDigit_of_isHexChar (spelled last (List.mem_singleton_self _))
    have zero : digit? 16 48 = some 0 := by decide
    rw [List.map_singleton, hexBytes, littleEndian_one, strtol_pair digit.read zero,
      List.flatMap_singleton, hexDigits_pair digit.small (by decide), digit.printed]
    rfl
  | high :: low :: rest, spelled => by
    obtain ⟨first, highDigit⟩ := isDigit_of_isHexChar (spelled high (by simp))
    obtain ⟨second, lowDigit⟩ := isDigit_of_isHexChar (spelled low (by simp))
    have later : ∀ char ∈ rest, isHexChar char = true :=
      fun char member => spelled char (by simp [member])
    rw [List.map_cons, List.map_cons, hexBytes, if_neg (asciiByte_ne_zero lowDigit),
      strtol_pair highDigit.read lowDigit.read, littleEndian_one, List.flatMap_append,
      flatMap_hexBytes later,
      List.flatMap_singleton, hexDigits_pair highDigit.small lowDigit.small, highDigit.printed,
      lowDigit.printed, padded_pair]
    rfl

/-- Printing bytes and reading the text gives the bytes. -/
theorem hexBytes_flatMap (bytes : Bytes) : hexBytes (bytes.flatMap hexDigits) = bytes := by
  induction bytes with
  | nil => rfl
  | cons byte rest ih =>
    have bound : byte.toNat < 256 := byte.toNat_lt
    have high : (byte / 16).toNat = byte.toNat / 16 := UInt8.toNat_div ..
    have low : (byte % 16).toNat = byte.toNat % 16 := UInt8.toNat_mod ..
    have present : hexDigits.digit (byte % 16) ≠ 0 := (hexDigits_digit (by omega)).2
    have joined : toChar (16 * (byte / 16).toNat + (byte % 16).toNat : ℕ) = byte := by
      rw [← UInt8.toNat_inj, toNat_toChar (by omega)]
      omega
    rw [List.flatMap_cons, hexDigits, List.cons_append, List.cons_append, List.nil_append, hexBytes,
      if_neg present, ih, strtol_pair (digit?_hexDigit (by omega)) (digit?_hexDigit (by omega)),
      littleEndian_one, joined, List.singleton_append]

end Digits

end NodeKv.Hex
