import NodeKv.Machine.Block
import NodeKv.Model.Decode

/-! # Hexadecimal values in memory

`hex_type` converts between text and bytes in buffers of its own (`src/kv-types.cpp`). The
constructor writes into the 512 bytes of the object, or into an allocated block if they do not
suffice; `v8value` writes into 1025 bytes on the stack, or into an allocated block. Both loops are
here as they touch these blocks. `DataType.hexBytes` and `DataType.hexBuffer` are what they compute.
-/

namespace NodeKv.Hex

open Machine

/-- `sizeof(_buf)`. -/
def inlineSize : ℕ := 512

/-- `sizeof(buf)` in `v8value`. -/
def textSize : ℕ := 1025

/-- Conversion to `char`. -/
def toChar (value : ℤ) : UInt8 := UInt8.ofNat (value % 256).toNat

section Constructor

/-- One pass of the loop: two characters are read, and one byte is written. -/
def pack (cnt : ℕ) (utf8 dest : Block) : Block × Block :=
  let (high, utf8) := utf8.load (2 * cnt)
  let (low, utf8) := utf8.load (2 * cnt + 1)
  -- A character that is not NUL is read again.
  let (low, utf8) := if low = 0 then (48, utf8) else utf8.load (2 * cnt + 1)
  (utf8, dest.store cnt (toChar (DataType.strtol 16 [high, low])))

/-- The loop, with the number of passes left. -/
def packAll : (left cnt : ℕ) → (utf8 dest : Block) → Block × Block
  | 0, _, utf8, dest => (utf8, dest)
  | left + 1, cnt, utf8, dest =>
    let (utf8, dest) := pack cnt utf8 dest
    packAll left (cnt + 1) utf8 dest

/-- The size of the value of a text. -/
def packedSize (chars : Bytes) : ℕ := (chars.length + 1) / 2

/-- Where the constructor writes to. -/
def dest (size : ℕ) (memory : ℕ → UInt8) : Block :=
  if size > inlineSize then .allocate size memory else .allocate inlineSize memory

/-- `hex_type::hex_type` on the text of a script value: the blocks of the text and of the value. -/
def construct (chars : Bytes) (memory : ℕ → UInt8) : Block × Block :=
  packAll (packedSize chars) 0 (.text chars) (dest (packedSize chars) memory)

end Constructor

section Print

/-- `sprintf(cur, "%02hhx", byte)`. -/
def sprintf (cur : ℕ) (byte : UInt8) (dest : Block) : Block :=
  dest.fill cur (DataType.hexDigits byte ++ [0])

/-- The loop of `v8value`, on the bytes of the value that are left. -/
def printAll (cur : ℕ) : Bytes → Block → Block
  | [], dest => dest
  | byte :: rest, dest => printAll (cur + 2) rest (sprintf cur byte dest)

/-- Where `v8value` writes to. -/
def textDest (size : ℕ) (memory : ℕ → UInt8) : Block :=
  if size > textSize / 2 then .allocate (size * 2) memory else .allocate textSize memory

/-- The block that `v8value` makes a text of. -/
def print (bytes : Bytes) (memory : ℕ → UInt8) : Block :=
  printAll 0 bytes (textDest bytes.length memory)

/-- `hex_type::v8value`, when so many bytes from the start of its block on can be read. -/
def v8value (runtime : Runtime) (bytes : Bytes) (memory : ℕ → UInt8) (readable : ℕ) :
    Option Value :=
  (DataType.cString ((print bytes memory).bytes readable)).map fun chars =>
    .text (runtime.newText chars)

end Print

end NodeKv.Hex
