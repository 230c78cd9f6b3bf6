import Mathlib.Data.List.Basic
import Mathlib.Logic.Function.Basic
import Mathlib.Tactic.Common

/-! # Blocks of memory

A block has a capacity and remembers which of its cells were touched. Nothing stops a program from
touching cells behind the end; there the block holds whatever lies in memory, and the program has
stayed within the block if it never did so.
-/

namespace NodeKv.Machine

structure Block where
  capacity : ℕ
  cells : ℕ → UInt8
  /-- The cells read or written so far. -/
  touched : List ℕ

namespace Block

/-- A new block, with what happens to be in memory. -/
def allocate (capacity : ℕ) (memory : ℕ → UInt8) : Block := ⟨capacity, memory, []⟩

/-- A block that holds some bytes and a NUL. -/
def text (bytes : List UInt8) : Block := ⟨bytes.length + 1, fun index => bytes.getD index 0, []⟩

def load (index : ℕ) (block : Block) : UInt8 × Block :=
  (block.cells index, { block with touched := block.touched ++ [index] })

def store (index : ℕ) (byte : UInt8) (block : Block) : Block :=
  { block with
    cells := Function.update block.cells index byte
    touched := block.touched ++ [index] }

/-- Store bytes one behind the other. -/
def fill (index : ℕ) : List UInt8 → Block → Block
  | [], block => block
  | byte :: rest, block => fill (index + 1) rest (block.store index byte)

/-- The first bytes. -/
def bytes (count : ℕ) (block : Block) : List UInt8 := (List.range count).map block.cells

/-- No cell behind the end was touched. -/
def Within (block : Block) : Prop := ∀ index ∈ block.touched, index < block.capacity

instance (block : Block) : Decidable block.Within := List.decidableBAll ..

variable {block : Block} {index count : ℕ} {byte : UInt8} {stored : List UInt8}

theorem bytes_succ : block.bytes (count + 1) = block.bytes count ++ [block.cells count] := by
  rw [bytes, List.range_succ, List.map_append, List.map_singleton, bytes]

theorem bytes_add (more : ℕ) : block.bytes (count + more) =
    block.bytes count ++ (List.range more).map fun index => block.cells (count + index) := by
  rw [bytes, List.range_add, List.map_append, List.map_map, bytes]
  rfl

@[simp] theorem capacity_allocate (memory : ℕ → UInt8) :
    (allocate count memory).capacity = count := rfl

@[simp] theorem capacity_store : (block.store index byte).capacity = block.capacity := rfl

/-- Bytes in front of a cell do not change with it. -/
theorem bytes_store_of_le (front : count ≤ index) :
    (block.store index byte).bytes count = block.bytes count := by
  apply List.map_congr_left
  intro other member
  have below : other < count := List.mem_range.mp member
  exact Function.update_of_ne (by omega) _ _

theorem bytes_store : (block.store index byte).bytes (index + 1) = block.bytes index ++ [byte] := by
  rw [bytes_succ, bytes_store_of_le (Nat.le_refl _), store]
  simp

@[simp] theorem capacity_fill : (block.fill index stored).capacity = block.capacity := by
  induction stored generalizing index block with
  | nil => rfl
  | cons byte rest ih => exact ih.trans capacity_store

theorem bytes_fill :
    (block.fill index stored).bytes (index + stored.length) = block.bytes index ++ stored := by
  induction stored generalizing index block with
  | nil => exact (List.append_nil _).symm
  | cons byte rest ih =>
    rw [fill, List.length_cons, show index + (rest.length + 1) = index + 1 + rest.length by omega,
      ih, bytes_store, List.append_assoc, List.singleton_append]

theorem mem_touched_fill {other : ℕ} :
    other ∈ (block.fill index stored).touched ↔
      other ∈ block.touched ∨ index ≤ other ∧ other < index + stored.length := by
  induction stored generalizing index block with
  | nil =>
    rw [fill, List.length_nil]
    constructor
    · exact .inl
    · rintro (touched | ⟨above, below⟩)
      · exact touched
      · omega
  | cons byte rest ih =>
    rw [fill, ih, store, List.mem_append, List.mem_singleton, List.length_cons]
    constructor
    · rintro ((touched | rfl) | within)
      · exact .inl touched
      · exact .inr (by omega)
      · exact .inr (by omega)
    · rintro (touched | within)
      · exact .inl (.inl touched)
      · by_cases here : other = index
        · exact .inl (.inr here)
        · exact .inr (by omega)

end Block

end NodeKv.Machine
