import Mathlib.Data.List.Basic
import Mathlib.Tactic.Common

/-! # Tables of reusable slots

Handles that are small numbers: a table of slots, each free or occupied. A new occupant takes the
lowest free slot, or a new one behind the last. Releasing a slot makes its number free for the next.
-/

namespace NodeKv.Machine.Slots

variable {α : Type*} {slots : List (Option α)} {index other : ℕ}

/-- The occupant of a slot. -/
def lookup (slots : List (Option α)) (index : ℕ) : Option α := slots[index]?.join

/-- The number of the lowest free slot. -/
def firstFree (slots : List (Option α)) : ℕ := slots.findIdx Option.isNone

/-- The lowest slot with an occupant of a kind. -/
def holding (kind : α → Bool) (slots : List (Option α)) : Option ℕ :=
  slots.findIdx? fun slot => slot.any kind

/-- Occupy a slot of the table, or the one behind the last. -/
def assign (slots : List (Option α)) (index : ℕ) (occupant : α) : List (Option α) :=
  if index < slots.length then slots.set index (some occupant) else slots ++ [some occupant]

/-- Free a slot. -/
def release (slots : List (Option α)) (index : ℕ) : List (Option α) := slots.set index none

theorem firstFree_le (slots : List (Option α)) : firstFree slots ≤ slots.length :=
  List.findIdx_le_length

theorem lookup_firstFree (slots : List (Option α)) : lookup slots (firstFree slots) = none := by
  rcases Nat.lt_or_ge (firstFree slots) slots.length with inside | outside
  · have free : (slots[firstFree slots]).isNone = true := List.findIdx_getElem
    rw [lookup, List.getElem?_eq_getElem inside, Option.isNone_iff_eq_none.mp free]
    rfl
  · rw [lookup, List.getElem?_eq_none outside]
    rfl

theorem lookup_holding {kind : α → Bool} (held : holding kind slots = some index) :
    index < slots.length ∧ ∃ occupant, lookup slots index = some occupant ∧ kind occupant = true := by
  obtain ⟨inside, fits, -⟩ := List.findIdx?_eq_some_iff_getElem.mp held
  refine ⟨inside, ?_⟩
  rw [lookup, List.getElem?_eq_getElem inside, Option.join_some]
  cases found : slots[index] with
  | none =>
    rw [found] at fits
    exact nomatch fits
  | some occupant =>
    rw [found] at fits
    exact ⟨occupant, rfl, fits⟩

theorem lookup_assign_self (reachable : index ≤ slots.length) (occupant : α) :
    lookup (assign slots index occupant) index = some occupant := by
  unfold lookup assign
  split_ifs with inside
  · simp [inside]
  · obtain rfl : index = slots.length := by omega
    simp

theorem lookup_assign_of_ne (reachable : index ≤ slots.length) (occupant : α) (ne : other ≠ index) :
    lookup (assign slots index occupant) other = lookup slots other := by
  unfold lookup assign
  split_ifs with inside
  · rw [List.getElem?_set_ne ne.symm]
  · obtain rfl : index = slots.length := by omega
    rcases Nat.lt_or_gt_of_ne ne with below | above
    · rw [List.getElem?_append_left below]
    · rw [List.getElem?_eq_none (by simp; omega), List.getElem?_eq_none (by omega)]

theorem lookup_release_of_ne (slots : List (Option α)) (ne : other ≠ index) :
    lookup (release slots index) other = lookup slots other := by
  rw [lookup, release, List.getElem?_set_ne ne.symm, lookup]

theorem lookup_release_self (slots : List (Option α)) (index : ℕ) :
    lookup (release slots index) index = none := by
  unfold lookup release
  rcases Nat.lt_or_ge index slots.length with inside | outside
  · simp [inside]
  · rw [List.getElem?_eq_none (by simpa using outside)]
    rfl

end NodeKv.Machine.Slots
