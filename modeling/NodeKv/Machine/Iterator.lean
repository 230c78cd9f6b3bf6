import Mathlib.Data.Fin.Basic
import Mathlib.Data.List.FinRange

/-! # Positions among ordered entries

An iterator over a fixed number of entries is on one of them or on none, and can never be beyond
them. Going forward from the first entry, it passes each of them once and then is on none.
-/

namespace NodeKv.Machine

/-- Where an iterator is. -/
abbrev Position (size : ℕ) := Option (Fin size)

namespace Position

variable {size : ℕ}

def first (size : ℕ) : Position size :=
  if some : 0 < size then Option.some ⟨0, some⟩ else none

def last (size : ℕ) : Position size :=
  if some : 0 < size then Option.some ⟨size - 1, Nat.sub_one_lt_of_lt some⟩ else none

/-- The first entry of a kind. -/
def seek (kind : Fin size → Bool) : Position size := (List.finRange size).find? kind

def next (index : Fin size) : Position size :=
  if more : index.val + 1 < size then some ⟨index.val + 1, more⟩ else none

def prev (index : Fin size) : Position size :=
  if 0 < index.val then some ⟨index.val - 1, (Nat.sub_le _ _).trans_lt index.isLt⟩ else none

/-- The entries an iterator comes to when it goes forward, with the one it is on. -/
def ahead : Position size → List (Fin size)
  | none => []
  | some index => (List.finRange size).drop index.val

theorem ahead_first : ahead (first size) = List.finRange size := by
  unfold first
  split_ifs with some
  · rfl
  · obtain rfl : size = 0 := by omega
    rfl

theorem ahead_some (index : Fin size) : ahead (some index) = index :: ahead (next index) := by
  have within : index.val < (List.finRange size).length := by
    rw [List.length_finRange]
    exact index.isLt
  rw [ahead, List.drop_eq_getElem_cons within, List.getElem_finRange, next]
  congr 1
  split_ifs with more
  · rfl
  · apply List.drop_of_length_le
    rw [List.length_finRange]
    omega

theorem length_ahead_le (position : Position size) : (ahead position).length ≤ size := by
  cases position with
  | none => exact Nat.zero_le size
  | some index =>
    rw [ahead, List.length_drop, List.length_finRange]
    omega

section Seek

variable {kind : Fin size → Bool}

theorem seek_isSome_iff : (seek kind).isSome = true ↔ ∃ index, kind index = true := by
  rw [seek, List.find?_isSome]
  constructor
  · rintro ⟨index, -, found⟩
    exact ⟨index, found⟩
  · rintro ⟨index, found⟩
    exact ⟨index, List.mem_finRange index, found⟩

theorem seek_spec {index : Fin size} (found : seek kind = some index) :
    kind index = true ∧ ∀ earlier, earlier < index → kind earlier = false := by
  refine ⟨List.find?_some found, ?_⟩
  intro earlier before
  obtain ⟨-, position, inside, same, none⟩ := List.find?_eq_some_iff_getElem.mp found
  obtain rfl : (⟨position, by simpa using inside⟩ : Fin size) = index := by
    rw [← same, List.getElem_finRange]
    rfl
  have missed := none earlier.val before
  rw [List.getElem_finRange] at missed
  simpa using missed

/-- Looking for an entry by index finds the entry. -/
theorem seek_get {α : Type*} (items : List α) (wanted : α → Bool) :
    (seek fun index => wanted (items.get index)).map items.get = items.find? wanted := by
  have mapped : ((List.finRange items.length).map items.get).find? wanted = _ := List.find?_map
  rw [List.map_get_finRange] at mapped
  exact mapped.symm

/-- What is ahead of the entry that was looked for. -/
theorem drop_seek {α : Type*} {items : List α} {wanted : α → Bool} {index : Fin items.length}
    (found : seek (fun index => wanted (items.get index)) = some index) :
    items.drop index = items.dropWhile fun item => !wanted item := by
  obtain ⟨holds, earlier⟩ := seek_spec found
  have first : items.findIdx wanted = index := by
    refine (List.findIdx_eq index.isLt).mpr ⟨holds, ?_⟩
    intro other before
    exact earlier ⟨other, before.trans index.isLt⟩ before
  rw [List.dropWhile_eq_drop_findIdx_not]
  simp only [Bool.not_not, first]

end Seek

end Position

end NodeKv.Machine
