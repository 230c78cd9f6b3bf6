import Mathlib.Data.Finset.Sort

/-! # The two largest elements of a finite set

A set that grows only above its largest element, and shrinks only below its second largest, has
the same two largest elements for as long as nothing is added, and hands the first down to second
place when something is. A descending list shows them in front.
-/

namespace NodeKv.Machine

variable {α : Type*} [LinearOrder α]

/-- The largest and the second largest element. -/
structure Largest (elements : Finset α) (first second : α) : Prop where
  lt : second < first
  first_mem : first ∈ elements
  second_mem : second ∈ elements
  rest : ∀ element ∈ elements, element ≠ first → element ≤ second

namespace Largest

variable {elements fewer : Finset α} {first second new : α}

theorem le (largest : Largest elements first second) {element : α} (mem : element ∈ elements) :
    element ≤ first := by
  rcases eq_or_ne element first with rfl | ne
  · exact le_rfl
  · exact (largest.rest element mem ne).trans largest.lt.le

theorem unique {first' second' : α} (largest : Largest elements first second)
    (other : Largest elements first' second') : first = first' ∧ second = second' := by
  have same : first = first' :=
    le_antisymm (other.le largest.first_mem) (largest.le other.first_mem)
  subst same
  exact ⟨rfl, le_antisymm (other.rest _ largest.second_mem largest.lt.ne)
    (largest.rest _ other.second_mem other.lt.ne)⟩

theorem one_lt_card (largest : Largest elements first second) : 1 < elements.card :=
  Finset.one_lt_card.mpr ⟨first, largest.first_mem, second, largest.second_mem, largest.lt.ne'⟩

/-- An element above all others hands the first place down. -/
theorem insert (largest : Largest elements first second) (above : first < new) :
    Largest (insert new elements) new first := by
  refine ⟨above, Finset.mem_insert_self .., Finset.mem_insert_of_mem largest.first_mem, ?_⟩
  intro element mem ne
  exact largest.le (Finset.mem_of_mem_insert_of_ne mem ne)

theorem subset (largest : Largest elements first second) (sub : fewer ⊆ elements)
    (first_mem : first ∈ fewer) (second_mem : second ∈ fewer) : Largest fewer first second :=
  ⟨largest.lt, first_mem, second_mem, fun element mem => largest.rest element (sub mem)⟩

/-- A descending list begins with its two largest elements. -/
theorem of_descending {rest : List α}
    (descending : (first :: second :: rest).Pairwise (· > ·)) :
    Largest (first :: second :: rest).toFinset first second := by
  rw [List.pairwise_cons, List.pairwise_cons] at descending
  obtain ⟨above, next, -⟩ := descending
  refine ⟨above second (List.mem_cons_self ..), by simp, by simp, ?_⟩
  intro element mem ne
  simp only [List.mem_toFinset, List.mem_cons, ne, false_or] at mem
  rcases mem with rfl | mem
  · exact le_rfl
  · exact (next element mem).le

end Largest

end NodeKv.Machine
