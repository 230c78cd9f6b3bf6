import Mathlib.Data.List.Basic
import Mathlib.Order.Compare

/-! # Lexicographic order

Lists are compared item by item, prefixes first. A code that replaces every item by a list of others
keeps this order if the codes of two different items differ before either of them ends, in the
order of the items. Neither does it matter if every list is ended by an item that none is below.
-/

namespace NodeKv.Machine

variable {α β γ : Type*} [Ord β] [Ord γ]

theorem compare_append_left [Std.ReflOrd β] (front left right : List β) :
    compare (front ++ left) (front ++ right) = compare left right := by
  induction front with
  | nil => rfl
  | cons item front ih =>
    rw [List.cons_append, List.cons_append, List.compare_cons_cons, Std.compare_self, ih,
      Ordering.eq_then]

/-- A code that keeps the order of the items by their rank, whatever follows. -/
structure OrderedCode (encode : α → List β) (rank : α → γ) : Prop where
  ne_nil : ∀ item, encode item ≠ []
  rank_inj : Function.Injective rank
  less : ∀ left right, compare (rank left) (rank right) = .lt → ∀ rest rest',
    compare (encode left ++ rest) (encode right ++ rest') = .lt

namespace OrderedCode

variable {encode : α → List β} {rank : α → γ} (code : OrderedCode encode rank)

include code

theorem compare_append [Std.OrientedOrd β] [Std.OrientedOrd γ] [Std.LawfulEqOrd γ] {left right : α}
    (different : left ≠ right) (rest rest' : List β) :
    compare (encode left ++ rest) (encode right ++ rest') = compare (rank left) (rank right) := by
  cases order : compare (rank left) (rank right) with
  | lt => exact code.less left right order rest rest'
  | eq => exact absurd (code.rank_inj (Std.compare_eq_iff_eq.mp order)) different
  | gt =>
    apply Std.OrientedCmp.gt_of_lt
    exact code.less right left (Std.OrientedCmp.lt_of_gt order) rest' rest

theorem compare_flatMap [Std.ReflOrd β] [Std.OrientedOrd β] [Std.OrientedOrd γ]
    [Std.LawfulEqOrd γ] (left right : List α) :
    compare (left.flatMap encode) (right.flatMap encode) =
      compare (left.map rank) (right.map rank) := by
  induction left generalizing right with
  | nil =>
    cases right with
    | nil => rfl
    | cons item right =>
      obtain ⟨first, more, coded⟩ := List.exists_cons_of_ne_nil (code.ne_nil item)
      rw [List.flatMap_cons, coded]
      rfl
  | cons item left ih =>
    cases right with
    | nil =>
      obtain ⟨first, more, coded⟩ := List.exists_cons_of_ne_nil (code.ne_nil item)
      rw [List.flatMap_cons, coded]
      rfl
    | cons other right =>
      rw [List.flatMap_cons, List.flatMap_cons, List.map_cons, List.map_cons, List.compare_cons_cons]
      by_cases same : item = other
      · rw [same, compare_append_left, Std.compare_self, Ordering.eq_then, ih]
      · have apart : compare (rank item) (rank other) ≠ .eq :=
          fun equal => same (code.rank_inj (Std.compare_eq_iff_eq.mp equal))
        rw [code.compare_append same]
        cases order : compare (rank item) (rank other) with
        | lt => rfl
        | eq => exact absurd order apart
        | gt => rfl

end OrderedCode

/-- An item at the end of both lists that none is below. -/
theorem compare_append_least [Std.ReflOrd β] [Std.OrientedOrd β] {least : β}
    (lowest : ∀ item, compare least item ≠ .gt) (left right : List β) :
    compare (left ++ [least]) (right ++ [least]) = compare left right := by
  induction left generalizing right with
  | nil =>
    cases right with
    | nil => exact Std.compare_self
    | cons item right =>
      rw [List.nil_append, List.cons_append, List.compare_cons_cons, List.compare_nil_cons]
      cases order : compare least item with
      | lt => rfl
      | eq => cases right <;> rfl
      | gt => exact absurd order (lowest item)
  | cons item left ih =>
    cases right with
    | nil =>
      rw [List.nil_append, List.cons_append, List.compare_cons_cons, List.compare_cons_nil]
      cases order : compare item least with
      | lt => exact absurd (Std.OrientedCmp.gt_of_lt order) (lowest item)
      | eq => cases left <;> rfl
      | gt => rfl
    | cons other right =>
      rw [List.cons_append, List.cons_append, List.compare_cons_cons, List.compare_cons_cons, ih]

end NodeKv.Machine
