import Mathlib.Data.List.Dedup
import Mathlib.Data.List.Sort
import Mathlib.Order.Compare

/-! # Strictly ordered lists

A comparator that tells the items of a list apart puts them into exactly one strictly ascending
order.
-/

namespace NodeKv.Machine

variable {α β : Type*} (compare : α → α → Ordering)

/-- Every item is below all that come after it. -/
def Ascending (items : List α) : Prop :=
  items.Pairwise fun left right => compare left right = .lt

variable {compare} {items others : List α}

/-- Items that compare equal are the same. -/
def TellsApart (compare : α → α → Ordering) (items : List α) : Prop :=
  ∀ left ∈ items, ∀ right ∈ items, compare left right = .eq → left = right

section Runs

variable {wanted : α → Bool}

/-- What comes from the first wanted item on, if all that follow one are wanted. -/
theorem dropWhile_eq_filter
    (upward : items.Pairwise fun left right => wanted left = true → wanted right = true) :
    items.dropWhile (fun item => !wanted item) = items.filter wanted := by
  induction items with
  | nil => rfl
  | cons item rest ih =>
    obtain ⟨above, later⟩ := List.pairwise_cons.mp upward
    cases here : wanted item with
    | false =>
      rw [List.dropWhile_cons_of_pos (by simp [here]), List.filter_cons_of_neg (by simp [here])]
      exact ih later
    | true =>
      rw [List.dropWhile_cons_of_neg (by simp [here]), List.filter_cons_of_pos here,
        List.filter_eq_self.mpr fun next member => above next member here]

/-- What comes before the first unwanted item, if all that come before a wanted one are wanted. -/
theorem takeWhile_eq_filter
    (downward : items.Pairwise fun left right => wanted right = true → wanted left = true) :
    items.takeWhile wanted = items.filter wanted := by
  induction items with
  | nil => rfl
  | cons item rest ih =>
    obtain ⟨below, later⟩ := List.pairwise_cons.mp downward
    cases here : wanted item with
    | false =>
      rw [List.takeWhile_cons_of_neg (by simp [here]), List.filter_cons_of_neg (by simp [here]), eq_comm]
      refine List.filter_eq_nil_iff.mpr ?_
      intro next member found
      exact Bool.false_ne_true (here.symm.trans (below next member found))
    | true =>
      rw [List.takeWhile_cons_of_pos here, List.filter_cons_of_pos here, ih later]

end Runs

section Oriented

variable [Std.OrientedCmp compare]

theorem Ascending.nodup (ascending : Ascending compare items) : items.Nodup := by
  apply ascending.imp
  rintro left _ less rfl
  have equal : compare left left = .eq := Std.ReflCmp.compare_self
  rw [equal] at less
  cases less

/-- There is only one way to list items in ascending order. -/
theorem Ascending.unique (ascending : Ascending compare items)
    (ascending' : Ascending compare others)
    (same : ∀ item, item ∈ items ↔ item ∈ others) : items = others := by
  have permuted : items.Perm others :=
    (List.perm_ext_iff_of_nodup ascending.nodup ascending'.nodup).mpr same
  refine permuted.eq_of_pairwise ?_ ascending ascending'
  intro left right _ _ less less'
  rw [Std.OrientedCmp.gt_of_lt less] at less'
  cases less'

end Oriented

section Trans

variable [Std.TransCmp compare]

theorem exists_ascending (apart : TellsApart compare items) :
    ∃ sorted, Ascending compare sorted ∧ ∀ item, item ∈ sorted ↔ item ∈ items := by
  classical
  let sorted := items.dedup.mergeSort fun left right => (compare left right).isLE
  have mem_sorted (item : α) : item ∈ sorted ↔ item ∈ items :=
    List.mem_mergeSort.trans List.mem_dedup
  have distinct : sorted.Nodup := (List.mergeSort_perm _ _).nodup_iff.mpr items.nodup_dedup
  have weakly : sorted.Pairwise fun left right => (compare left right).isLE = true := by
    apply List.pairwise_mergeSort
    · intro left middle right below above
      exact Std.TransCmp.isLE_trans below above
    · intro left right
      have swapped : compare right left = (compare left right).swap := Std.OrientedCmp.eq_swap
      rw [swapped]
      cases compare left right <;> rfl
  refine ⟨sorted, ?_, mem_sorted⟩
  refine (distinct.and weakly).imp_of_mem ?_
  rintro left right member member' ⟨different, below⟩
  cases order : compare left right with
  | lt => rfl
  | eq =>
    have same := apart left ((mem_sorted left).mp member) right ((mem_sorted right).mp member') order
    exact absurd same different
  | gt =>
    rw [order] at below
    cases below

variable (compare) in
/-- Comparing items by something they have. -/
theorem transCmp_on (project : β → α) :
    Std.TransCmp fun left right => compare (project left) (project right) where
  eq_swap := Std.OrientedCmp.eq_swap
  isLE_trans below above := Std.TransCmp.isLE_trans below above

end Trans

end NodeKv.Machine
