import NodeKv.Machine.Iterator
import NodeKv.Machine.Zipper

/-! # Places by index and by what is around them

An iterator knows the index of the item that it is on, a zipper the items on both sides. The two move
alike. -/

namespace NodeKv.Machine

variable {α : Type*}

/-- The index of the item that a zipper is on. -/
def Zipper.index (zipper : Zipper α) : ℕ := zipper.before.length

/-- A movement has led both of them to the same item, or to none. -/
structure Alongside (items : List α) (zipper? : Option (Zipper α)) (position : Position items.length) :
    Prop where
  index : zipper?.map Zipper.index = position.map Fin.val
  here : ∀ zipper, zipper? = some zipper → zipper.here.isSome = true ∧ zipper.items = items

namespace Alongside

variable (items : List α)

theorem first : Alongside items (Zipper.first? items) (Position.first items.length) := by
  constructor
  · cases items <;> simp [Zipper.first?, Position.first, Zipper.index]
  · intro zipper moved
    refine ⟨?_, Zipper.items_first moved⟩
    cases items with
    | nil => contradiction
    | cons item rest =>
      obtain rfl := Option.some.inj moved
      rfl

theorem last : Alongside items (Zipper.last? items) (Position.last items.length) := by
  constructor
  · rcases List.eq_nil_or_concat items with rfl | ⟨front, item, rfl⟩
    · rfl
    · simp [Zipper.last?, Position.last, Zipper.index]
  · intro zipper moved
    refine ⟨?_, Zipper.items_last moved⟩
    obtain ⟨item, -, rfl⟩ := Option.map_eq_some_iff.mp moved
    rfl

theorem seek_index (wanted : α → Bool) :
    items.findIdx? wanted = (Position.seek fun index => wanted (items.get index)).map Fin.val := by
  cases found : Position.seek fun index => wanted (items.get index) with
  | none =>
    have none_wanted : ¬∃ index, wanted (items.get index) = true := by
      rw [← Position.seek_isSome_iff, found]
      exact Bool.false_ne_true
    refine List.findIdx?_eq_none_iff.mpr ?_
    intro item member
    obtain ⟨index, rfl⟩ := List.get_of_mem member
    exact Bool.eq_false_iff.mpr fun holds => none_wanted ⟨index, holds⟩
  | some index =>
    obtain ⟨holds, earlier⟩ := Position.seek_spec found
    refine List.findIdx?_eq_some_iff_getElem.mpr ⟨index.isLt, holds, ?_⟩
    intro other before
    exact Bool.eq_false_iff.mp (earlier ⟨other, before.trans index.isLt⟩ before)

theorem find (wanted : α → Bool) : Alongside items (Zipper.find? wanted items)
    (Position.seek fun index => wanted (items.get index)) := by
  constructor
  · rw [← seek_index, Zipper.findIdx?_eq]
    rfl
  · intro zipper moved
    refine ⟨?_, Zipper.items_find moved⟩
    unfold Zipper.find? at moved
    split at moved
    · contradiction
    · obtain rfl := Option.some.inj moved
      rfl

variable {items} {before after : List α} {item : α} (whole : items = before ++ item :: after)
  {index : Fin items.length} (same : index.val = before.length)

include whole same

theorem get_eq : items.get index = item := by
  subst whole
  simp [List.get_eq_getElem, same]

theorem next : Alongside items (Zipper.next? ⟨before, some item, after⟩) (Position.next index) := by
  have size : items.length = before.length + (after.length + 1) := by simp [whole]
  constructor
  · cases after with
    | nil =>
      have last : ¬index.val + 1 < items.length := by
        rw [List.length_nil] at size
        omega
      rw [Position.next, dif_neg last]
      rfl
    | cons other rest =>
      have more : index.val + 1 < items.length := by
        rw [List.length_cons] at size
        omega
      rw [Position.next, dif_pos more]
      simp [Zipper.next?, Zipper.index, same]
  · intro zipper moved
    refine ⟨?_, (Zipper.items_next moved).trans (by simp [Zipper.items, whole])⟩
    cases after with
    | nil => contradiction
    | cons other rest =>
      obtain rfl := Option.some.inj moved
      rfl

theorem prev : Alongside items (Zipper.prev? ⟨before, some item, after⟩) (Position.prev index) := by
  constructor
  · rcases List.eq_nil_or_concat before with rfl | ⟨front, other, rfl⟩
    · have start : ¬0 < index.val := by simp [same]
      rw [Position.prev, if_neg start]
      rfl
    · have more : 0 < index.val := by simp [same]
      rw [Position.prev, if_pos more]
      simp [Zipper.prev?, Zipper.index, same]
  · intro zipper moved
    refine ⟨?_, (Zipper.items_prev moved).trans (by simp [Zipper.items, whole])⟩
    obtain ⟨other, -, rfl⟩ := Option.map_eq_some_iff.mp moved
    rfl

end Alongside

end NodeKv.Machine
