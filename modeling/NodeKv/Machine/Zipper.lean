import Mathlib.Data.List.Basic

/-! # A list with a place in it

A zipper is a list cut at one place: on an item, or in the gap that a removed item has left. It
moves by one item to either side. A gap closes from the right: the item behind it comes to stand
at the place.
-/

namespace NodeKv.Machine

variable {α : Type*}

structure Zipper (α : Type*) where
  before : List α
  /-- There is none in a gap. -/
  here : Option α
  after : List α
deriving DecidableEq, Repr

namespace Zipper

def items (zipper : Zipper α) : List α := zipper.before ++ zipper.here.toList ++ zipper.after

/-- On the first item. -/
def first? : List α → Option (Zipper α)
  | [] => none
  | item :: rest => some ⟨[], some item, rest⟩

/-- On the last item. -/
def last? (items : List α) : Option (Zipper α) :=
  items.getLast?.map fun item => ⟨items.dropLast, some item, []⟩

/-- On the first item of a kind. -/
def find? (wanted : α → Bool) (items : List α) : Option (Zipper α) :=
  match items.dropWhile (!wanted ·) with
  | [] => none
  | item :: rest => some ⟨items.takeWhile (!wanted ·), some item, rest⟩

def next? (zipper : Zipper α) : Option (Zipper α) :=
  match zipper.after with
  | [] => none
  | item :: rest => some ⟨zipper.before ++ zipper.here.toList, some item, rest⟩

def prev? (zipper : Zipper α) : Option (Zipper α) :=
  zipper.before.getLast?.map fun item =>
    ⟨zipper.before.dropLast, some item, zipper.here.toList ++ zipper.after⟩

/-- Close a gap. -/
def settle (zipper : Zipper α) : Zipper α :=
  match zipper.here, zipper.after with
  | none, item :: rest => ⟨zipper.before, some item, rest⟩
  | _, _ => zipper

/-- Remove the item at the place. -/
def remove (zipper : Zipper α) : Zipper α := { zipper with here := none }

@[simp] theorem items_settle (zipper : Zipper α) : zipper.settle.items = zipper.items := by
  obtain ⟨before, here, after⟩ := zipper
  cases here <;> cases after <;> simp [settle, items]

theorem items_next {zipper next : Zipper α} (moved : zipper.next? = some next) :
    next.items = zipper.items := by
  obtain ⟨before, here, after⟩ := zipper
  cases after with
  | nil => contradiction
  | cons item rest =>
    obtain rfl := Option.some.inj moved
    simp [items]

theorem items_prev {zipper next : Zipper α} (moved : zipper.prev? = some next) :
    next.items = zipper.items := by
  obtain ⟨item, found, rfl⟩ := Option.map_eq_some_iff.mp moved
  have split := List.dropLast_append_getLast? item found
  simp only [items, Option.toList_some]
  rw [← List.append_assoc, split, List.append_assoc]

theorem items_first {items : List α} {zipper : Zipper α} (moved : first? items = some zipper) :
    zipper.items = items := by
  cases items with
  | nil => contradiction
  | cons item rest =>
    obtain rfl := Option.some.inj moved
    rfl

theorem items_last {items : List α} {zipper : Zipper α} (moved : last? items = some zipper) :
    zipper.items = items := by
  obtain ⟨item, found, rfl⟩ := Option.map_eq_some_iff.mp moved
  simp only [Zipper.items, Option.toList_some, List.append_nil]
  exact List.dropLast_append_getLast? item found

theorem items_find {wanted : α → Bool} {items : List α} {zipper : Zipper α}
    (moved : find? wanted items = some zipper) : zipper.items = items := by
  unfold find? at moved
  split at moved
  · contradiction
  · next item rest split =>
    obtain rfl := Option.some.inj moved
    have whole := List.takeWhile_append_dropWhile (p := (!wanted ·)) (l := items)
    rw [split] at whole
    simpa [Zipper.items] using whole

/-- The place of the first item of a kind, by its index. -/
theorem findIdx?_eq (wanted : α → Bool) (items : List α) :
    items.findIdx? wanted = (find? wanted items).map fun zipper => zipper.before.length := by
  induction items with
  | nil => rfl
  | cons item rest ih =>
    cases holds : wanted item with
    | true => simp [find?, List.findIdx?_cons, holds]
    | false =>
      rw [List.findIdx?_cons, holds, ih]
      simp only [find?, List.dropWhile_cons, List.takeWhile_cons, holds, Bool.not_false, if_true]
      cases List.dropWhile (!wanted ·) rest <;> simp

end Zipper

end NodeKv.Machine
