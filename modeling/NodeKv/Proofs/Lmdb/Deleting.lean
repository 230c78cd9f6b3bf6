import NodeKv.Machine.Zipper
import NodeKv.Model.Lmdb.Deleting

/-! # A deleting cursor is a place in a list

What the index and the flags of a cursor amount to: it is on a pair, or in the gap where it has
deleted one. Movements go by one pair from there. Every call other than a movement closes a gap, so
that the cursor is on the following pair, and so does a movement to the front that fails. Two cases
are apart: a cursor that was not placed yet, and one that has deleted the only pair.
-/

namespace NodeKv.Lmdb.Deleting

open Machine

/-- Where a cursor is among the pairs. -/
inductive Spot where
  | fresh (pairs : List Pair)
  | at (zipper : Zipper Pair)
  /-- It has deleted the only pair. -/
  | emptied
  /-- A search has failed. -/
  | adrift (pairs : List Pair)

namespace Spot

def pairs : Spot → List Pair
  | fresh pairs => pairs
  | .at zipper => zipper.items
  | emptied => []
  | adrift pairs => pairs

/-- What is left after a failed call that closes a gap. -/
def settle : Spot → Spot
  | .at zipper => .at zipper.settle
  | spot => spot

/-- A movement to where there may be a pair. -/
def goTo (spot : Spot) : Option (Zipper Pair) → Answer Reply × Spot
  | some zipper => (.ok (.found true), .at zipper)
  | none => (.ok (.found false), spot.settle)

/-- A search, with what it looks for. -/
def search (db : Db) (spot : Spot) (key : Bytes) (wanted : Ordering → Bool) : Answer Reply × Spot :=
  if key = [] then (.throws (.mdb .badValsize), spot.settle)
  else
    match Zipper.find? (fun pair => wanted (db.keyType.compare pair.1 key)) spot.pairs with
    | some zipper => (.ok (.found true), .at zipper)
    | none => (.ok (.found false), if spot.pairs = [] then spot else .adrift spot.pairs)

/-- Delete the pair that a read would show. -/
def delete (readonly : Bool) (spot : Spot) : Answer Reply × Spot :=
  if readonly then (.throws (.mdb .eacces), spot)
  else
    match spot with
    | .at zipper =>
      match zipper.settle.here with
      | none => (.throws (.mdb .notFound), spot)
      | some _ =>
        let left := zipper.settle.remove
        (.ok .done, if left.items = [] then emptied else .at left)
    | adrift _ => (.unknown, spot)
    | _ => (.throws (.mdb .einval), spot)

/-- A call on a cursor, in these terms. -/
def perform (db : Db) (readonly : Bool) (spot : Spot) : Call → Answer Reply × Spot
  | .move .first => spot.goTo (Zipper.first? spot.pairs)
  | .move (.set key) => spot.search db key (· = .eq)
  | .move (.setRange key) => spot.search db key (·.isGE)
  | .move .last =>
    match spot with
    | .emptied => (.unknown, spot)
    | .adrift _ => (.unknown, spot)
    | _ => spot.goTo (Zipper.last? spot.pairs)
  | .move .next =>
    match spot with
    | .at zipper => spot.goTo zipper.next?
    | .adrift _ => (.unknown, spot)
    | _ => spot.goTo (Zipper.first? spot.pairs)
  | .move .prev =>
    match spot with
    | .at zipper => spot.goTo zipper.prev?
    | .fresh pairs => spot.goTo (Zipper.last? pairs)
    | _ => (.unknown, spot)
  | .move .getCurrent =>
    match spot with
    | .at zipper => (.ok (.found zipper.settle.here.isSome), spot.settle)
    | .adrift _ => (.unknown, spot)
    | _ => (.throws (.mdb .einval), spot)
  | .read =>
    match spot with
    | .at zipper => (.ok (.pair zipper.settle.here), spot.settle)
    | .adrift _ => (.unknown, spot)
    | _ => (.throws (.mdb .einval), spot)
  | .del => spot.delete readonly

end Spot

theorem Spot.search_missed {db : Db} {spot : Spot} {key : Bytes} (sized : key ≠ [])
    {wanted : Ordering → Bool}
    (missed : Zipper.find? (fun pair => wanted (db.keyType.compare pair.1 key)) spot.pairs = none) :
    ∃ spot', spot.search db key wanted = (.ok (.found false), spot') ∧ spot'.pairs = spot.pairs := by
  rw [search, if_neg sized, missed]
  by_cases empty : spot.pairs = []
  · exact ⟨spot, by rw [if_pos empty], rfl⟩
  · exact ⟨.adrift spot.pairs, by rw [if_neg empty], rfl⟩

/-- The flags of a cursor say where it is. -/
inductive Stands : List Pair → Cursor → Spot → Prop
  | fresh (pairs : List Pair) (index : ℕ) : Stands pairs ⟨index, false, false, false, false⟩ (.fresh pairs)
  | on (before : List Pair) (pair : Pair) (after : List Pair) (eof : Bool)
      (last : eof = true → after = []) :
      Stands (before ++ pair :: after) ⟨before.length, true, eof, false, false⟩
        (.at ⟨before, some pair, after⟩)
  | gap (before : List Pair) (pair : Pair) (after : List Pair) :
      Stands (before ++ pair :: after) ⟨before.length, true, false, true, false⟩
        (.at ⟨before, none, pair :: after⟩)
  | behind (before : List Pair) (del : Bool) (left : before ≠ []) :
      Stands before ⟨before.length, true, true, del, false⟩ (.at ⟨before, none, []⟩)
  | emptied (index : ℕ) (del : Bool) : Stands [] ⟨index, false, true, del, false⟩ .emptied
  | adrift (pairs : List Pair) (index : ℕ) (eof : Bool) (left : pairs ≠ []) :
      Stands pairs ⟨index, true, eof, false, true⟩ (.adrift pairs)

theorem Stands.pairs_eq {pairs : List Pair} {cursor : Cursor} {spot : Spot}
    (stands : Stands pairs cursor spot) : spot.pairs = pairs := by
  cases stands <;> simp [Spot.pairs, Zipper.items]

/-- The answer of a movement with a code. -/
def found : Option Rc → Answer Reply
  | none => .ok (.found true)
  | some rc => if rc = .notFound then .ok (.found false) else .throws (.mdb rc)

/-- A call of the engine, and the same call in terms of places. -/
def Agrees (pairs : List Pair) (spot : Spot) (moved : Option (Option Rc × Cursor))
    (ideal : Answer Reply × Spot) : Prop :=
  (moved = none ∧ ideal = (.unknown, spot)) ∨
    ∃ rc cursor spot', moved = some (rc, cursor) ∧ ideal = (found rc, spot') ∧
      Stands pairs { cursor with del := false } spot'

section Moves

variable {db : Db} {pairs : List Pair} {cursor : Cursor} {spot : Spot} {zipper : Zipper Pair}

/-- A call that changes nothing else closes a gap. -/
theorem Stands.settled (stands : Stands pairs cursor spot) :
    Stands pairs { cursor with del := false } spot.settle := by
  cases stands with
  | fresh _ index => exact .fresh pairs index
  | on before pair after eof last => exact .on before pair after eof last
  | gap before pair after => exact .on before pair after false (by simp)
  | behind _ del left => exact .behind pairs false left
  | emptied index del => exact .emptied index false
  | adrift _ index eof left => exact .adrift pairs index eof left

private theorem first_agrees (stands : Stands pairs cursor spot) :
    Agrees pairs spot (some (mdbCursorFirst pairs cursor)) (spot.goTo (Zipper.first? pairs)) := by
  cases pairs with
  | nil => exact .inr ⟨some .notFound, cursor, spot.settle, rfl, rfl, stands.settled⟩
  | cons pair rest =>
    exact .inr ⟨none, _, .at ⟨[], some pair, rest⟩, rfl, rfl, .on [] pair rest false (by simp)⟩

theorem last?_concat (front : List Pair) (pair : Pair) :
    Zipper.last? (front ++ [pair]) = some ⟨front, some pair, []⟩ := by
  simp [Zipper.last?]

/-- A cursor that has not deleted everything finds the last pair. -/
theorem last_agrees (stands : Stands pairs cursor spot) (placed : cursor.adrift = false)
    (left : cursor.eof = true → pairs ≠ []) :
    Agrees pairs spot (mdbCursorLast pairs cursor) (spot.goTo (Zipper.last? pairs)) := by
  rcases List.eq_nil_or_concat pairs with rfl | ⟨front, pair, rfl⟩
  · refine .inr ⟨some .notFound, cursor, spot.settle, ?_, rfl, stands.settled⟩
    cases ended : cursor.eof with
    | true => exact (left ended rfl).elim
    | false => simp [mdbCursorLast, ended]
  · rw [List.concat_eq_append, last?_concat]
    refine .inr ⟨none, { cursor with index := front.length, initialized := true, eof := true },
      .at ⟨front, some pair, []⟩, ?_, rfl, ?_⟩
    · simp [mdbCursorLast]
    · rw [placed]
      exact .on front pair [] true fun _ => rfl

private theorem next_agrees (stands : Stands pairs cursor (.at zipper)) :
    Agrees pairs (.at zipper) (some (mdbCursorNext pairs cursor)) (Spot.goTo (.at zipper) zipper.next?) := by
  cases stands with
  | on before pair after eof last =>
    cases after with
    | nil =>
      refine .inr ⟨some .notFound, ⟨before.length, true, true, false, false⟩, _, ?_, rfl,
        .on before pair [] true fun _ => rfl⟩
      cases eof <;> simp [mdbCursorNext]
    | cons other rest =>
      have inside : eof = false := by
        cases eof with
        | false => rfl
        | true => exact absurd (last rfl) (by simp)
      refine .inr ⟨none, ⟨before.length + 1, true, false, false, false⟩,
        .at ⟨before ++ [pair], some other, rest⟩, ?_, rfl, ?_⟩
      · simp [mdbCursorNext, inside]
      · have moved := Stands.on (before ++ [pair]) other rest false (by simp)
        simpa using moved
  | gap before pair after =>
    refine .inr ⟨none, ⟨before.length, true, false, true, false⟩, .at ⟨before, some pair, after⟩, ?_, ?_,
      .on before pair after false (by simp)⟩
    · simp [mdbCursorNext]
    · simp [Spot.goTo, Zipper.next?, found]
  | behind _ deleted left =>
    exact .inr ⟨some .notFound, ⟨pairs.length, true, true, deleted, false⟩, _, rfl, rfl,
      .behind pairs false left⟩

private theorem prev_agrees (stands : Stands pairs cursor (.at zipper)) :
    Agrees pairs (.at zipper) (some (mdbCursorPrev cursor)) (Spot.goTo (.at zipper) zipper.prev?) := by
  have index : cursor.index = zipper.before.length := by cases stands <;> rfl
  have flags : cursor.initialized = true ∧ cursor.adrift = false := by cases stands <;> exact ⟨rfl, rfl⟩
  have items : pairs = zipper.items := stands.pairs_eq.symm
  rcases List.eq_nil_or_concat zipper.before with start | ⟨front, pair, split⟩
  · refine .inr ⟨some .notFound, cursor, _, ?_, ?_, stands.settled⟩
    · simp [mdbCursorPrev, index, start]
    · simp [Spot.goTo, Zipper.prev?, start, found]
  · rw [List.concat_eq_append] at split
    refine .inr ⟨none, { cursor with index := front.length, eof := false },
      .at ⟨front, some pair, zipper.here.toList ++ zipper.after⟩, ?_, ?_, ?_⟩
    · simp [mdbCursorPrev, index, split]
    · simp [Spot.goTo, Zipper.prev?, split, found]
    · rw [flags.1, flags.2]
      have moved := Stands.on front pair (zipper.here.toList ++ zipper.after) false (by simp)
      have same : pairs = front ++ pair :: (zipper.here.toList ++ zipper.after) := by
        rw [items, Zipper.items, split]
        simp
      rw [same]
      exact moved

private theorem current_agrees (stands : Stands pairs cursor (.at zipper)) :
    Agrees pairs (.at zipper) (some (mdbCursorCurrent pairs cursor))
      (.ok (.found zipper.settle.here.isSome), Spot.settle (.at zipper)) := by
  have settled := stands.settled
  cases stands with
  | on before pair after eof last => exact .inr ⟨none, _, _, by simp [mdbCursorCurrent], rfl, settled⟩
  | gap before pair after => exact .inr ⟨none, _, _, by simp [mdbCursorCurrent], rfl, settled⟩
  | behind _ deleted left =>
    exact .inr ⟨some .notFound, ⟨pairs.length, true, true, deleted, false⟩, _, by simp [mdbCursorCurrent],
      rfl, settled⟩

private theorem search_agrees (stands : Stands pairs cursor spot) (key : Bytes)
    (wanted : Ordering → Bool) :
    Agrees pairs spot (some (mdbCursorSet db pairs cursor key wanted)) (spot.search db key wanted) := by
  unfold mdbCursorSet Spot.search
  by_cases empty : key = []
  · rw [if_pos empty, if_pos empty]
    exact .inr ⟨some .badValsize, cursor, _, rfl, rfl, stands.settled⟩
  rw [if_neg empty, if_neg empty, Zipper.findIdx?_eq, stands.pairs_eq]
  cases moved : Zipper.find? (fun pair => wanted (db.keyType.compare pair.1 key)) pairs with
  | some zipper =>
    have items := Zipper.items_find moved
    obtain ⟨pair, here⟩ : ∃ pair, zipper.here = some pair := by
      unfold Zipper.find? at moved
      split at moved
      · contradiction
      · next pair rest _ =>
        obtain rfl := Option.some.inj moved
        exact ⟨pair, rfl⟩
    obtain ⟨before, _, after⟩ := zipper
    obtain rfl := here
    refine .inr ⟨none, _, .at ⟨before, some pair, after⟩, rfl, rfl, ?_⟩
    have placed := Stands.on before pair after false (by simp)
    rw [← items]
    simpa [Zipper.items] using placed
  | none =>
    refine .inr ⟨some .notFound, _, _, rfl, rfl, ?_⟩
    by_cases none : pairs = []
    · rw [if_pos none]
      -- without a page to search, the cursor is left alone
      cases stands with
      | fresh _ index => exact none ▸ .fresh _ index
      | emptied index deleted => exact .emptied index false
      | on before pair after eof last => exact absurd none (by simp)
      | gap before pair after => exact absurd none (by simp)
      | behind _ deleted left => exact absurd none left
      | adrift _ index eof left => exact absurd none left
    · have placed : (cursor.initialized || !pairs.isEmpty) = true := by simp [none]
      rw [if_neg none]
      simp only [placed]
      exact .adrift pairs cursor.index cursor.eof none

theorem Stands.at_flags (stands : Stands pairs cursor (.at zipper)) :
    cursor.initialized = true ∧ cursor.adrift = false ∧ pairs ≠ [] := by
  cases stands with
  | on before pair after eof last => exact ⟨rfl, rfl, by simp⟩
  | gap before pair after => exact ⟨rfl, rfl, by simp⟩
  | behind _ deleted left => exact ⟨rfl, rfl, left⟩

private theorem move_last_agrees (stands : Stands pairs cursor spot) (readonly : Bool) :
    Agrees pairs spot (mdbCursorMove db pairs cursor .last)
      (spot.perform db readonly (.move .last)) := by
  have items := stands.pairs_eq
  cases spot with
  | fresh pairs' =>
    have agrees := last_agrees stands (by cases stands; rfl) (by cases stands; simp)
    cases stands
    exact agrees
  | «at» zipper =>
    obtain ⟨-, placed, left⟩ := stands.at_flags
    have agrees := last_agrees stands placed fun _ => left
    simp only [mdbCursorMove, placed, Bool.false_eq_true, if_false, Spot.perform, items]
    exact agrees
  | emptied =>
    cases stands
    exact .inl ⟨rfl, rfl⟩
  | adrift pairs' =>
    cases stands
    exact .inl ⟨rfl, rfl⟩

private theorem move_next_agrees (stands : Stands pairs cursor spot) (readonly : Bool) :
    Agrees pairs spot (mdbCursorMove db pairs cursor .next)
      (spot.perform db readonly (.move .next)) := by
  cases spot with
  | fresh pairs' =>
    have agrees := first_agrees stands
    cases stands
    exact agrees
  | «at» zipper =>
    obtain ⟨initialized, placed, -⟩ := stands.at_flags
    have agrees := next_agrees stands
    simp only [mdbCursorMove, placed, initialized, Bool.false_eq_true, Bool.not_true, if_false]
    exact agrees
  | emptied =>
    have agrees := first_agrees stands
    cases stands
    exact agrees
  | adrift pairs' =>
    cases stands
    exact .inl ⟨rfl, rfl⟩

private theorem move_prev_agrees (stands : Stands pairs cursor spot) (readonly : Bool) :
    Agrees pairs spot (mdbCursorMove db pairs cursor .prev)
      (spot.perform db readonly (.move .prev)) := by
  cases spot with
  | fresh pairs' =>
    have settled := stands.settled
    cases stands with
    | fresh _ index =>
      -- the cursor goes to the last pair, and a step back from behind it
      rcases List.eq_nil_or_concat pairs with rfl | ⟨front, pair, rfl⟩
      · exact .inr ⟨some .notFound, _, _, rfl, rfl, settled⟩
      · rw [List.concat_eq_append]
        refine .inr ⟨none, ⟨front.length, true, false, false, false⟩, .at ⟨front, some pair, []⟩, ?_,
          ?_, .on front pair [] false (by simp)⟩
        · simp [mdbCursorMove, mdbCursorLast, mdbCursorPrev]
        · simp [Spot.perform, Spot.goTo, last?_concat, found]
  | «at» zipper =>
    obtain ⟨initialized, placed, -⟩ := stands.at_flags
    have agrees := prev_agrees stands
    simp only [mdbCursorMove, placed, initialized, Bool.false_eq_true, Bool.not_true, if_false]
    exact agrees
  | emptied =>
    cases stands
    exact .inl ⟨rfl, rfl⟩
  | adrift pairs' =>
    cases stands
    exact .inl ⟨rfl, rfl⟩

private theorem move_current_agrees (stands : Stands pairs cursor spot) (readonly : Bool) :
    Agrees pairs spot (mdbCursorMove db pairs cursor .getCurrent)
      (spot.perform db readonly (.move .getCurrent)) := by
  cases spot with
  | fresh pairs' =>
    cases stands
    exact .inr ⟨some .einval, _, _, rfl, rfl, .fresh _ _⟩
  | «at» zipper =>
    obtain ⟨-, placed, -⟩ := stands.at_flags
    have agrees := current_agrees stands
    simp only [mdbCursorMove, placed, Bool.false_eq_true, if_false]
    exact agrees
  | emptied =>
    cases stands
    exact .inr ⟨some .einval, _, _, rfl, rfl, .emptied _ _⟩
  | adrift pairs' =>
    cases stands
    exact .inl ⟨rfl, rfl⟩

/-- Every movement of the engine is the movement among the pairs. -/
theorem move_agrees (stands : Stands pairs cursor spot) (readonly : Bool) (op : Op) :
    Agrees pairs spot (mdbCursorMove db pairs cursor op) (spot.perform db readonly (.move op)) := by
  cases op with
  | first =>
    rw [mdbCursorMove, Spot.perform, stands.pairs_eq]
    exact first_agrees stands
  | set key =>
    rw [mdbCursorMove, Spot.perform]
    exact search_agrees stands key _
  | setRange key =>
    rw [mdbCursorMove, Spot.perform]
    exact search_agrees stands key _
  | last => exact move_last_agrees stands readonly
  | next => exact move_next_agrees stands readonly
  | prev => exact move_prev_agrees stands readonly
  | getCurrent => exact move_current_agrees stands readonly

/-- Where a cursor is after it has deleted a pair. -/
theorem erase_stands (before after : List Pair) {eof : Bool} (last : eof = true → after = []) :
    Stands (before ++ after)
      ⟨before.length, decide (0 < before.length + after.length),
        decide (before.length + after.length ≤ before.length) || eof, true, false⟩
      (if (⟨before, none, after⟩ : Zipper Pair).items = [] then .emptied else .at ⟨before, none, after⟩) := by
  cases after with
  | nil =>
    cases before with
    | nil => exact .emptied 0 true
    | cons pair rest =>
      have stands := Stands.behind (pair :: rest) true (by simp)
      simpa [Zipper.items] using stands
  | cons other rest =>
    have inside : eof = false := by
      cases eof with
      | false => rfl
      | true => exact absurd (last rfl) (by simp)
    have stands := Stands.gap before other rest
    simpa [Zipper.items, inside] using stands

/-- A cursor with a pair at its place, which may be the one behind a gap, deletes it. -/
theorem del_at (before : List Pair) (pair : Pair) (after : List Pair) (eof deleted : Bool)
    (last : eof = true → after = []) :
    ∃ index cursor, mdbCursorDel (before ++ pair :: after) ⟨before.length, true, eof, deleted, false⟩ =
        some (.ok (index, cursor)) ∧
      Stands ((before ++ pair :: after).eraseIdx index) cursor
        (if (⟨before, none, after⟩ : Zipper Pair).items = [] then .emptied
          else .at ⟨before, none, after⟩) := by
  have inside : before.length < (before ++ pair :: after).length := by simp
  have size : (before ++ pair :: after).length - 1 = before.length + after.length := by
    simp only [List.length_append, List.length_cons]
    omega
  have erased : (before ++ pair :: after).eraseIdx before.length = before ++ after := by
    rw [List.eraseIdx_append_of_length_le le_rfl, Nat.sub_self, List.eraseIdx_cons_zero]
  refine ⟨⟨before.length, inside⟩, _, ?_, erased ▸ erase_stands before after last⟩
  simp only [mdbCursorDel, Bool.false_eq_true, if_false, Bool.not_true, dif_pos inside, size]

/-- A deletion takes away the pair that a read would show. -/
theorem del_agrees (stands : Stands pairs cursor spot) :
    (mdbCursorDel pairs cursor = none ∧ spot.delete false = (.unknown, spot)) ∨
    (∃ rc, mdbCursorDel pairs cursor = some (.error rc) ∧ spot.delete false = (.throws (.mdb rc), spot)) ∨
    ∃ index cursor' spot', mdbCursorDel pairs cursor = some (.ok (index, cursor')) ∧
      spot.delete false = (.ok .done, spot') ∧ Stands (pairs.eraseIdx index) cursor' spot' := by
  cases stands with
  | fresh _ index => exact .inr (.inl ⟨.einval, rfl, rfl⟩)
  | emptied index deleted => exact .inr (.inl ⟨.einval, rfl, rfl⟩)
  | adrift _ index eof left => exact .inl ⟨rfl, rfl⟩
  | behind _ deleted left =>
    refine .inr (.inl ⟨.notFound, ?_, rfl⟩)
    simp [mdbCursorDel]
  | on before pair after eof last =>
    obtain ⟨index, cursor, deleted, stands⟩ := del_at before pair after eof false last
    exact .inr (.inr ⟨index, cursor, _, deleted, rfl, stands⟩)
  | gap before pair after =>
    obtain ⟨index, cursor, deleted, stands⟩ := del_at before pair after false true (by simp)
    exact .inr (.inr ⟨index, cursor, _, deleted, rfl, stands⟩)

/-- What a read finds, and where it leaves the cursor. -/
theorem read_agrees (stands : Stands pairs cursor spot) (readonly : Bool) :
    (mdbCursorGet db pairs cursor .getCurrent = none ∧
      spot.perform db readonly .read = (.unknown, spot)) ∨
    (∃ cursor', mdbCursorGet db pairs cursor .getCurrent = some (none, cursor') ∧
      spot.perform db readonly .read = (.ok (.pair pairs[cursor'.index]?), spot.settle) ∧
      Stands pairs cursor' spot.settle) ∨
    ∃ rc cursor', mdbCursorGet db pairs cursor .getCurrent = some (some rc, cursor') ∧
      spot.perform db readonly .read =
        (if rc = .notFound then .ok (.pair none) else .throws (.mdb rc), spot.settle) ∧
      Stands pairs cursor' spot.settle := by
  have settled := stands.settled
  cases stands with
  | fresh _ index => exact .inr (.inr ⟨.einval, _, rfl, rfl, settled⟩)
  | emptied index deleted => exact .inr (.inr ⟨.einval, _, rfl, rfl, settled⟩)
  | adrift _ index eof left => exact .inl ⟨rfl, rfl⟩
  | on before pair after eof last =>
    refine .inr (.inl ⟨_, ?_, ?_, settled⟩)
    · simp [mdbCursorGet, mdbCursorMove, mdbCursorCurrent]
    · simp [Spot.perform, Zipper.settle]
  | gap before pair after =>
    refine .inr (.inl ⟨_, ?_, ?_, settled⟩)
    · simp [mdbCursorGet, mdbCursorMove, mdbCursorCurrent]
    · simp [Spot.perform, Zipper.settle]
  | behind _ deleted left =>
    refine .inr (.inr ⟨.notFound, _, ?_, rfl, settled⟩)
    simp [mdbCursorGet, mdbCursorMove, mdbCursorCurrent]

end Moves

section State

variable {db : Db} {state : State db} {spot : Spot}

/-- The engine's call and the same call among the pairs end alike. -/
structure Alike (state : State db) (performed : Answer Reply × State db)
    (ideal : Answer Reply × Spot) : Prop where
  answer : performed.1 = ideal.1
  stands : Stands performed.2.pairs performed.2.cursor ideal.2
  readonly : performed.2.readonly = state.readonly
  /-- Other databases are not touched. -/
  others : ∀ dbi, dbi ≠ db.dbi → performed.2.store dbi = state.store dbi

theorem move_alike (stands : Stands state.pairs state.cursor spot) (op : Op) :
    Alike state (perform state (.move op)) (spot.perform db state.readonly (.move op)) := by
  rcases (move_agrees stands state.readonly op : Agrees _ _ (mdbCursorMove db _ _ op) _) with
    ⟨moved, ideal⟩ | ⟨rc, cursor, spot', moved, ideal, stands'⟩
  · have get : mdbCursorGet db state.pairs state.cursor op = none := by rw [mdbCursorGet, moved]; rfl
    rw [ideal]
    simp only [perform, cursorOp, get]
    exact ⟨rfl, stands, rfl, fun _ _ => rfl⟩
  · have get : mdbCursorGet db state.pairs state.cursor op = some (rc, { cursor with del := false }) := by
      rw [mdbCursorGet, moved]
      rfl
    rw [ideal]
    simp only [perform, cursorOp, get]
    cases rc with
    | none => exact ⟨rfl, stands', rfl, fun _ _ => rfl⟩
    | some rc =>
      refine ⟨?_, stands', rfl, fun _ _ => rfl⟩
      simp only [found]
      split_ifs <;> rfl

theorem read_alike (stands : Stands state.pairs state.cursor spot) :
    Alike state (perform state .read) (spot.perform db state.readonly .read) := by
  rcases (read_agrees stands state.readonly : _ ∨ _ ∨ _) with
    ⟨get, ideal⟩ | ⟨cursor, get, ideal, stands'⟩ | ⟨rc, cursor, get, ideal, stands'⟩
  · rw [ideal]
    simp only [perform, current, get]
    exact ⟨rfl, stands, rfl, fun _ _ => rfl⟩
  · rw [ideal]
    simp only [perform, current, get]
    exact ⟨rfl, stands', rfl, fun _ _ => rfl⟩
  · rw [ideal]
    simp only [perform, current, get]
    refine ⟨?_, stands', rfl, fun _ _ => rfl⟩
    split_ifs <;> rfl

private theorem del_alike (stands : Stands state.pairs state.cursor spot) :
    Alike state (perform state .del) (spot.perform db state.readonly .del) := by
  simp only [Spot.perform, perform, del]
  cases readonly : state.readonly with
  | true => exact ⟨rfl, stands, rfl, fun _ _ => rfl⟩
  | false =>
    simp only [Bool.false_eq_true, if_false]
    rcases del_agrees stands with
      ⟨deleted, ideal⟩ | ⟨rc, deleted, ideal⟩ | ⟨index, cursor, spot', deleted, ideal, stands'⟩
    · rw [State.pairs] at deleted
      simp only [deleted, ideal]
      exact ⟨rfl, stands, rfl, fun _ _ => rfl⟩
    · rw [State.pairs] at deleted
      simp only [deleted, ideal]
      exact ⟨rfl, stands, rfl, fun _ _ => rfl⟩
    · have deleted : mdbCursorDel state.contents.pairs state.cursor = some (.ok (index, cursor)) :=
        deleted
      simp only [deleted, ideal]
      refine ⟨rfl, stands', readonly.symm, ?_⟩
      intro dbi ne
      simp only [Store.set, Function.update_of_ne ne]

/-- A call of the script does to the cursor and the pairs what it does to the place among them. -/
theorem perform_alike (stands : Stands state.pairs state.cursor spot) (call : Call) :
    Alike state (perform state call) (spot.perform db state.readonly call) := by
  cases call with
  | move op => exact move_alike stands op
  | read => exact read_alike stands
  | del => exact del_alike stands

end State

end NodeKv.Lmdb.Deleting
