import NodeKv.Model.Lmdb.Cursor
import NodeKv.Proofs.Compare

/-! # Cursors that delete

`cursor::del` with the movements of a cursor, in a database without duplicates. LMDB keeps three
flags: the cursor has been placed, it has come to the end, and the pair it stood on was deleted. A
cursor that has deleted stays at the same index, where the following pair is now, and remembers this
for the next call only: `next` then stays as well. At the end `next` leaves the cursor on the last
pair, and `prev` does not look whether it was at the end.

The index counts over all pages. A search that has failed leaves the cursor placed, if there are
pages at all. Where this is depends on the pages, and so does what the cursor does from there. A cursor
that has deleted the only pair keeps an empty page that is no longer part of the tree; `last` and `prev`
take it for the last page, and go to the index before 0, which is 65535: what they read there is far
behind the start of the page. Both are `unknown` here. LMDB is assumed not to fail for reasons of its
own.
-/

namespace NodeKv.Lmdb

open Machine

abbrev Pair := Bytes × Bytes

section Erase

variable {db : Db} {store : Store} (contents : Contents db store)

theorem Contents.nodup : contents.pairs.Nodup := by
  refine contents.ordered.imp ?_
  rintro left _ less rfl
  simp [Db.comparePairs, DataType.compare_self] at less

/-- What is left without one pair, if no key has two. -/
theorem Contents.mem_erase (single : ∀ key, (store db.dbi key).length ≤ 1)
    (index : Fin contents.pairs.length) (key val : Bytes) :
    (key, val) ∈ contents.pairs.eraseIdx index ↔
      val ∈ store.set db (contents.pairs.get index).1 [] db.dbi key := by
  have removed := (contents.mem_pairs _ _).mp (contents.pairs.get_mem index)
  rw [List.mem_eraseIdx_iff_getElem?]
  by_cases same : key = (contents.pairs.get index).1
  · have gone : store.set db (contents.pairs.get index).1 [] db.dbi key = [] := by
      simp [Store.set, same]
    rw [gone]
    refine iff_of_false ?_ List.not_mem_nil
    rintro ⟨other, ne, found⟩
    have stored := (contents.mem_pairs key val).mp (List.mem_of_getElem? found)
    have alone : val = (contents.pairs.get index).2 := by
      rw [← same] at removed
      obtain ⟨only, alone⟩ := List.length_eq_one_iff.mp
        ((single key).antisymm (List.length_pos_of_mem stored))
      rw [alone, List.mem_singleton] at stored removed
      exact stored.trans removed.symm
    have pair : contents.pairs[other]? = contents.pairs[index.val]? := by
      rw [found, List.getElem?_eq_getElem index.isLt, alone, same]
      rfl
    have within := (List.getElem?_eq_some_iff.mp found).1
    exact ne ((List.getElem?_inj within contents.nodup).mp pair)
  · have kept : store.set db (contents.pairs.get index).1 [] db.dbi key = store db.dbi key := by
      rw [Store.set, Function.update_self, Function.update_of_ne same]
    rw [kept, ← contents.mem_pairs]
    constructor
    · rintro ⟨other, -, found⟩
      exact List.mem_of_getElem? found
    · intro member
      obtain ⟨other, found⟩ := List.getElem?_of_mem member
      refine ⟨other, ?_, found⟩
      rintro rfl
      rw [List.getElem?_eq_getElem index.isLt] at found
      exact same (congrArg Prod.fst (Option.some.inj found)).symm

end Erase

namespace Deleting

/-- `mc_ki`, `mc_flags`, and whether the cursor has been placed by a search that failed. -/
structure Cursor where
  index : ℕ
  /-- `C_INITIALIZED`. -/
  initialized : Bool
  /-- `C_EOF`. -/
  eof : Bool
  /-- `C_DEL`. -/
  del : Bool
  adrift : Bool
deriving DecidableEq, Repr

/-- The part of `MDB_cursor_op` that needs no duplicates. -/
inductive Op where
  | getCurrent
  | first
  | last
  | next
  | prev
  | set (key : Bytes)
  | setRange (key : Bytes)
deriving DecidableEq, Repr

section Engine

variable (db : Db) (pairs : List Pair) (cursor : Cursor)

def mdbCursorFirst : Option Rc × Cursor :=
  if pairs.length = 0 then (some .notFound, cursor)
  else (none, { cursor with index := 0, initialized := true, eof := false, adrift := false })

/-- A cursor at the end is taken to be on the last page. -/
def mdbCursorLast : Option (Option Rc × Cursor) :=
  if pairs.length = 0 then if cursor.eof then none else some (some .notFound, cursor)
  else some (none, { cursor with index := pairs.length - 1, initialized := true, eof := true })

def mdbCursorNext : Option Rc × Cursor :=
  if cursor.eof then (some .notFound, cursor)
  else if cursor.del then (none, cursor)
  else if pairs.length ≤ cursor.index + 1 then (some .notFound, { cursor with eof := true })
  else (none, { cursor with index := cursor.index + 1 })

def mdbCursorPrev : Option Rc × Cursor :=
  if cursor.index = 0 then (some .notFound, cursor)
  else (none, { cursor with index := cursor.index - 1, eof := false })

/-- `mdb_cursor_set`, with what it looks for. -/
def mdbCursorSet (key : Bytes) (wanted : Ordering → Bool) : Option Rc × Cursor :=
  if key = [] then (some .badValsize, cursor)
  else
    match pairs.findIdx? fun pair => wanted (db.keyType.compare pair.1 key) with
    | some index => (none, { cursor with index := index, initialized := true, eof := false, adrift := false })
    | none =>
      -- `mdb_page_search` sets `C_INITIALIZED` before the key is looked for in the page
      let placed := cursor.initialized || !pairs.isEmpty
      (some .notFound, { cursor with initialized := placed, adrift := placed })

/-- `MDB_GET_CURRENT`. -/
def mdbCursorCurrent : Option Rc × Cursor :=
  if !cursor.initialized then (some .einval, cursor)
  else if pairs.length ≤ cursor.index then (some .notFound, { cursor with index := pairs.length })
  else (none, cursor)

/-- The body of `mdb_cursor_get`. -/
def mdbCursorMove : Op → Option (Option Rc × Cursor)
  | .first => some (mdbCursorFirst pairs cursor)
  | .set key => some (mdbCursorSet db pairs cursor key (· = .eq))
  | .setRange key => some (mdbCursorSet db pairs cursor key (·.isGE))
  | .getCurrent => if cursor.adrift then none else some (mdbCursorCurrent pairs cursor)
  | .last => if cursor.adrift then none else mdbCursorLast pairs cursor
  | .next =>
    if cursor.adrift then none
    else if !cursor.initialized then some (mdbCursorFirst pairs cursor)
    else some (mdbCursorNext pairs cursor)
  | .prev =>
    if cursor.adrift then none
    else if !cursor.initialized then
      match mdbCursorLast pairs cursor with
      | some (none, cursor) => some (mdbCursorPrev { cursor with index := cursor.index + 1 })
      | other => other
    else some (mdbCursorPrev cursor)

/-- `mdb_cursor_get`. -/
def mdbCursorGet (op : Op) : Option (Option Rc × Cursor) :=
  (mdbCursorMove db pairs cursor op).map fun (rc, cursor) => (rc, { cursor with del := false })

/-- `mdb_cursor_del` in a write transaction: the code, or where the pair was and where the cursor is
then. -/
def mdbCursorDel : Option (Except Rc (Fin pairs.length × Cursor)) :=
  if cursor.adrift then none
  else if !cursor.initialized then some (.error .einval)
  else if inside : cursor.index < pairs.length then
    let size := pairs.length - 1
    some (.ok (⟨cursor.index, inside⟩, { cursor with
      -- a tree that is empty is dropped, and the cursor with it
      initialized := decide (0 < size)
      eof := decide (size ≤ cursor.index) || cursor.eof
      del := true }))
  else some (.error .notFound)

end Engine

/-- A cursor in a transaction, with the store that the transaction sees. -/
structure State (db : Db) where
  readonly : Bool
  store : Store
  contents : Contents db store
  /-- There are no duplicates, and `MDB_DUPSORT` is not set. -/
  plain : db.allowDup = false
  single : ∀ key, (store db.dbi key).length ≤ 1
  cursor : Cursor

/-- How a method ends. -/
inductive Answer (α : Type*) where
  | ok (val : α)
  | throws (error : Error)
  | unknown
deriving DecidableEq, Repr

section Methods

variable {db : Db} (state : State db)

def State.pairs : List Pair := state.contents.pairs

/-- `cursor::ctor`. -/
def State.opened (readonly : Bool) {store : Store} (contents : Contents db store)
    (plain : db.allowDup = false) (single : ∀ key, (store db.dbi key).length ≤ 1) : State db :=
  ⟨readonly, store, contents, plain, single, ⟨0, false, false, false, false⟩⟩

/-- `cursor::cursorOp` and `cursor::cursorKeyOp`. -/
def cursorOp (op : Op) : Answer Bool × State db :=
  match mdbCursorGet db state.pairs state.cursor op with
  | none => (.unknown, state)
  | some (none, cursor) => (.ok true, { state with cursor := cursor })
  | some (some rc, cursor) =>
    (if rc = .notFound then .ok false else .throws (.mdb rc), { state with cursor := cursor })

/-- `cursor::key` and `cursor::value`, up to the conversion of what they have found. -/
def current : Answer (Option Pair) × State db :=
  match mdbCursorGet db state.pairs state.cursor .getCurrent with
  | none => (.unknown, state)
  | some (none, cursor) => (.ok state.pairs[cursor.index]?, { state with cursor := cursor })
  | some (some rc, cursor) =>
    (if rc = .notFound then .ok none else .throws (.mdb rc), { state with cursor := cursor })

/-- `cursor::del`. -/
def del : Answer Unit × State db :=
  if state.readonly then (.throws (.mdb .eacces), state)
  else
    match mdbCursorDel state.contents.pairs state.cursor with
    | none => (.unknown, state)
    | some (.error rc) => (.throws (.mdb rc), state)
    | some (.ok (index, cursor)) =>
      (.ok (), {
        readonly := state.readonly
        store := state.store.set db (state.contents.pairs.get index).1 []
        contents :=
          { pairs := state.contents.pairs.eraseIdx index
            mem_pairs := state.contents.mem_erase state.single index
            ordered := state.contents.ordered.sublist (List.eraseIdx_sublist ..) }
        plain := state.plain
        single := by
          intro key
          by_cases same : key = (state.contents.pairs.get index).1
          · simp [Store.set, same]
          · rw [Store.set, Function.update_self, Function.update_of_ne same]
            exact state.single key
        cursor := cursor })

end Methods

/-- A call of the script. -/
inductive Call where
  | move (op : Op)
  | read
  | del
deriving DecidableEq, Repr

/-- What the script is answered. -/
inductive Reply where
  | found (found : Bool)
  | pair (pair : Option Pair)
  | done
deriving DecidableEq, Repr

def Answer.map {α β : Type*} (f : α → β) : Answer α → Answer β
  | ok val => ok (f val)
  | throws error => throws error
  | unknown => unknown

def perform {db : Db} (state : State db) : Call → Answer Reply × State db
  | .move op => let (answer, state) := cursorOp state op; (answer.map .found, state)
  | .read => let (answer, state) := current state; (answer.map .pair, state)
  | .del => let (answer, state) := Deleting.del state; (answer.map fun _ => .done, state)

end Deleting

end NodeKv.Lmdb
