import NodeKv.Model.Cache.Get
import NodeKv.Model.Lmdb.Exists

/-! # Looking for pairs through the cache

`Db.prototype.exists` of `lib/cache/db.js` looks for a pair in the current and, if it is not there,
in the old environment. Its two calls have no transaction. Between two rotations, other calls are
made on either environment, each on its own.
-/

namespace NodeKv.Cache.Read

open Lmdb

section Calls

variable (curReturns oldReturns : Returns) (v8 : V8)

/-- `Db.prototype.exists` of the cache. -/
def Db.exists (db : Db) (key val : Value) (cur old : Looking) : Presence × Looking × Looking :=
  let (first, cur) := dbExists curReturns v8 db.cur key val none cur
  -- `||` goes on to the old environment only if the answer is false
  if first = .known (.ok false) then
    let (second, old) := dbExists oldReturns v8 db.old key val none old
    (second, cur, old)
  else (first, cur, old)

end Calls

/-- The two environments, each beside the record of what its callers are owed. -/
structure Environments where
  cur : Looking × Machine.Versions Store
  old : Looking × Machine.Versions Store

def Environments.opened (cur old : Store) : Environments :=
  ⟨(⟨.opened cur, fun _ => false⟩, .opened cur), (⟨.opened old, fun _ => false⟩, .opened old)⟩

inductive Action where
  | cur (look : Look)
  | old (look : Look)
  | exists (db : Db) (key val : Value)
deriving DecidableEq, Repr

/-- A completed call on one of the environments, or on the cache. -/
def Step (v8 : V8) (state : Environments) (action : Action) (next : Environments) : Prop :=
  match action with
  | .cur look => look.Tracked v8 state.cur next.cur ∧ next.old = state.old
  | .old look => look.Tracked v8 state.old next.old ∧ next.cur = state.cur
  | .exists db key val =>
    let (found, cur, old) := db.exists silent silent v8 key val state.cur.1 state.old.1
    found ≠ .known .never ∧ next = ⟨(cur, state.cur.2), (old, state.old.2)⟩

end NodeKv.Cache.Read
