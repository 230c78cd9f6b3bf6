import NodeKv.Model.Lmdb.Session

/-! # Lookups, and writes in a transaction of their own

How a lookup is answered, and the ways that a `put` or `del` without a transaction goes: what it does
to the committed store, and what the script gets to hear of LMDB's codes.
-/

namespace NodeKv.Lmdb

open Machine

namespace Write

/-- The call without a transaction. -/
def perform (returns : Returns) (v8 : V8) (db : Db) : Write → Native → Result Bool × Native
  | put key val => dbPut returns v8 db key val none
  | del key val => dbDel returns v8 db key none val

/-- The call with an optional transaction. -/
def within (returns : Returns) (v8 : V8) (db : Db) (txn : Option ℕ) :
    Write → Native → Result Bool × Native
  | put key val => dbPut returns v8 db key val txn
  | del key val => dbDel returns v8 db key txn val

/-- What LMDB is asked to do, unless a sanitizer rejects an argument. -/
def asked? (v8 : V8) (db : Db) : Write → Option Entry
  | put key val =>
    match db.keyType.check v8 key, db.valType.check v8 val with
    | .ok key, .ok val => some (.put db key.bytes val.bytes)
    | _, _ => none
  | del key val =>
    match db.keyType.check v8 key, db.valType.check v8 val with
    | .ok key, .ok val => some (.del db key.bytes (some val.bytes))
    | _, _ => none

def isDel : Write → Bool
  | put _ _ => false
  | del _ _ => true

end Write

section Lookup

/-- How a lookup among the values of a key is answered. -/
def looked (key : Bytes) (vals : List Bytes) : Result (Option Bytes) :=
  if key = [] then .throws (.mdb .badValsize) else .ok vals.head?

theorem looked_of_ne {key : Bytes} (sized : key ≠ []) (vals : List Bytes) :
    looked key vals = .ok vals.head? := if_neg sized

theorem mdbGet_found (key : Bytes) (vals : List Bytes) (native : Native) :
    Db.get.reply (mdbGet.found silent key vals native).1 = looked key vals ∧
      (mdbGet.found silent key vals native).2 = native.called := by
  have quiet : silent native.calls = none := rfl
  simp only [mdbGet.found, quiet, looked]
  split_ifs
  · exact ⟨rfl, rfl⟩
  · cases vals <;> exact ⟨rfl, rfl⟩

/-- A lookup changes nothing, but LMDB may have been asked. -/
theorem mdbGet_state (returns : Returns) (db : Db) (key : Bytes) (txn : Option Txn)
    (native : Native) :
    (mdbGet returns db key txn native).2 = native ∨
      (mdbGet returns db key txn native).2 = native.called := by
  have found (vals : List Bytes) : (mdbGet.found returns key vals native).2 = native.called := by
    unfold mdbGet.found
    cases returns native.calls with
    | some rc => rfl
    | none =>
      dsimp only
      split_ifs
      · rfl
      · cases vals <;> rfl
  cases txn with
  | none => exact .inl rfl
  | some txn =>
    cases txn with
    | writer number view entries => exact .inr (found _)
    | reader reader =>
      simp only [mdbGet]
      split_ifs
      · exact .inl rfl
      · exact .inr (found _)

end Lookup

section Scope

variable {returns : Returns} {native : Native}

/-- The three ways through an implicit write: no transaction was begun, or the write failed in it
and it was aborted, or the write succeeded and a commit was tried. -/
theorem writeScope_cases (unlocked : native.locked = false) (entry : Entry) :
    (∃ rc next, writeScope returns .undefined entry native = some (some rc, next) ∧
        next.committed = native.committed ∧ next.log = native.log ∧
        (returns native.calls = none → returns (native.calls + 1) = some rc ∨
          returns (native.calls + 1) = none ∧ entry.write native.committed = none ∧
            rc = .notFound) ∧
        (returns native.calls ≠ none → rc = .einval)) ∨
      ∃ store next, writeScope returns .undefined entry native = some (none, next) ∧
        returns native.calls = none ∧ returns (native.calls + 1) = none ∧
        entry.write native.committed = some store ∧
        (next.committed, next.log) =
          if returns (native.calls + 2) = none then (store, native.log ++ [[entry]])
          else (native.committed, native.log) := by
  cases began : returns native.calls with
  | some rc =>
    refine .inl ⟨.einval, native.called, ?_, rfl, rfl, nofun, fun _ => rfl⟩
    simp only [writeScope, beginWrite, began, mdbWrite]
  | none =>
    have begun : beginWrite returns native = some (.ok (.writer native.begun native.committed []),
        { native.called with locked := true, begun := native.begun + 1 }) := by
      simp only [beginWrite, began, unlocked, Bool.false_eq_true, if_false]
    cases wrote : returns (native.calls + 1) with
    | some rc =>
      simp only [writeScope, begun, mdbWrite, Native.called, wrote]
      exact .inl ⟨rc, _, rfl, rfl, rfl, fun _ => .inl rfl, fun begun => absurd rfl begun⟩
    | none =>
      cases written : entry.write native.committed with
      | none =>
        simp only [writeScope, begun, mdbWrite, Native.called, wrote, written]
        exact .inl ⟨.notFound, _, rfl, rfl, rfl, fun _ => .inr ⟨trivial, trivial, rfl⟩,
          fun begun => absurd rfl begun⟩
      | some store =>
        simp only [writeScope, begun, mdbWrite, Native.called, wrote, written]
        refine .inr ⟨store, _, rfl, trivial, trivial, rfl, ?_⟩
        cases committed : returns (native.calls + 2) <;>
          simp [mdbCommit, committed, Native.called]

end Scope

section Write

/-- A rejected argument is thrown before anything happens; otherwise LMDB's code is reported. -/
theorem Write.within_cases (returns : Returns) (v8 : V8) (db : Db) (txn : Option ℕ) (write : Write)
    (native : Native) :
    (write.asked? v8 db = none ∧
        ∃ error, write.within returns v8 db txn native = (.throws error, native)) ∨
      ∃ entry, write.asked? v8 db = some entry ∧ write.within returns v8 db txn native =
        match writeScope returns (txnArg txn) entry native with
        | none => (.never, native)
        | some (rc, next) => (write.reply rc, next) := by
  cases write with
  | put key val =>
    simp only [Write.asked?, Write.within, dbPut]
    rcases db.keyType.check_cases v8 key with ⟨error, rejected, checked⟩ | ⟨key', sanitized, checked⟩
    · rw [rejected, checked]
      exact .inl ⟨rfl, error, rfl⟩
    · rcases db.valType.check_cases v8 val with
        ⟨error, rejected, checked'⟩ | ⟨val', sanitized', checked'⟩
      · rw [sanitized, rejected, checked, checked']
        exact .inl ⟨rfl, error, rfl⟩
      · rw [sanitized, sanitized', checked, checked']
        refine .inr ⟨_, rfl, ?_⟩
        simp only [Db.put, Datum.encode_value]
        split <;> simp [*, Write.reply]
  | del key val =>
    simp only [Write.asked?, Write.within, dbDel]
    rcases db.keyType.check_cases v8 key with ⟨error, rejected, checked⟩ | ⟨key', sanitized, checked⟩
    · rw [rejected, checked]
      exact .inl ⟨rfl, error, rfl⟩
    · rcases db.valType.check_cases v8 val with
        ⟨error, rejected, checked'⟩ | ⟨val', sanitized', checked'⟩
      · rw [sanitized, rejected, checked, checked']
        exact .inl ⟨rfl, error, rfl⟩
      · rw [sanitized, sanitized', checked, checked']
        refine .inr ⟨_, rfl, ?_⟩
        simp only [Db.del, Datum.encode_value]
        split
        · simp [*]
        · simp [*, Write.reply]
        · simp only [*, Write.reply]
          split_ifs <;> rfl

theorem Write.perform_cases (returns : Returns) (v8 : V8) (db : Db) (write : Write)
    (native : Native) :
    (write.asked? v8 db = none ∧
        ∃ error, write.perform returns v8 db native = (.throws error, native)) ∨
      ∃ entry, write.asked? v8 db = some entry ∧ write.perform returns v8 db native =
        match writeScope returns .undefined entry native with
        | none => (.never, native)
        | some (rc, next) => (write.reply rc, next) := by
  have alone : write.perform returns v8 db native = write.within returns v8 db none native := by
    cases write <;> rfl
  rw [alone]
  exact write.within_cases returns v8 db none native

theorem Write.reply_ne_never (write : Write) (rc : Option Rc) : write.reply rc ≠ .never := by
  cases rc with
  | none => cases write <;> nofun
  | some rc =>
    cases write with
    | put key val => nofun
    | del key val =>
      rw [Write.reply]
      split_ifs <;> nofun

theorem Write.reply_some (write : Write) (rc : Rc) :
    write.reply (some rc) = .ok false ∧ write.isDel ∧ rc = .notFound ∨
      ∃ error, write.reply (some rc) = .throws error := by
  cases write with
  | put key val => exact .inr ⟨.mdb rc, rfl⟩
  | del key val =>
    by_cases missing : rc = .notFound
    · exact .inl ⟨if_pos missing, rfl, missing⟩
    · exact .inr ⟨.mdb rc, if_neg missing⟩

end Write

end NodeKv.Lmdb
