import NodeKv.Machine.Versions
import NodeKv.Proofs.Lmdb.Readers
import NodeKv.Proofs.Lmdb.Scope

/-! # The views of a session

The native environment keeps the committed state and every transaction's view as the calls of a
session ask for. `Session.event` says what a call is owed, from its arguments and from whether it
threw; `Native.versions` is what the environment holds. Each call takes the one to the other, and
keeps the rules on readers while it does: `Effect` says both, once for each method.
-/

namespace NodeKv.Lmdb

open Machine

namespace Session

/-- A write that took place, in a transaction or on its own. -/
def written (txn : Option ℕ) (entry : Entry) : Event Store :=
  match txn with
  | none => .write entry.apply
  | some handle => .change handle entry.apply

/-- What a call did, seen from its caller. A call that threw did nothing, but a transaction that
could not be renewed goes on with the snapshot it had, unprotected. -/
def event (v8 : V8) : Session → (returned : Bool) → Event Store
  | get _ _ _, _ => .nothing
  | put db key val txn, true =>
    match db.keyType.check v8 key, db.valType.check v8 val with
    | .ok key, .ok val => written txn (.put db key.bytes val.bytes)
    | _, _ => .nothing
  | del db key txn val, true =>
    match db.keyType.check v8 key, db.valType.check v8 val with
    | .ok key, .ok val => written txn (.del db key.bytes (some val.bytes))
    | _, _ => .nothing
  | beginTxn readonly, true => .begin (!readonly)
  | commit handle, true => .commit handle
  | abort handle, true => .abort handle
  | reset handle, true => .suspend handle
  | renew handle, true => .renew handle
  | renew handle, false => .resume handle
  | _, false => .nothing

/-- A session beside the record of what its calls are owed. -/
def Tracked (v8 : V8) (state : Native × Versions Store) (call : Session)
    (next : Native × Versions Store) : Prop :=
  Step v8 state.1 call next.1 ∧
    next.2 = state.2.record (call.event v8 (call.run v8 state.1).returned?.isSome)

end Session

/-- The view an `MDB_txn` gives. -/
def Txn.view : Option Txn → View Store
  | none => .closed
  | some (.reader txn) =>
    if txn.reset then .suspended txn.snapshot
    else if txn.slot then .live false txn.snapshot
    else .resumed txn.snapshot
  | some (.writer _ view _) => .live true view

namespace Native

/-- What the environment holds. -/
def versions (native : Native) : Versions Store where
  committed := native.committed
  writes handle := !(native.txns handle).readonly
  views handle := Txn.view (native.txns handle).txn
  count := native.count

/-- Setting the transaction of an object sets its view. -/
theorem versions_setTxn {native middle : Native} {handle : ℕ} {txn : Option Txn} {view : View Store}
    (same : middle.versions = native.versions) (sees : Txn.view txn = view) :
    (middle.setTxn handle txn).versions = native.versions.setView handle view := by
  rw [← same, ← sees]
  unfold versions Versions.setView
  congr 1
  · funext other
    rcases eq_or_ne other handle with rfl | ne
    · simp [setTxn]
    · simp [setTxn, ne]
  · funext other
    rcases eq_or_ne other handle with rfl | ne
    · simp [setTxn]
    · simp [setTxn, ne]

/-- Ending a transaction publishes its view, if it writes. -/
theorem versions_commit {native middle : Native} {handle : ℕ}
    (published : middle.versions = { native.versions with
      committed := (Txn.view (native.txns handle).txn).publish native.committed }) :
    (middle.setTxn handle none).versions = native.versions.record (.commit handle) := by
  have ended : (middle.setTxn handle none).versions = middle.versions.setView handle .closed :=
    versions_setTxn rfl rfl
  rw [ended, published]
  rfl

private theorem versions_wrap (native : Native) (readonly : Bool) {txn : Txn}
    (view : Txn.view (some txn) = .live (!readonly) native.committed) :
    (native.wrap ⟨readonly, some txn⟩).versions = native.versions.record (.begin (!readonly)) := by
  unfold versions Versions.record
  congr 1
  · funext other
    rcases eq_or_ne other native.count with rfl | ne
    · simp [wrap]
    · simp [wrap, ne]
  · funext other
    rcases eq_or_ne other native.count with rfl | ne
    · simp [wrap, view]
    · simp [wrap, ne]

end Native

/-- What a call did: to the transaction objects, and to what they see. -/
structure Effect (native : Native) (event : Event Store) (next : Native) : Prop where
  moves : Moves native next
  versions : next.versions = native.versions.record event

/-- A call that threw, or that only read. -/
theorem Effect.same {native next : Native} (disciplined : Disciplined native)
    (readers : next.readers = native.readers) (versions : next.versions = native.versions) :
    Effect native .nothing next :=
  ⟨moves_same disciplined readers, versions⟩

section Calls

variable {native : Native} {handle : ℕ}

private theorem txnCtor_effect (v8 : V8) (disciplined : Disciplined native) (readonly : Bool) :
    Effect native
      ((Session.beginTxn readonly).event v8 (txnCtor silent readonly native).1.returned)
      (txnCtor silent readonly native).2 := by
  have absent : native.holdsSlot native.count = false := by
    rw [Native.holdsSlot, disciplined.fresh native.count (Nat.le_refl _)]
    rfl
  cases readonly with
  | true =>
    cases slot : native.slotTaken with
    | true =>
      simp only [txnCtor, beginRead, silent, slot, ↓reduceIte]
      exact .same disciplined rfl rfl
    | false =>
      simp only [txnCtor, beginRead, silent, slot, Bool.false_eq_true, ↓reduceIte]
      refine ⟨moves_wrap disciplined rfl ?_ ?_, Native.versions_wrap
        { native.called with slotTaken := true } true rfl⟩
      · exact .acquired slot rfl (Native.wrap_holdsSlot ..)
      · rintro _ ⟨⟩ again
        cases again
  | false =>
    cases locked : native.locked with
    | true =>
      simp only [txnCtor, beginWrite, silent, locked, Bool.false_eq_true, ↓reduceIte]
      exact .same disciplined rfl rfl
    | false =>
      simp only [txnCtor, beginWrite, silent, locked, Bool.false_eq_true, ↓reduceIte]
      refine ⟨moves_wrap disciplined rfl ?_ ?_, Native.versions_wrap
        { native.called with locked := true, begun := native.begun + 1 } false rfl⟩
      · exact .kept rfl ((Native.wrap_holdsSlot ..).trans absent.symm)
      · rintro _ ⟨⟩

private theorem txnCommit_effect (v8 : V8) (disciplined : Disciplined native)
    (known : handle < native.count) :
    Effect native ((Session.commit handle).event v8 (txnCommit silent handle native).1.returned)
      (txnCommit silent handle native).2 := by
  cases found : (native.txns handle).txn with
  | none =>
    simp only [txnCommit, found]
    exact .same disciplined rfl rfl
  | some txn =>
    cases txn with
    | reader reader =>
      have unpublished : native.versions = { native.versions with
          committed := (Txn.view (native.txns handle).txn).publish native.committed } := by
        rw [found]
        cases reset : reader.reset <;> cases slot : reader.slot <;>
          simp [Native.versions, Txn.view, reset, slot, View.publish]
      cases slot : reader.slot <;>
        simp only [txnCommit, found, mdbCommit, slot, Bool.false_eq_true, ↓reduceIte]
      · exact ⟨⟨handle, changes_end disciplined known found rfl (by simp [Txn.slot, slot])⟩,
          Native.versions_commit unpublished⟩
      · exact ⟨⟨handle, changes_end disciplined known found rfl (by simp [Txn.slot, slot])⟩,
          Native.versions_commit unpublished⟩
    | writer number view entries =>
      simp only [txnCommit, found, mdbCommit, silent]
      refine ⟨⟨handle, changes_end disciplined known found rfl rfl⟩, Native.versions_commit ?_⟩
      rw [found]
      rfl

private theorem txnAbort_effect (v8 : V8) (disciplined : Disciplined native)
    (known : handle < native.count) :
    Effect native ((Session.abort handle).event v8 (txnAbort handle native).1.returned)
      (txnAbort handle native).2 := by
  cases found : (native.txns handle).txn with
  | none =>
    simp only [txnAbort, found]
    exact .same disciplined rfl rfl
  | some txn =>
    simp only [txnAbort, found]
    cases txn with
    | reader reader =>
      cases slot : reader.slot <;> simp only [mdbAbort, slot, Bool.false_eq_true, ↓reduceIte]
      · exact ⟨⟨handle, changes_end disciplined known found rfl (by simp [Txn.slot, slot])⟩,
          Native.versions_setTxn rfl rfl⟩
      · exact ⟨⟨handle, changes_end disciplined known found rfl (by simp [Txn.slot, slot])⟩,
          Native.versions_setTxn rfl rfl⟩
    | writer number view entries =>
      exact ⟨⟨handle, changes_end disciplined known found rfl rfl⟩, Native.versions_setTxn rfl rfl⟩

theorem Native.holdsSlot_reader {reader : Reader}
    (found : (native.txns handle).txn = some (.reader reader)) :
    native.holdsSlot handle = reader.slot := by
  rw [Native.holdsSlot, found, Option.any_some, Txn.slot]

private theorem txnReset_effect (v8 : V8) (disciplined : Disciplined native)
    (known : handle < native.count) :
    Effect native ((Session.reset handle).event v8 (txnReset handle native).1.returned)
      (txnReset handle native).2 := by
  cases found : (native.txns handle).txn with
  | none =>
    simp only [txnReset, found]
    exact .same disciplined rfl rfl
  | some txn =>
    cases txn with
    | writer number view entries =>
      simp only [txnReset, found]
      exact .same disciplined rfl rfl
    | reader reader =>
      have held := Native.holdsSlot_reader found
      have suspended : View.suspended reader.snapshot =
          (Txn.view (native.txns handle).txn).suspend := by
        rw [found]
        cases reset : reader.reset <;> cases slot : reader.slot <;>
          simp [Txn.view, reset, slot, View.suspend]
      have empty : ∀ after, some (Txn.reader { reader with slot := false, reset := true }) =
          some (.reader after) → after.reset = true → after.slot = false := by
        rintro _ ⟨⟩ -
        rfl
      cases slot : reader.slot <;>
        simp only [txnReset, found, mdbReset, slot, Bool.false_eq_true, ↓reduceIte]
      · refine ⟨⟨handle, .of_setTxn disciplined rfl known ?_ empty⟩,
          Native.versions_setTxn rfl suspended⟩
        exact .kept rfl ((Native.setTxn_holdsSlot ..).trans (held.trans slot).symm)
      · refine ⟨⟨handle, .of_setTxn disciplined rfl known ?_ empty⟩,
          Native.versions_setTxn rfl suspended⟩
        exact .released (held.trans slot) rfl (Native.setTxn_holdsSlot ..)

/-- A renewal that failed, of an object whose transaction is live or that has none. -/
theorem Effect.resume (disciplined : Disciplined native) (live :
    (Txn.view (native.txns handle).txn).resume = Txn.view (native.txns handle).txn) {next : Native}
    (readers : next.readers = native.readers) (versions : next.versions = native.versions) :
    Effect native (.resume handle) next := by
  refine ⟨moves_same disciplined readers, versions.trans ?_⟩
  change native.versions = native.versions.setView handle (Txn.view _).resume
  rw [live]
  exact (native.versions.setView_self handle).symm

private theorem txnRenew_writer_effect (v8 : V8) (disciplined : Disciplined native)
    (fits : native.versions.Fits) (known : handle < native.count)
    (readonly : (native.txns handle).readonly = false) :
    Effect native ((Session.renew handle).event v8 (txnRenew silent handle native).1.returned)
      (txnRenew silent handle native).2 := by
  have kind : (Txn.view (native.txns handle).txn).Fits (!(native.txns handle).readonly) :=
    fits handle
  simp only [txnRenew, readonly, Bool.false_eq_true, ↓reduceIte]
  cases found : (native.txns handle).txn with
  | some txn =>
    -- The transaction is still open, and is live because it writes.
    refine .resume disciplined ?_ rfl rfl
    rw [found, readonly] at kind
    rw [found]
    cases view : Txn.view (some txn) with
    | closed => rfl
    | live writes store => rfl
    | resumed store => rfl
    | suspended store =>
      rw [view] at kind
      cases kind
  | none =>
    cases locked : native.locked with
    | true =>
      simp only [beginWrite, silent, locked, Option.isSome_none, Bool.false_eq_true, ↓reduceIte]
      exact .resume disciplined (by rw [found]; rfl) rfl rfl
    | false =>
      simp only [beginWrite, silent, locked, Option.isSome_none, Bool.false_eq_true, ↓reduceIte]
      refine ⟨⟨handle, .of_setTxn disciplined rfl known (.kept rfl ?_) ?_⟩,
        Native.versions_setTxn rfl ?_⟩
      · rw [Native.setTxn_holdsSlot, Native.holdsSlot, found]
        rfl
      · rintro _ ⟨⟩
      · simp [Txn.view, Native.versions, readonly]

private theorem txnRenew_reader_effect (v8 : V8) (disciplined : Disciplined native)
    (known : handle < native.count) (readonly : (native.txns handle).readonly = true) :
    Effect native ((Session.renew handle).event v8 (txnRenew silent handle native).1.returned)
      (txnRenew silent handle native).2 := by
  simp only [txnRenew, readonly, ↓reduceIte]
  cases found : (native.txns handle).txn with
  | none => exact .resume disciplined (by rw [found]; rfl) rfl rfl
  | some txn =>
    cases txn with
    | writer number view entries => exact .resume disciplined (by rw [found]; rfl) rfl rfl
    | reader reader =>
      have held := Native.holdsSlot_reader found
      cases reset : reader.reset with
      | false =>
        simp only [mdbRenew, reset, Bool.false_eq_true, ↓reduceIte]
        refine ⟨⟨handle, .of_setTxn disciplined rfl known ?_ ?_⟩, Native.versions_setTxn rfl ?_⟩
        · exact .kept rfl ((Native.setTxn_holdsSlot ..).trans held.symm)
        · rintro _ ⟨⟩ again
          cases reset.symm.trans again
        · cases slot : reader.slot <;>
            simp [Native.versions, found, Txn.view, reset, slot, View.resume]
      | true =>
        have empty := disciplined.reset handle reader found reset
        cases slot : native.slotTaken with
        | true =>
          simp only [mdbRenew, reset, silent, slot, ↓reduceIte]
          refine ⟨⟨handle, .of_setTxn disciplined rfl known ?_ ?_⟩, Native.versions_setTxn rfl ?_⟩
          · exact .kept rfl ((Native.setTxn_holdsSlot ..).trans held.symm)
          · rintro _ ⟨⟩ -
            exact empty
          · simp [Native.versions, found, Txn.view, reset, empty, View.resume]
        | false =>
          simp only [mdbRenew, reset, silent, slot, Bool.false_eq_true, ↓reduceIte]
          refine ⟨⟨handle, .of_setTxn disciplined rfl known ?_ ?_⟩, Native.versions_setTxn rfl ?_⟩
          · exact .acquired slot rfl (Native.setTxn_holdsSlot ..)
          · rintro _ ⟨⟩ again
            cases again
          · simp [Native.versions, Txn.view, readonly]

/-- What a write leaves of the transaction it was made in, with its code. -/
structure Wrote (entry : Entry) (txn : Option Txn) (native : Native)
    (after : Option Rc × Option Txn × Native) : Prop where
  slot : after.2.1.any Txn.slot = txn.any Txn.slot
  reader : ∀ reader, after.2.1 = some (.reader reader) → txn = some (.reader reader)
  readers : after.2.2.readers = native.readers
  versions : after.2.2.versions = native.versions
  /-- It fails with `MDB_NOTFOUND` only where it would have changed nothing. -/
  view : match after.1 with
    | none => Txn.view after.2.1 = (Txn.view txn).change entry.apply
    | some rc => Txn.view after.2.1 = Txn.view txn ∧
        (rc = .notFound → (Txn.view txn).change entry.apply = Txn.view txn)

private theorem mdbWrite_wrote (entry : Entry) (txn : Option Txn) (native : Native) :
    Wrote entry txn native (mdbWrite silent entry txn native) := by
  cases txn with
  | none => exact ⟨rfl, fun _ => id, rfl, rfl, rfl, by rintro ⟨⟩⟩
  | some txn =>
    cases txn with
    | reader reader =>
      refine ⟨rfl, fun _ => id, rfl, rfl, rfl, ?_⟩
      cases reader.reset <;> rintro ⟨⟩
    | writer number view entries =>
      cases written : entry.write view with
      | some after =>
        simp only [mdbWrite, silent, written]
        refine ⟨rfl, by rintro _ ⟨⟩, rfl, rfl, ?_⟩
        simp [Txn.view, View.change, Entry.apply, written]
      | none =>
        simp only [mdbWrite, silent, written]
        refine ⟨rfl, by rintro _ ⟨⟩, rfl, rfl, rfl, fun _ => ?_⟩
        simp [Txn.view, View.change, Entry.apply, written]

/-- A write that has come back with its code: one that failed did nothing, and failing with
`MDB_NOTFOUND` is as good as having deleted nothing. -/
def WriteEffect (native : Native) (event : Event Store) (next : Native) : Option Rc → Prop
  | none => Effect native event next
  | some rc => Effect native .nothing next ∧ (rc = .notFound → Effect native event next)

/-- What a write does in its scope, with and without the caller's transaction. -/
theorem writeScope_effect (disciplined : Disciplined native) {txn : Option ℕ}
    (known : ∀ handle, txn = some handle → handle < native.count) {entry : Entry} {rc : Option Rc}
    {next : Native} (ran : writeScope silent (txnArg txn) entry native = some (rc, next)) :
    WriteEffect native (Session.written txn entry) next rc := by
  cases txn with
  | some handle =>
    have wrote := mdbWrite_wrote entry (native.txns handle).txn native
    simp only [writeScope, txnArg] at ran
    generalize mdbWrite silent entry (native.txns handle).txn native = answer at wrote ran
    obtain ⟨code, txn, after⟩ := answer
    obtain ⟨rfl, rfl⟩ := Prod.mk.inj (Option.some.inj ran)
    obtain ⟨handles, taken⟩ := Prod.mk.inj wrote.readers
    have moves : Moves native (after.setTxn handle txn) := by
      refine ⟨handle, .of_setTxn disciplined handles (known handle rfl) ?_ ?_⟩
      · exact .kept taken ((Native.setTxn_holdsSlot ..).trans wrote.slot)
      · intro found kind
        exact disciplined.reset handle found (wrote.reader found kind)
    cases code with
    | none => exact ⟨moves, Native.versions_setTxn wrote.versions wrote.view⟩
    | some code =>
      obtain ⟨view, absent⟩ := wrote.view
      have same := (Native.versions_setTxn wrote.versions view).trans
        (native.versions.setView_self handle)
      refine ⟨⟨moves, same⟩, fun missing => ⟨moves, same.trans ?_⟩⟩
      change _ = native.versions.setView handle ((Txn.view (native.txns handle).txn).change _)
      rw [absent missing]
      exact (native.versions.setView_self handle).symm
  | none =>
    cases locked : native.locked with
    | true => simp [writeScope, txnArg, beginWrite, silent, locked] at ran
    | false =>
      cases written : entry.write native.committed with
      | some view =>
        simp only [writeScope, txnArg, beginWrite, silent, locked, mdbWrite, written,
          Bool.false_eq_true, ↓reduceIte] at ran
        obtain ⟨rfl, rfl⟩ := Prod.mk.inj (Option.some.inj ran)
        refine ⟨moves_same disciplined rfl, ?_⟩
        simp [Native.versions, Session.written, Versions.record, Entry.apply, written, mdbCommit,
          silent, Native.called]
      | none =>
        simp only [writeScope, txnArg, beginWrite, silent, locked, mdbWrite, written,
          Bool.false_eq_true, ↓reduceIte] at ran
        obtain ⟨rfl, rfl⟩ := Prod.mk.inj (Option.some.inj ran)
        refine ⟨.same disciplined rfl rfl, fun _ => ⟨moves_same disciplined rfl, ?_⟩⟩
        simp [Native.versions, Session.written, Versions.record, Entry.apply, written, mdbAbort,
          Native.called]

/-- The call of a session that asks for a write. -/
def Write.call (db : Db) (txn : Option ℕ) : Write → Session
  | put key val => .put db key val txn
  | del key val => .del db key txn val

theorem Write.event_asked {v8 : V8} {db : Db} {write : Write} {entry : Entry}
    (asked : write.asked? v8 db = some entry) (txn : Option ℕ) :
    (write.call db txn).event v8 true = Session.written txn entry := by
  cases write with
  | put key val =>
    simp only [Write.asked?, Write.call, Session.event] at asked ⊢
    split at asked <;> simp_all
  | del key val =>
    simp only [Write.asked?, Write.call, Session.event] at asked ⊢
    split at asked <;> simp_all

theorem Write.event_threw (v8 : V8) (db : Db) (write : Write) (txn : Option ℕ) :
    (write.call db txn).event v8 false = .nothing := by
  cases write <;> rfl

theorem Write.within_effect (v8 : V8) (disciplined : Disciplined native) (db : Db) {txn : Option ℕ}
    (known : ∀ handle, txn = some handle → handle < native.count) (write : Write)
    (ended : (write.within silent v8 db txn native).1 ≠ .never) :
    Effect native ((write.call db txn).event v8 (write.within silent v8 db txn native).1.returned)
      (write.within silent v8 db txn native).2 := by
  rcases write.within_cases silent v8 db txn native with ⟨-, error, threw⟩ | ⟨entry, asked, ran⟩
  · rw [threw]
    change Effect native ((write.call db txn).event v8 false) native
    rw [write.event_threw]
    exact .same disciplined rfl rfl
  · cases scope : writeScope silent (txnArg txn) entry native with
    | none =>
      rw [ran, scope] at ended
      exact absurd rfl ended
    | some answer =>
      obtain ⟨rc, next⟩ := answer
      have effect := writeScope_effect disciplined known scope
      rw [ran, scope]
      dsimp only
      cases rc with
      | none =>
        have succeeded : write.reply none = .ok true := by cases write <;> rfl
        rw [succeeded]
        change Effect native ((write.call db txn).event v8 true) next
        rw [write.event_asked asked]
        exact effect
      | some code =>
        cases write with
        | put key val => exact effect.1
        | del key val =>
          simp only [Write.reply]
          split_ifs with missing
          · -- There was nothing to delete: the call returns, and has changed nothing.
            change Effect native (((Write.del key val).call db txn).event v8 true) next
            rw [Write.event_asked asked]
            exact effect.2 missing
          · exact effect.1

private theorem mdbGet_effect (disciplined : Disciplined native) (db : Db) (key : Bytes)
    (txn : Option Txn) : Effect native .nothing (mdbGet silent db key txn native).2 := by
  rcases mdbGet_state silent db key txn native with same | asked
  · rw [same]
    exact .same disciplined rfl rfl
  · rw [asked]
    exact .same disciplined rfl rfl

private theorem dbGet_effect (v8 : V8) (disciplined : Disciplined native) (db : Db) (key : Value)
    (txn : Option ℕ) : Effect native .nothing (dbGet silent v8 db key txn native).2 := by
  unfold dbGet
  rcases db.keyType.check_cases v8 key with ⟨error, rejected, -⟩ | ⟨key, keyed, -⟩
  · rw [rejected]
    exact .same disciplined rfl rfl
  rw [keyed]
  cases txn with
  | some handle =>
    simp only [Db.get, txnArg, Datum.encode_value]
    exact mdbGet_effect disciplined db key.bytes _
  | none =>
    have idle (calls : ℕ) (snapshot : Store) : Effect native .nothing
        { native with calls := calls, readLock := some ⟨snapshot, false, true⟩ } := by
      refine ⟨⟨native.count, .of_same disciplined rfl rfl rfl ?_⟩, rfl⟩
      rintro _ ⟨⟩
      exact ⟨rfl, rfl⟩
    rcases get_implicit disciplined v8 db key with
      ⟨-, calls, read⟩ | ⟨-, reader, calls, -, read⟩ | ⟨-, -, calls, read⟩
    · simp only [txnArg, read]
      exact idle calls native.committed
    · simp only [txnArg, read]
      exact idle calls reader.snapshot
    · simp only [txnArg, read]
      exact .same disciplined rfl rfl

end Calls

/-- Each call does to the environment what its caller is owed. -/
theorem session_effect {v8 : V8} {native next : Native} {call : Session}
    (disciplined : Disciplined native) (fits : native.versions.Fits)
    (stepped : Session.Step v8 native call next) :
    Effect native (call.event v8 (call.run v8 native).returned?.isSome) next := by
  obtain ⟨known, ran⟩ := stepped
  cases call with
  | get db key txn =>
    obtain ⟨-, rfl, -⟩ := Result.statement_cases ran
    exact dbGet_effect v8 disciplined db key txn
  | put db key val txn =>
    obtain ⟨ended, rfl, returned⟩ := Result.statement_cases ran
    rw [Session.run, Session.perform, returned]
    exact (Write.put key val).within_effect v8 disciplined db known ended
  | del db key txn val =>
    obtain ⟨ended, rfl, returned⟩ := Result.statement_cases ran
    rw [Session.run, Session.perform, returned]
    exact (Write.del key val).within_effect v8 disciplined db known ended
  | beginTxn readonly =>
    obtain ⟨-, rfl, returned⟩ := Result.statement_cases ran
    rw [Session.run, Session.perform, returned]
    exact txnCtor_effect v8 disciplined readonly
  | commit handle =>
    obtain ⟨-, rfl, returned⟩ := Result.statement_cases ran
    rw [Session.run, Session.perform, returned]
    exact txnCommit_effect v8 disciplined (known handle rfl)
  | abort handle =>
    obtain ⟨-, rfl, returned⟩ := Result.statement_cases ran
    rw [Session.run, Session.perform, returned]
    exact txnAbort_effect v8 disciplined (known handle rfl)
  | reset handle =>
    obtain ⟨-, rfl, returned⟩ := Result.statement_cases ran
    rw [Session.run, Session.perform, returned]
    exact txnReset_effect v8 disciplined (known handle rfl)
  | renew handle =>
    obtain ⟨-, rfl, returned⟩ := Result.statement_cases ran
    rw [Session.run, Session.perform, returned]
    cases readonly : (native.txns handle).readonly with
    | false => exact txnRenew_writer_effect v8 disciplined fits (known handle rfl) readonly
    | true => exact txnRenew_reader_effect v8 disciplined (known handle rfl) readonly

/-- The environment and the record agree along every session. -/
theorem tracked_versions {v8 : V8} {store : Store} {calls : List Session}
    {state : Native × Versions Store}
    (run : Runs (Session.Tracked v8) (.opened store, .opened store) calls state) :
    Disciplined state.1 ∧ state.1.versions = state.2 := by
  refine (run.preserves
    (fun _ state => (Disciplined state.1 ∧ state.1.versions = state.2) ∧ state.2.Fits)
    ⟨⟨opened_disciplined store, rfl⟩, Versions.opened_fits store⟩ ?_).1
  rintro calls state call next ⟨⟨disciplined, agree⟩, fits⟩ ⟨stepped, recorded⟩
  have effect := session_effect disciplined (agree ▸ fits) stepped
  obtain ⟨handle, changes⟩ := effect.moves
  refine ⟨⟨changes.disciplined disciplined, ?_⟩, ?_⟩
  · rw [recorded, ← agree]
    exact effect.versions
  · rw [recorded]
    exact fits.record _

end NodeKv.Lmdb
