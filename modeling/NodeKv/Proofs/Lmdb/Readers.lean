import NodeKv.Machine.Mutex
import NodeKv.Model.Lmdb.Session
import NodeKv.Proofs.Lmdb.Attempt
import NodeKv.Proofs.Lmdb.Scope

/-! # The reader slot

At most one read-only transaction of a thread holds its reader slot. Between calls the cached
transaction of an environment never does, so the slot is taken exactly while one explicit
transaction holds it. A call that changes at most one transaction object, and hands the slot on
through it, keeps these rules. An implicit read is answered from the committed state while the
slot is free, and otherwise from the snapshot of the last read that had the slot, if there was
one.
-/

namespace NodeKv.Lmdb

open Machine

namespace Txn

def slot : Txn → Bool
  | reader txn => txn.slot
  | writer _ _ _ => false

end Txn

namespace Native

/-- The object's transaction holds the reader slot. -/
def holdsSlot (native : Native) (handle : ℕ) : Bool := (native.txns handle).txn.any Txn.slot

/-- All transaction objects, with the cached transaction. -/
def handles (native : Native) : (ℕ → Wrapper) × ℕ × Option Reader :=
  (native.txns, native.count, native.readLock)

/-- What the rules on readers look at. -/
def readers (native : Native) : ((ℕ → Wrapper) × ℕ × Option Reader) × Bool :=
  (native.handles, native.slotTaken)

end Native

/-- The rules on readers, as they stand between calls. -/
structure Disciplined (native : Native) : Prop where
  free : native.slotTaken = false → ∀ handle, native.holdsSlot handle = false
  taken : native.slotTaken = true →
    ∃ handle, native.holdsSlot handle = true ∧ ∀ other, native.holdsSlot other = true → other = handle
  reset : ∀ handle reader, (native.txns handle).txn = some (.reader reader) →
    reader.reset = true → reader.slot = false
  cached : ∀ reader, native.readLock = some reader → reader.slot = false ∧ reader.reset = true
  fresh : ∀ handle, native.count ≤ handle → (native.txns handle).txn = none

/-- What a call does to the slot, through one transaction object. -/
inductive SlotMove (before after : Native) (handle : ℕ) : Prop
  | kept (slot : after.slotTaken = before.slotTaken)
      (holds : after.holdsSlot handle = before.holdsSlot handle)
  | acquired (free : before.slotTaken = false) (taken : after.slotTaken = true)
      (holds : after.holdsSlot handle = true)
  | released (held : before.holdsSlot handle = true) (free : after.slotTaken = false)
      (holds : after.holdsSlot handle = false)

/-- What a call changes: one transaction object, old or new, and the cached one. -/
structure Changes (before after : Native) (handle : ℕ) : Prop where
  others : ∀ other, other ≠ handle → (after.txns other).txn = (before.txns other).txn
  slot : SlotMove before after handle
  reset : ∀ reader, (after.txns handle).txn = some (.reader reader) →
    reader.reset = true → reader.slot = false
  cached : ∀ reader, after.readLock = some reader → reader.slot = false ∧ reader.reset = true
  count : before.count ≤ after.count
  known : handle < after.count ∨ (after.txns handle).txn = none

namespace Changes

variable {before after : Native} {handle : ℕ}

theorem holdsSlot (changes : Changes before after handle) {other : ℕ} (ne : other ≠ handle) :
    after.holdsSlot other = before.holdsSlot other := by
  rw [Native.holdsSlot, changes.others other ne, Native.holdsSlot]

private theorem slot_consistent (changes : Changes before after handle)
    (disciplined : Disciplined before) :
    Mutex.Consistent after.slotTaken after.holdsSlot := by
  have consistent : Mutex.Consistent before.slotTaken before.holdsSlot :=
    ⟨disciplined.free, disciplined.taken⟩
  refine consistent.move (fun other ne => changes.holdsSlot ne) ?_
  cases changes.slot with
  | kept slot holds => rw [slot, holds]; exact .kept ..
  | acquired free taken holds => rw [free, taken, holds]; exact .acquired _
  | released held free holds => rw [held, free, holds]; exact .released _

theorem disciplined (changes : Changes before after handle) (disciplined : Disciplined before) :
    Disciplined after := by
  have slot := changes.slot_consistent disciplined
  refine ⟨slot.free, slot.taken, ?_, changes.cached, ?_⟩
  · intro other reader found
    rcases eq_or_ne other handle with rfl | ne
    · exact changes.reset reader found
    · rw [changes.others other ne] at found
      exact disciplined.reset other reader found
  · intro other above
    rcases eq_or_ne other handle with rfl | ne
    · rcases changes.known with below | absent
      · omega
      · exact absent
    · rw [changes.others other ne]
      exact disciplined.fresh other (changes.count.trans above)

/-- A call that leaves all transaction objects and the slot alone. -/
theorem of_same (disciplined : Disciplined before) (txns : after.txns = before.txns)
    (slot : after.slotTaken = before.slotTaken) (count : after.count = before.count)
    (cached : ∀ reader, after.readLock = some reader → reader.slot = false ∧ reader.reset = true) :
    Changes before after before.count := by
  have absent := disciplined.fresh before.count (Nat.le_refl _)
  refine ⟨fun _ _ => by rw [txns], .kept slot ?_, ?_, cached, count.ge, .inr ?_⟩
  · rw [Native.holdsSlot, Native.holdsSlot, txns]
  · intro reader found
    rw [txns, absent] at found
    exact nomatch found
  · rw [txns, absent]

/-- A call that sets the transaction of one object. -/
theorem of_setTxn {middle : Native} {txn : Option Txn} (disciplined : Disciplined before)
    (same : middle.handles = before.handles) (known : handle < before.count)
    (slot : SlotMove before (middle.setTxn handle txn) handle)
    (reset : ∀ reader, txn = some (.reader reader) → reader.reset = true → reader.slot = false) :
    Changes before (middle.setTxn handle txn) handle := by
  obtain ⟨txns, rest⟩ := Prod.mk.inj same
  obtain ⟨count, cached⟩ := Prod.mk.inj rest
  refine ⟨?_, slot, ?_, ?_, count.ge, .inl (known.trans_eq count.symm)⟩
  · intro other ne
    simp [Native.setTxn, ne, txns]
  · intro reader found
    rw [Native.setTxn_txn] at found
    exact reset reader found
  · intro reader found
    exact disciplined.cached reader (cached.symm.trans found)

end Changes

section Calls

variable {native : Native} {handle : ℕ}

@[simp] theorem Native.setTxn_holdsSlot (native : Native) (handle : ℕ) (txn : Option Txn) :
    (native.setTxn handle txn).holdsSlot handle = txn.any Txn.slot := by
  rw [Native.holdsSlot, Native.setTxn_txn]

/-- Ending a transaction gives back its slot. -/
theorem changes_end (disciplined : Disciplined native) (known : handle < native.count) {txn : Txn}
    (found : (native.txns handle).txn = some txn) {middle : Native}
    (same : middle.handles = native.handles)
    (slot : middle.slotTaken = if txn.slot then false else native.slotTaken) :
    Changes native (middle.setTxn handle none) handle := by
  refine .of_setTxn disciplined same known ?_ nofun
  have held : native.holdsSlot handle = txn.slot := by rw [Native.holdsSlot, found, Option.any_some]
  cases holds : txn.slot with
  | true =>
    rw [holds, if_pos rfl] at slot
    exact .released (held.trans holds) slot (Native.setTxn_holdsSlot ..)
  | false =>
    rw [holds, if_neg Bool.false_ne_true] at slot
    exact .kept slot ((Native.setTxn_holdsSlot ..).trans (held.trans holds).symm)

/-- A call changes one transaction object at most. -/
def Moves (native next : Native) : Prop := ∃ changed, Changes native next changed

theorem moves_same (disciplined : Disciplined native) {next : Native}
    (same : next.readers = native.readers) : Moves native next := by
  obtain ⟨handles, slot⟩ := Prod.mk.inj same
  obtain ⟨txns, rest⟩ := Prod.mk.inj handles
  obtain ⟨count, cached⟩ := Prod.mk.inj rest
  refine ⟨native.count, .of_same disciplined txns slot count ?_⟩
  rw [cached]
  exact disciplined.cached

/-- A new object, for a transaction that has just been begun. -/
theorem moves_wrap (disciplined : Disciplined native) {middle : Native} {wrapper : Wrapper}
    (same : middle.handles = native.handles)
    (slot : SlotMove native (middle.wrap wrapper) native.count)
    (reset : ∀ reader, wrapper.txn = some (.reader reader) → reader.reset = true →
      reader.slot = false) : Moves native (middle.wrap wrapper) := by
  obtain ⟨txns, rest⟩ := Prod.mk.inj same
  obtain ⟨count, cached⟩ := Prod.mk.inj rest
  refine ⟨native.count, ⟨?_, slot, ?_, ?_, ?_, .inl ?_⟩⟩
  · intro other ne
    simp [Native.wrap, count, ne, txns]
  · simpa [Native.wrap, count] using reset
  · intro reader found
    exact disciplined.cached reader (cached.symm.trans found)
  · simp [Native.wrap, count]
  · simp [Native.wrap, count]

theorem Native.wrap_holdsSlot (middle : Native) (wrapper : Wrapper) :
    (middle.wrap wrapper).holdsSlot middle.count = wrapper.txn.any Txn.slot := by
  simp [Native.wrap, Native.holdsSlot]

/-- A lookup through a handle that has not been reset. -/
theorem mdbGet_reader (db : Db) (key : Bytes) {reader : Reader} (live : reader.reset = false)
    (native : Native) :
    Db.get.reply (mdbGet silent db key (some (.reader reader)) native).1 =
        looked key (reader.snapshot db.dbi key) ∧
      (mdbGet silent db key (some (.reader reader)) native).2 = native.called := by
  simp only [mdbGet, live, Bool.false_eq_true, ↓reduceIte]
  exact mdbGet_found key _ native

theorem requireReadlock_free (disciplined : Disciplined native) (free : native.slotTaken = false) :
    requireReadlock silent native = { native with
      calls := native.calls + 1
      slotTaken := true
      readLock := some ⟨native.committed, true, false⟩ } := by
  have quiet : silent native.calls = none := rfl
  cases lock : native.readLock with
  | none => simp [requireReadlock, lock, beginRead, quiet, free, Native.called]
  | some reader =>
    have reset := (disciplined.cached reader lock).2
    simp [requireReadlock, lock, mdbRenew, reset, quiet, free, Native.called]

theorem requireReadlock_stale (disciplined : Disciplined native) (taken : native.slotTaken = true)
    {reader : Reader} (lock : native.readLock = some reader) :
    requireReadlock silent native = { native with
      calls := native.calls + 1
      readLock := some ⟨reader.snapshot, false, false⟩ } := by
  have quiet : silent native.calls = none := rfl
  obtain ⟨slot, reset⟩ := disciplined.cached reader lock
  simp [requireReadlock, lock, mdbRenew, reset, slot, quiet, taken, Native.called]

theorem requireReadlock_none (taken : native.slotTaken = true) (lock : native.readLock = none) :
    requireReadlock silent native = { native with calls := native.calls + 1 } := by
  have quiet : silent native.calls = none := rfl
  simp [requireReadlock, lock, beginRead, quiet, taken, Native.called]

/-- An implicit read borrows the cached transaction. -/
theorem get_undefined (v8 : V8) (db : Db) (key : Datum v8 db.keyType) (native : Native) :
    db.get silent v8 key.value .undefined native =
      (Db.get.reply (mdbGet silent db key.bytes
          ((requireReadlock silent native).readLock.map .reader) (requireReadlock silent native)).1,
        releaseReadlock (mdbGet silent db key.bytes
          ((requireReadlock silent native).readLock.map .reader)
          (requireReadlock silent native)).2) := by
  simp only [Db.get, Datum.encode_value]

/-- How an implicit read is answered: from the committed state while the slot is free, else from
the previous snapshot, and with an exception if there is none. -/
theorem get_implicit (disciplined : Disciplined native) (v8 : V8) (db : Db)
    (key : Datum v8 db.keyType) :
    (native.slotTaken = false ∧ ∃ calls, db.get silent v8 key.value .undefined native =
      (looked key.bytes (native.committed db.dbi key.bytes),
        { native with calls := calls, readLock := some ⟨native.committed, false, true⟩ })) ∨
    (native.slotTaken = true ∧ ∃ reader calls, native.readLock = some reader ∧
      db.get silent v8 key.value .undefined native =
        (looked key.bytes (reader.snapshot db.dbi key.bytes),
          { native with calls := calls, readLock := some ⟨reader.snapshot, false, true⟩ })) ∨
    (native.slotTaken = true ∧ native.readLock = none ∧ ∃ calls,
      db.get silent v8 key.value .undefined native =
        (.throws (.mdb .einval), { native with calls := calls })) := by
  rw [get_undefined]
  cases slot : native.slotTaken with
  | false =>
    obtain ⟨answer, after⟩ := mdbGet_reader db key.bytes
      (show (Reader.mk native.committed true false).reset = false from rfl)
      (requireReadlock silent native)
    refine .inl ⟨rfl, native.calls + 2, ?_⟩
    rw [requireReadlock_free disciplined slot] at answer after ⊢
    rw [Option.map_some, answer, after]
    simp [releaseReadlock, mdbReset, Native.called]
  | true =>
    cases lock : native.readLock with
    | none =>
      refine .inr (.inr ⟨rfl, rfl, native.calls + 1, ?_⟩)
      rw [requireReadlock_none slot lock]
      simp [lock, mdbGet, releaseReadlock, Db.get.reply, Rc.einval, slot]
    | some reader =>
      obtain ⟨answer, after⟩ := mdbGet_reader db key.bytes
        (show (Reader.mk reader.snapshot false false).reset = false from rfl)
        (requireReadlock silent native)
      refine .inr (.inl ⟨rfl, reader, native.calls + 2, rfl, ?_⟩)
      rw [requireReadlock_stale disciplined slot lock] at answer after ⊢
      rw [Option.map_some, answer, after]
      simp [releaseReadlock, mdbReset, Native.called, slot]

end Calls

/-- Whether a native method returned. -/
def Result.returned {α : Type*} : Result α → Bool
  | ok _ => true
  | _ => false

/-- A call that ended, as a statement. -/
theorem Result.statement_cases {α : Type*} {call : Native → Result α × Native}
    {native next : Native} (ran : (Result.statement call native).state? = some next) :
    (call native).1 ≠ .never ∧ (call native).2 = next ∧
      (Result.statement call native).returned?.isSome = (call native).1.returned := by
  unfold Result.statement at ran ⊢
  split at ran
  case h_1 val after answered =>
    obtain rfl := Option.some.inj ran
    simp [answered, Outcome.returned?, Result.returned]
  case h_2 error after answered =>
    obtain rfl := Option.some.inj ran
    simp [answered, Outcome.returned?, Result.returned]
  case h_3 => exact nomatch ran

/-- Without any transaction open there is nothing to keep apart. -/
theorem disciplined_of_idle {native : Native} (ended : ∀ handle, (native.txns handle).txn = none)
    (lock : native.readLock = none) (free : native.slotTaken = false) : Disciplined native := by
  refine ⟨fun _ handle => ?_, fun taken => ?_, fun handle reader found => ?_, fun reader held => ?_,
    fun handle _ => ended handle⟩
  · rw [Native.holdsSlot, ended, Option.any_none]
  · cases free.symm.trans taken
  · cases (ended handle).symm.trans found
  · cases lock.symm.trans held

theorem opened_disciplined (store : Store) : Disciplined (.opened store) :=
  disciplined_of_idle (fun _ => rfl) rfl rfl

end NodeKv.Lmdb
