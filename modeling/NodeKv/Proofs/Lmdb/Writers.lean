import NodeKv.Machine.Mutex
import NodeKv.Model.Lmdb.Turns
import NodeKv.Proofs.Lmdb.Attempt
import NodeKv.Proofs.Lmdb.Scope

/-! # The writer mutex

Between calls the writer mutex of an environment is held exactly while one `Txn` object has an open
write transaction. A call with an implicit transaction, a read, an opening of a database and a
whole flush all leave the mutex as they find it, whatever LMDB returns; only `beginTxn` and `renew`
take it, and only `commit` and `abort` give it back.
-/

namespace NodeKv.Lmdb

open Machine

def Txn.writes : Txn → Bool
  | reader _ => false
  | writer _ _ _ => true

namespace Native

/-- The object has an open write transaction. -/
def writes (native : Native) (handle : ℕ) : Bool := (native.txns handle).txn.any Txn.writes

/-- What the rule on writers looks at. -/
def writers (native : Native) : (ℕ → Wrapper) × ℕ × Bool :=
  (native.txns, native.count, native.locked)

theorem writers_eq_iff {native : Native} {txns : ℕ → Wrapper} {count : ℕ} {locked : Bool} :
    native.writers = (txns, count, locked) ↔
      native.txns = txns ∧ native.count = count ∧ native.locked = locked := by
  simp [writers]

/-- Objects that have not been made have no transaction. -/
def Fresh (native : Native) : Prop :=
  ∀ handle, native.count ≤ handle → (native.txns handle).txn = none

end Native

/-- The rule on writers, as it stands between calls. -/
structure Exclusive (native : Native) : Prop where
  mutex : Mutex.Consistent native.locked native.writes
  fresh : native.Fresh

/-- A call after which the same object, if any, is writing. -/
structure Quiet (before after : Native) : Prop where
  locked : after.locked = before.locked
  writes : after.writes = before.writes
  fresh : before.Fresh → after.Fresh

namespace Quiet

variable {before middle after : Native}

theorem refl (native : Native) : Quiet native native := ⟨rfl, rfl, id⟩

theorem trans (first : Quiet before middle) (second : Quiet middle after) : Quiet before after :=
  ⟨second.locked.trans first.locked, second.writes.trans first.writes,
    fun fresh => second.fresh (first.fresh fresh)⟩

private theorem of_writers (same : after.writers = before.writers) : Quiet before after := by
  obtain ⟨txns, count, locked⟩ := Native.writers_eq_iff.mp same
  refine ⟨locked, ?_, ?_⟩
  · funext handle
    rw [Native.writes, txns, Native.writes]
  · intro fresh handle above
    rw [txns]
    exact fresh handle (count ▸ above)

theorem exclusive (quiet : Quiet before after) (exclusive : Exclusive before) : Exclusive after :=
  ⟨quiet.locked ▸ quiet.writes ▸ exclusive.mutex, quiet.fresh exclusive.fresh⟩

/-- An object's transaction is replaced by one of its kind. -/
theorem setTxn (same : middle.writers = before.writers) {handle : ℕ} {txn : Option Txn}
    (kind : txn.any Txn.writes = before.writes handle)
    (absent : (before.txns handle).txn = none → txn = none) :
    Quiet before (middle.setTxn handle txn) := by
  obtain ⟨txns, count, locked⟩ := Native.writers_eq_iff.mp same
  refine ⟨locked, ?_, ?_⟩
  · funext other
    by_cases here : other = handle
    · rw [here, Native.writes, Native.setTxn_txn, kind]
    · simp [Native.writes, Native.setTxn, here, txns]
  · intro fresh other above
    have unmade := fresh other (count ▸ above)
    by_cases here : other = handle
    · rw [here, Native.setTxn_txn]
      exact absent (here ▸ unmade)
    · simpa [Native.setTxn, here, txns] using unmade

end Quiet

section Calls

variable (returns : Returns) {native : Native}

private theorem mdbWrite_writers (entry : Entry) (txn : Option Txn) (native : Native) :
    (mdbWrite returns entry txn native).2.2.writers = native.writers ∧
      (mdbWrite returns entry txn native).2.1.any Txn.writes = txn.any Txn.writes ∧
      (txn = none → (mdbWrite returns entry txn native).2.1 = none) := by
  cases txn with
  | none => exact ⟨rfl, rfl, fun _ => rfl⟩
  | some txn =>
    cases txn with
    | reader reader => exact ⟨rfl, rfl, by rintro ⟨⟩⟩
    | writer number view entries =>
      simp only [mdbWrite]
      split
      · exact ⟨rfl, rfl, by rintro ⟨⟩⟩
      · split <;> exact ⟨rfl, rfl, by rintro ⟨⟩⟩

/-- The end of a write transaction gives the mutex back. -/
theorem mdbCommit_writers {txn : Option Txn} (writes : txn.any Txn.writes = true)
    (native : Native) :
    (mdbCommit returns txn native).2.writers = (native.txns, native.count, false) := by
  match txn, writes with
  | some (.writer _ _ _), _ =>
    simp only [mdbCommit]
    split <;> rfl

private theorem mdbAbort_writers {txn : Option Txn} (writes : txn.any Txn.writes = true)
    (native : Native) : (mdbAbort txn native).writers = (native.txns, native.count, false) := by
  match txn, writes with
  | some (.writer _ _ _), _ => rfl

/-- What `mdb_txn_begin` does when it comes back. -/
theorem beginWrite_cases {answer : Except Rc Txn} {next : Native}
    (begun : beginWrite returns native = some (answer, next)) :
    (∃ rc, answer = .error rc ∧ next.writers = native.writers) ∨
      ∃ txn, answer = .ok txn ∧ txn.writes = true ∧ native.locked = false ∧
        next.writers = (native.txns, native.count, true) := by
  unfold beginWrite at begun
  split at begun
  · cases begun
    exact .inl ⟨_, rfl, rfl⟩
  · split_ifs at begun with locked
    cases begun
    exact .inr ⟨_, rfl, rfl, Bool.eq_false_iff.mpr locked, rfl⟩

/-- A write leaves the mutex as it was, in the caller's transaction or in one of its own. -/
theorem writeScope_quiet {txn : Option ℕ} {entry : Entry} {rc : Option Rc} {next : Native}
    (ran : writeScope returns (txnArg txn) entry native = some (rc, next)) : Quiet native next := by
  cases txn with
  | some handle =>
    obtain ⟨same, kind, absent⟩ :=
      mdbWrite_writers returns entry (native.txns handle).txn native
    cases ran
    exact .setTxn same kind absent
  | none =>
    simp only [txnArg, writeScope] at ran
    cases begun : beginWrite returns native with
    | none => simp [begun] at ran
    | some answer =>
      rcases answer with ⟨answer, middle⟩
      rcases beginWrite_cases returns begun with ⟨_, rfl, same⟩ | ⟨txn, rfl, writes, free, taken⟩
      · simp only [begun] at ran
        cases ran
        exact .of_writers same
      · simp only [begun] at ran
        obtain ⟨same, kind, -⟩ := mdbWrite_writers returns entry (some txn) middle
        generalize mdbWrite returns entry (some txn) middle = written at ran same kind
        obtain ⟨code, txn', written⟩ := written
        cases ran
        refine .of_writers ?_
        have ended : (if code.isNone then (mdbCommit returns txn' written).2
            else mdbAbort txn' written).writers = (written.txns, written.count, false) := by
          split_ifs
          · exact mdbCommit_writers returns (kind.trans writes) written
          · exact mdbAbort_writers (kind.trans writes) written
        obtain ⟨txns, count, -⟩ := Native.writers_eq_iff.mp (same.trans taken)
        rw [ended, txns, count, ← free]
        rfl

theorem Db.put_quiet (v8 : V8) (db : Db) (key val : Value) (txn : Option ℕ) (native : Native) :
    Quiet native (db.put returns v8 key val (txnArg txn) native).2 := by
  unfold Db.put
  split
  · split
    · exact .refl native
    · exact writeScope_quiet returns ‹_›
    · exact writeScope_quiet returns ‹_›
  · exact .refl native

theorem Write.within_quiet (v8 : V8) (db : Db) (txn : Option ℕ) (write : Write) (native : Native) :
    Quiet native (write.within returns v8 db txn native).2 := by
  rcases write.within_cases returns v8 db txn native with ⟨-, error, threw⟩ | ⟨entry, -, ran⟩
  · rw [threw]
    exact .refl native
  · rw [ran]
    split
    · exact .refl native
    · exact writeScope_quiet returns ‹_›

private theorem mdbRenew_writers (reader : Reader) (native : Native) :
    (mdbRenew returns reader native).2.2.writers = native.writers := by
  unfold mdbRenew
  cases reader.reset with
  | false => rfl
  | true =>
    cases returns native.calls with
    | some rc => rfl
    | none => cases native.slotTaken <;> rfl

private theorem mdbReset_writers (reader : Reader) (native : Native) :
    (mdbReset reader native).2.writers = native.writers := by
  unfold mdbReset
  cases reader.slot <;> rfl

private theorem mdbGet_writers (db : Db) (key : Bytes) (txn : Option Txn) (native : Native) :
    (mdbGet returns db key txn native).2.writers = native.writers := by
  rcases mdbGet_state returns db key txn native with same | asked
  · rw [same]
  · rw [asked]
    rfl

private theorem beginRead_writers (native : Native) :
    (beginRead returns native).2.writers = native.writers := by
  unfold beginRead
  split
  · rfl
  · split_ifs <;> rfl

private theorem requireReadlock_writers (native : Native) :
    (requireReadlock returns native).writers = native.writers := by
  unfold requireReadlock
  split
  · exact mdbRenew_writers returns _ native
  · have same := beginRead_writers returns native
    split <;> rename_i begun <;> rw [begun] at same <;> exact same

private theorem releaseReadlock_writers (native : Native) :
    (releaseReadlock native).writers = native.writers := by
  unfold releaseReadlock
  split
  · exact mdbReset_writers _ native
  · rfl

theorem dbGet_quiet (v8 : V8) (db : Db) (key : Value) (txn : Option ℕ) (native : Native) :
    Quiet native (dbGet returns v8 db key txn native).2 := by
  refine .of_writers ?_
  unfold dbGet
  split
  · rfl
  · unfold Db.get
    split
    · rfl
    · cases txn with
      | some handle => exact mdbGet_writers returns db _ _ native
      | none =>
        refine (releaseReadlock_writers _).trans ?_
        exact (mdbGet_writers returns db _ _ _).trans (requireReadlock_writers returns native)

theorem txnReset_quiet (handle : ℕ) (native : Native) :
    Quiet native (txnReset handle native).2 := by
  unfold txnReset
  split
  · exact .refl native
  · exact .refl native
  · rename_i reader found
    refine .setTxn (mdbReset_writers reader native) ?_ ?_
    · simp [Native.writes, found, Txn.writes]
    · exact fun absent => nomatch found.symm.trans absent

/-- Opening a database leaves the mutex as it was. -/
theorem dbCtor_quiet (native : Native) : Quiet native (dbCtor returns native).2 := by
  unfold dbCtor
  cases begun : beginWrite returns native with
  | none => exact .refl native
  | some answer =>
    rcases answer with ⟨answer, middle⟩
    rcases beginWrite_cases returns begun with ⟨_, rfl, same⟩ | ⟨txn, rfl, writes, free, taken⟩
    · exact .of_writers same
    · obtain ⟨txns, count, -⟩ := Native.writers_eq_iff.mp taken
      have released : (middle.txns, middle.count, false) = native.writers := by
        rw [txns, count, ← free]
        rfl
      have committed := mdbCommit_writers returns (show (some txn).any Txn.writes = true from writes)
        middle.called
      refine .of_writers ?_
      simp only
      split
      · exact (mdbAbort_writers (show (some txn).any Txn.writes = true from writes) _).trans released
      · split <;> rename_i ended <;> rw [ended] at committed <;> exact committed.trans released

end Calls

section Objects

variable {native middle next : Native} {handle : ℕ}

/-- A call that moves the mutex through one object. -/
theorem Exclusive.step (exclusive : Exclusive native) (handle : ℕ)
    (others : ∀ other, other ≠ handle → (next.txns other).txn = (native.txns other).txn)
    (move : Mutex.Move native.locked next.locked (native.writes handle) (next.writes handle))
    (count : native.count ≤ next.count) (known : handle < next.count) : Exclusive next := by
  constructor
  · refine exclusive.mutex.move ?_ move
    intro other ne
    rw [Native.writes, others other ne, Native.writes]
  · intro other above
    have ne : other ≠ handle := by omega
    rw [others other ne]
    exact exclusive.fresh other (count.trans above)

/-- A new object gets a transaction of the kind that the mutex says. -/
theorem Exclusive.wrap (exclusive : Exclusive native) {wrapper : Wrapper} {locked : Bool}
    (same : middle.writers = (native.txns, native.count, locked))
    (move : Mutex.Move native.locked locked false (wrapper.txn.any Txn.writes)) :
    Exclusive (middle.wrap wrapper) := by
  obtain ⟨txns, count, taken⟩ := Native.writers_eq_iff.mp same
  have absent : native.writes native.count = false := by
    rw [Native.writes, exclusive.fresh native.count le_rfl, Option.any_none]
  refine exclusive.step native.count ?_ ?_ ?_ ?_
  · intro other ne
    simp [Native.wrap, count, txns, ne]
  · rw [absent, show (middle.wrap wrapper).locked = locked from taken]
    simpa [Native.writes, Native.wrap, count] using move
  · rw [Native.wrap, count]
    exact Nat.le_succ _
  · rw [Native.wrap, count]
    exact Nat.lt_succ_self _

theorem txnCtor_exclusive (returns : Returns) (exclusive : Exclusive native) (readonly : Bool) :
    Exclusive (txnCtor returns readonly native).2 := by
  unfold txnCtor
  cases readonly with
  | true =>
    have same := beginRead_writers returns native
    simp only [↓reduceIte]
    split <;> rename_i begun <;> rw [begun] at same
    · exact (Quiet.of_writers same).exclusive exclusive
    · exact exclusive.wrap same (.kept ..)
  | false =>
    simp only [Bool.false_eq_true, ↓reduceIte]
    cases begun : beginWrite returns native with
    | none => exact exclusive
    | some answer =>
      rcases answer with ⟨answer, next⟩
      rcases beginWrite_cases returns begun with ⟨_, rfl, same⟩ | ⟨txn, rfl, writes, free, taken⟩
      · exact (Quiet.of_writers same).exclusive exclusive
      · refine exclusive.wrap taken ?_
        rw [free, Option.any_some, writes]
        exact .acquired _

theorem Exclusive.known (exclusive : Exclusive native) {txn : Txn}
    (found : (native.txns handle).txn = some txn) : handle < native.count := by
  by_contra above
  exact nomatch (exclusive.fresh handle (Nat.le_of_not_lt above)).symm.trans found

/-- An object's transaction has ended: it is not writing any more, the others are as they were. -/
structure Ended (before after : Native) (handle : ℕ) : Prop where
  exclusive : Exclusive after
  done : after.writes handle = false
  others : ∀ other, other ≠ handle → after.writes other = before.writes other

theorem Ended.of_setTxn (exclusive : Exclusive native) {txn : Txn}
    (found : (native.txns handle).txn = some txn)
    (ended : middle.writers =
      (native.txns, native.count, if txn.writes then false else native.locked)) :
    Ended native (middle.setTxn handle none) handle := by
  obtain ⟨txns, count, locked⟩ := Native.writers_eq_iff.mp ended
  have done : (middle.setTxn handle none).writes handle = false := by
    rw [Native.writes, Native.setTxn_txn, Option.any_none]
  have others : ∀ other, other ≠ handle →
      ((middle.setTxn handle none).txns other).txn = (native.txns other).txn := by
    intro other ne
    simp [Native.setTxn, ne, txns]
  have known : handle < middle.count := count ▸ exclusive.known found
  refine ⟨exclusive.step handle others ?_ count.ge known, done, ?_⟩
  · rw [done, show (middle.setTxn handle none).locked = _ from locked]
    have held : native.writes handle = txn.writes := by rw [Native.writes, found, Option.any_some]
    rw [held]
    cases txn.writes with
    | true => exact .released _
    | false => exact .kept ..
  · intro other ne
    rw [Native.writes, others other ne, Native.writes]

private theorem mdbCommit_ends (returns : Returns) (txn : Txn) (native : Native) :
    (mdbCommit returns (some txn) native).2.writers =
      (native.txns, native.count, if txn.writes then false else native.locked) := by
  cases txn with
  | reader reader => cases slot : reader.slot <;> simp [mdbCommit, slot, Txn.writes, Native.writers]
  | writer number view entries => exact mdbCommit_writers returns rfl native

private theorem mdbAbort_ends (txn : Txn) (native : Native) :
    (mdbAbort (some txn) native).writers =
      (native.txns, native.count, if txn.writes then false else native.locked) := by
  cases txn with
  | reader reader => cases slot : reader.slot <;> simp [mdbAbort, slot, Txn.writes, Native.writers]
  | writer number view entries => rfl

theorem txnCommit_ended (returns : Returns) (exclusive : Exclusive native) :
    Ended native (txnCommit returns handle native).2 handle := by
  unfold txnCommit
  cases found : (native.txns handle).txn with
  | none => exact ⟨exclusive, by rw [Native.writes, found, Option.any_none], fun _ _ => rfl⟩
  | some txn => exact .of_setTxn exclusive found (mdbCommit_ends returns txn native)

theorem txnAbort_ended (exclusive : Exclusive native) :
    Ended native (txnAbort handle native).2 handle := by
  unfold txnAbort
  cases found : (native.txns handle).txn with
  | none => exact ⟨exclusive, by rw [Native.writes, found, Option.any_none], fun _ _ => rfl⟩
  | some txn => exact .of_setTxn exclusive found (mdbAbort_ends txn native)

theorem txnRenew_exclusive (returns : Returns) (exclusive : Exclusive native)
    (known : handle < native.count) : Exclusive (txnRenew returns handle native).2 := by
  unfold txnRenew
  cases (native.txns handle).readonly with
  | true =>
    match found : (native.txns handle).txn with
    | some (.reader reader) =>
      refine (Quiet.setTxn (mdbRenew_writers returns reader native) ?_ ?_).exclusive exclusive
      · simp [Native.writes, found, Txn.writes]
      · exact fun absent => nomatch found.symm.trans absent
    | none => exact exclusive
    | some (.writer _ _ _) => exact exclusive
  | false =>
    cases found : (native.txns handle).txn with
    | some txn => exact exclusive
    | none =>
      simp only [Bool.false_eq_true, Option.isSome_none, ↓reduceIte]
      cases begun : beginWrite returns native with
      | none => exact exclusive
      | some answer =>
        rcases answer with ⟨answer, middle⟩
        rcases beginWrite_cases returns begun with ⟨_, rfl, same⟩ | ⟨txn, rfl, writes, free, taken⟩
        · exact (Quiet.of_writers same).exclusive exclusive
        · obtain ⟨txns, count, locked⟩ := Native.writers_eq_iff.mp taken
          refine exclusive.step handle ?_ ?_ count.ge (known.trans_eq count.symm)
          · intro other ne
            simp [Native.setTxn, ne, txns]
          · rw [free, show (middle.setTxn handle (some txn)).locked = true from locked,
              Native.writes, Native.writes, Native.setTxn_txn, Option.any_some, writes]
            exact .acquired _

end Objects

section Flushes

variable {v8 : V8} (returns : Returns) {native : Native}

/-- A call after which the objects are writing that were writing before. -/
structure Settles (before after : Native) : Prop where
  exclusive : Exclusive after
  writes : after.writes = before.writes

private theorem exec_put_quiet {op : BatchOp v8} (put : op.isPut = true) (handle : ℕ) :
    Prog.Keeps Quiet (op.exec returns handle) := by
  intro before
  cases op with
  | del db key => exact nomatch put
  | put db key val =>
    have quiet := db.put_quiet returns v8 key.value val.value (some handle) before
    rw [BatchOp.exec, Result.statement]
    split <;> rename_i ran <;> simp only [txnArg, ran] at quiet
    · exact quiet
    · exact quiet
    · trivial

private theorem exec_puts_quiet {ops : List (BatchOp v8)} (puts : ∀ op ∈ ops, op.isPut = true)
    (handle : ℕ) : Prog.Keeps Quiet (Prog.forEach (BatchOp.exec returns handle) ops) := by
  have trans : ∀ first second third, Quiet first second → Quiet second third → Quiet first third :=
    fun _ _ _ => Quiet.trans
  induction ops with
  | nil => exact Quiet.refl
  | cons op rest ih =>
    exact Prog.Keeps.seq trans
      (exec_put_quiet returns (puts op (List.mem_cons_self ..)) handle)
      (ih fun other member => puts other (List.mem_cons_of_mem _ member))

/-- A constructor that throws changes nothing, and one that returns makes one new object. -/
theorem txnCtor_cases (readonly : Bool) (native : Native) :
    (∀ handle, (txnCtor returns readonly native).1 ≠ .ok handle) ∧
        (txnCtor returns readonly native).2.writers = native.writers ∨
      (txnCtor returns readonly native).1 = .ok native.count ∧
        ∀ other, other ≠ native.count →
          (txnCtor returns readonly native).2.writes other = native.writes other := by
  have wrapped : ∀ (middle : Native) (wrapper : Wrapper), middle.txns = native.txns →
      middle.count = native.count → ∀ other, other ≠ native.count →
        (middle.wrap wrapper).writes other = native.writes other := by
    intro middle wrapper txns count other ne
    simp [Native.writes, Native.wrap, txns, count, ne]
  unfold txnCtor
  cases readonly with
  | true =>
    have same := beginRead_writers returns native
    simp only [↓reduceIte]
    split <;> rename_i begun <;> rw [begun] at same
    · exact .inl ⟨by rintro _ ⟨⟩, same⟩
    · obtain ⟨txns, count, -⟩ := Native.writers_eq_iff.mp same
      exact .inr ⟨congrArg Result.ok count, wrapped _ _ txns count⟩
  | false =>
    simp only [Bool.false_eq_true, ↓reduceIte]
    cases begun : beginWrite returns native with
    | none => exact .inl ⟨by rintro _ ⟨⟩, rfl⟩
    | some answer =>
      rcases answer with ⟨answer, middle⟩
      rcases beginWrite_cases returns begun with ⟨_, rfl, same⟩ | ⟨txn, rfl, -, -, taken⟩
      · exact .inl ⟨by rintro _ ⟨⟩, same⟩
      · obtain ⟨txns, count, -⟩ := Native.writers_eq_iff.mp taken
        exact .inr ⟨congrArg Result.ok count, wrapped _ _ txns count⟩

/-- The one object that was new has ended its transaction. -/
theorem Settles.of_ended {before after : Native} (exclusive : Exclusive native)
    (others : ∀ other, other ≠ native.count → before.writes other = native.writes other)
    (ended : Ended before after native.count) : Settles native after := by
  refine ⟨ended.exclusive, funext fun handle => ?_⟩
  by_cases own : handle = native.count
  · rw [own, ended.done, Native.writes, exclusive.fresh native.count le_rfl, Option.any_none]
  · rw [ended.others handle own, others handle own]

/-- The puts of a flush with the commit at their end, in the transaction that was just begun. If
one of them throws, the abort settles what they have left. -/
theorem flush_settles (exclusive : Exclusive native) {begun : Native} (created : Exclusive begun)
    (others : ∀ other, other ≠ native.count → begun.writes other = native.writes other)
    {ops : List (BatchOp v8)} (puts : ∀ op ∈ ops, op.isPut = true) :
    (Prog.seq (Prog.forEach (BatchOp.exec returns native.count) ops)
      (Result.statement (txnCommit returns native.count)) begun).Meets True (Settles native)
      fun _ next => Settles native (txnAbort native.count next).2 := by
  have looped := exec_puts_quiet returns puts native.count begun
  refine Prog.seq_meets (looped.mono id (fun _ => id) ?_) ?_
  · intro error next quiet
    exact .of_ended exclusive (fun other ne => quiet.writes ▸ others other ne)
      (txnAbort_ended (quiet.exclusive created))
  · intro next quiet
    have committed : Ended next (txnCommit returns native.count next).2 native.count :=
      txnCommit_ended returns (quiet.exclusive created)
    have others' : ∀ other, other ≠ native.count → next.writes other = native.writes other :=
      fun other ne => quiet.writes ▸ others other ne
    unfold Result.statement
    split <;> rename_i code <;> rw [code] at committed
    · exact .of_ended exclusive others' committed
    · exact .of_ended exclusive
        (fun other ne => (committed.others other ne).trans (others' other ne))
        (txnAbort_ended committed.exclusive)
    · trivial

/-- The transaction of a flush is over when the flush is. -/
theorem attempt_settles (exclusive : Exclusive native) {ops : List (BatchOp v8)}
    (puts : ∀ op ∈ ops, op.isPut = true) (ended : (attempt returns ops native).1 ≠ .stuck) :
    Settles native (attempt returns ops native).2 := by
  have created := txnCtor_exclusive returns exclusive false
  have cases := txnCtor_cases returns false native
  unfold attempt attemptWith transaction at ended ⊢
  generalize txnCtor returns false native = begun at created cases ended ⊢
  obtain ⟨result, begun⟩ := begun
  rcases cases with ⟨failed, same⟩ | ⟨made, others⟩
  · match result with
    | .ok handle => exact absurd rfl (failed handle)
    | .never => exact absurd rfl ended
    | .throws error => exact ⟨created, (Quiet.of_writers same).writes⟩
  · obtain rfl : result = .ok native.count := made
    have ran := flush_settles returns exclusive created others puts
    cases outcome : Prog.seq (Prog.forEach (BatchOp.exec returns native.count) ops)
        (Result.statement (txnCommit returns native.count)) begun with
    | returned next =>
      rw [outcome] at ran
      simp only [outcome]
      exact ran
    | threw error next =>
      rw [outcome] at ran
      simp only [outcome]
      exact ran
    | diverged =>
      simp only [outcome] at ended
      exact absurd rfl ended

end Flushes

namespace Turns

variable {v8 : V8} {opt : DbOptions} {name : String} {state : State v8}

/-- How the opening of a named database ends. -/
def opening (returns : Returns) (env : ℕ) (opt : DbOptions) (name : String) (state : State v8) :
    Result Unit :=
  if hasName (state.dbs env) name then .throws (.alreadyOpened name)
  else if opt.keyType.isSome && opt.valType.isSome then (dbCtor returns (state.world.native env)).1
  else .throws .unsupportedTypes

/-- Enter a name into the `dbs` of an environment. -/
def State.enter (env : ℕ) (name : String) (state : State v8) : State v8 :=
  { state with dbs := Function.update state.dbs env (name :: state.dbs env) }

/-- An opening enters the name, or throws and enters nothing; the native side changes quietly. -/
inductive Opened (name : String) (env : ℕ) (state : State v8) :
    Result Unit → Outcome Error (State v8) → Prop where
  | ok (native : Native) (quiet : Quiet (state.world.native env) native) :
      Opened name env state (.ok ()) (.returned ((state.setNative env native).enter env name))
  | throws (error : Error) (native : Native) (quiet : Quiet (state.world.native env) native) :
      Opened name env state (.throws error) (.threw error (state.setNative env native))
  | never : Opened name env state .never .diverged

theorem openDb_unnamed (unnamed : opt.name.filter (!·.isEmpty) = none) (returns : Returns) (env : ℕ)
    (state : State v8) : openDb returns env opt state = .threw .nameRequired state := by
  simp only [openDb, unnamed]

theorem openDb_opened (given : opt.name.filter (!·.isEmpty) = some name) (returns : Returns)
    (env : ℕ) (state : State v8) :
    Opened name env state (opening returns env opt name state) (openDb returns env opt state) := by
  have refused (error : Error) : Opened name env state (.throws error) (.threw error state) := by
    have thrown : Opened name env state (.throws error) _ := .throws error _ (.refl _)
    rwa [State.setNative, Function.update_eq_self] at thrown
  simp only [opening, openDb, given]
  split_ifs with known supported
  · exact refused _
  · have quiet := dbCtor_quiet returns (state.world.native env)
    obtain ⟨keyed, valued⟩ : opt.keyType.isSome = true ∧ opt.valType.isSome = true := by
      simpa using supported
    obtain ⟨keyType, keyed⟩ := Option.isSome_iff_exists.mp keyed
    obtain ⟨valType, valued⟩ := Option.isSome_iff_exists.mp valued
    simp only [keyed, valued]
    rcases ran : dbCtor returns (state.world.native env) with ⟨reply, native⟩
    rw [ran] at quiet
    cases reply with
    | ok _ => exact .ok native quiet
    | throws error => exact .throws error native quiet
    | never => exact .never
  · cases keyed : opt.keyType with
    | none => exact refused _
    | some keyType =>
      cases valued : opt.valType with
      | none => exact refused _
      | some valType => simp [keyed, valued] at supported

end Turns

end NodeKv.Lmdb
