import NodeKv.Proofs.Lmdb.Attempt

/-! # Flushing a queue in one transaction

A flush is meant to run its whole queue in one write transaction. It does so exactly for queues of
puts. A queued delete passes the transaction of the flush where the native method expects a
value; the method finds no transaction and begins one of its own, which waits for the writer mutex
that the flush is holding.
-/

namespace NodeKv.Lmdb

open Machine

variable {v8 : V8} {η : Type*}

/-- A write that carries out a queued operation. -/
def BatchOp.Performs : BatchOp v8 → Entry → Prop
  | put db key val, entry => entry = .put db key.bytes val.bytes
  | del db key, entry => ∃ val, entry = .del db key.bytes val

/-- The flush begins one transaction, runs every operation of the queue in it, and commits what
the operations do one by one. -/
def FlushesInOneTransaction
    (onfull : η → List (BatchOp v8) → Prog Error (World Native (BatchOp v8) η Unit)) (env : ℕ)
    (world : World Native (BatchOp v8) η Unit) : Prop :=
  ∃ after entries,
    flushBatchOps (engine v8 fun _ => silent) onfull env world = .returned after ∧
    (after.native env).begun = (world.native env).begun + 1 ∧
    (after.native env).log = (world.native env).log ++ [entries] ∧
    List.Forall₂ BatchOp.Performs (world.batchOps env) entries ∧
    (after.native env).committed =
      ((world.batchOps env).map BatchOp.entry).foldl Entry.apply (world.native env).committed

theorem not_reported_silent {error : Error} : ¬Reported silent error := by
  rintro ⟨call, rc, code, -⟩
  exact nomatch code

/-- Inside the transaction of the flush, whatever the value type makes of a transaction object. -/
theorem exec_del (db : Db) (key : Datum v8 db.keyType) (handle : ℕ) {native : Native}
    (locked : native.locked = true) :
    (BatchOp.del db key).exec silent handle native = .diverged := by
  cases converted : db.valType.encode v8 (.txn handle) with
  | none => simp only [BatchOp.exec, Result.statement, Db.del, Datum.encode_value, converted]
  | some val =>
    simp only [BatchOp.exec, Result.statement, Db.del, Datum.encode_value, converted, writeScope,
      beginWrite, silent, locked, ↓reduceIte]

/-- The loop runs up to the first delete and stays there. -/
theorem exec_dels {before native : Native} {handle : ℕ} {view : Store} {entries : List Entry}
    {ops : List (BatchOp v8)} (deletes : ∃ op ∈ ops, op.isPut = false)
    (writing : Writing before handle view entries native) :
    Prog.forEach (BatchOp.exec silent handle) ops native = .diverged := by
  induction ops generalizing view entries native with
  | nil => simp at deletes
  | cons op rest ih =>
    cases op with
    | del db key => exact Prog.seq_diverged (exec_del db key handle writing.locked)
    | put db key val =>
      have later : ∃ op ∈ rest, op.isPut = false := by simpa [BatchOp.isPut] using deletes
      have put : (BatchOp.put db key val).isPut = true := rfl
      have head := exec_put silent writing put
      cases ran : (BatchOp.put db key val).exec silent handle native with
      | returned next =>
        rw [ran] at head
        exact (Prog.seq_returned ran).trans (ih later head)
      | threw error next =>
        rw [ran] at head
        exact (not_reported_silent head.1).elim
      | diverged => exact Prog.seq_diverged ran

private theorem attempt_del {ops : List (BatchOp v8)} (deletes : ∃ op ∈ ops, op.isPut = false)
    {native : Native} (unlocked : native.locked = false) :
    (attempt silent ops native).1 = .stuck := by
  rcases txnCtor_write silent unlocked with
    ⟨error, after, -, reported, -⟩ | ⟨handle, after, begun, writing⟩
  · exact (not_reported_silent reported).elim
  · simp only [attempt, attemptWith, transaction, begun, Prog.seq_diverged (exec_dels deletes writing)]

theorem attempt_locked (ops : List (BatchOp v8)) {native : Native} (locked : native.locked = true) :
    (attempt silent ops native).1 = .stuck := by
  simp only [attempt, attemptWith, transaction, txnCtor, beginWrite, silent, locked,
    Bool.false_eq_true, ↓reduceIte]

variable {onfull : η → List (BatchOp v8) → Prog Error (World Native (BatchOp v8) η Unit)} {env : ℕ}
  {world : World Native (BatchOp v8) η Unit}

/-- A queue with a delete is never flushed. -/
theorem flush_del_diverges (deletes : ∃ op ∈ world.batchOps env, op.isPut = false) :
    flushBatchOps (engine v8 fun _ => silent) onfull env world = .diverged := by
  have nonempty : world.batchOps env ≠ [] := by
    obtain ⟨op, member, -⟩ := deletes
    exact List.ne_nil_of_mem member
  cases locked : (world.native env).locked with
  | true => exact flushBatchOps_stuck nonempty (attempt_locked _ locked)
  | false => exact flushBatchOps_stuck nonempty (attempt_del deletes locked)

/-- A queue of puts is flushed as a whole. -/
theorem flush_puts (unlocked : (world.native env).locked = false)
    (nonempty : world.batchOps env ≠ []) (puts : ∀ op ∈ world.batchOps env, op.isPut = true) :
    ∃ native, Settled (world.native env) (world.batchOps env) native ∧
      flushBatchOps (engine v8 fun _ => silent) onfull env world =
        .returned ((world.after env native ()).setOps env []) := by
  have outcome := attempt_puts silent unlocked puts
  cases ran : attempt silent (world.batchOps env) (world.native env) with
  | mk result native =>
    rw [ran] at outcome
    cases outcome with
    | committed settled =>
      refine ⟨native, settled, flushBatchOps_committed nonempty ?_⟩
      simp only [engine, ran]
    | failed reported undone => exact (not_reported_silent reported).elim
    | notBegun reported undone => exact (not_reported_silent reported).elim

private theorem performs_entry {ops : List (BatchOp v8)} :
    List.Forall₂ BatchOp.Performs ops (ops.map BatchOp.entry) := by
  induction ops with
  | nil => exact .nil
  | cons op rest ih =>
    refine .cons ?_ ih
    cases op with
    | put db key val => rfl
    | del db key => exact ⟨none, rfl⟩

/-- Batching is atomic and in order exactly for queues of puts: a queue with a delete deadlocks. An
empty queue begins no transaction, and a transaction that is open already blocks the flush. -/
theorem flushes_in_one_transaction_iff
    (onfull : η → List (BatchOp v8) → Prog Error (World Native (BatchOp v8) η Unit)) (env : ℕ)
    (world : World Native (BatchOp v8) η Unit) :
    FlushesInOneTransaction onfull env world ↔
      (world.native env).locked = false ∧ world.batchOps env ≠ [] ∧
        ∀ op ∈ world.batchOps env, op.isPut = true := by
  constructor
  · rintro ⟨after, entries, returned, begun, -⟩
    have nonempty : world.batchOps env ≠ [] := by
      intro empty
      rw [flushBatchOps_empty empty, Outcome.returned.injEq] at returned
      subst returned
      omega
    refine ⟨?_, nonempty, ?_⟩
    · cases locked : (world.native env).locked with
      | false => rfl
      | true =>
        rw [flushBatchOps_stuck nonempty (attempt_locked _ locked)] at returned
        exact nomatch returned
    · intro op member
      cases put : op.isPut with
      | true => rfl
      | false =>
        rw [flush_del_diverges ⟨op, member, put⟩] at returned
        exact nomatch returned
  · rintro ⟨unlocked, nonempty, puts⟩
    obtain ⟨native, settled, flushed⟩ := flush_puts unlocked nonempty puts
    have left : ((world.after env native ()).setOps env []).native env = native :=
      Function.update_self ..
    refine ⟨_, (world.batchOps env).map BatchOp.entry, flushed, ?_, ?_, performs_entry, ?_⟩
    · rw [left, settled.begun]
    · rw [left, settled.log]
    · rw [left, settled.committed]

/-- Two puts and a delete of the second key, on a database of integers. -/
theorem flush_of_batchDel_deadlocks :
    let db : Db := ⟨2, .int32, .int32, false⟩
    let number (value : ℚ) : Value := .number (.finite value)
    let flush := flush V8.basic fun _ => silent
    ∃ world,
      Prog.seq (batchPut flush 0 db (number 6) (number 6))
        (Prog.seq (batchPut flush 0 db (number 7) (number 7)) (batchDel flush 0 db (number 7)))
        (opened (fun _ _ _ => []) fun _ => .finite 64) = .returned world ∧
      flush 0 world = .diverged ∧
      ¬FlushesInOneTransaction (fun handler => nomatch handler) 0 world := by
  refine ⟨_, rfl, ?_⟩
  rw [and_iff_left_of_imp]
  · exact flush_del_diverges ⟨_, List.mem_append_right _ (List.mem_singleton_self _), rfl⟩
  · rintro diverged ⟨after, entries, returned, -⟩
    exact nomatch diverged.symm.trans returned

end NodeKv.Lmdb
