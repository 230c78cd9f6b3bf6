import NodeKv.Proofs.Lmdb.Queue

/-! # Conservation of the batch queue

Environments without an `onfull` handler, under every pattern of LMDB failures: what has been
committed and what is queued are together the puts that were accepted, and once a flush returns
the store is the one that direct puts would have left.
-/

namespace NodeKv.Lmdb

open Machine

variable {v8 : V8} {returns : ℕ → Returns} {stores : ℕ → Store}

section Direct

private theorem direct_put {native : Native} (unlocked : native.locked = false) {op : BatchOp v8}
    (put : op.isPut = true) :
    (op.direct silent native).Meets False
      (fun next => next.committed = op.entry.apply native.committed ∧ next.locked = false)
      fun _ _ => False := by
  cases op with
  | del db key => exact nomatch put
  | put db key val =>
    simp only [BatchOp.direct, Result.statement, Db.put, Datum.encode_value, writeScope,
      beginWrite, mdbWrite, mdbCommit, silent, unlocked, Entry.write, Option.isNone_none,
      Bool.false_eq_true, ↓reduceIte]
    exact ⟨rfl, rfl⟩

/-- Puts made one by one, without the queue. -/
theorem direct_puts (ops : List (BatchOp v8)) (puts : ∀ op ∈ ops, op.isPut = true)
    {native : Native} (unlocked : native.locked = false) :
    (Prog.forEach (BatchOp.direct silent) ops native).Meets False
      (fun next => next.committed = (ops.map BatchOp.entry).foldl Entry.apply native.committed)
      fun _ _ => False := by
  induction ops generalizing native with
  | nil => exact rfl
  | cons op rest ih =>
    refine Prog.seq_meets (direct_put unlocked (puts op (List.mem_cons_self ..))) ?_
    rintro middle ⟨committed, unlocked'⟩
    rw [List.map_cons, List.foldl_cons, ← committed]
    exact ih (fun other member => puts other (List.mem_cons_of_mem _ member)) unlocked'

end Direct

theorem accepted_puts (actions : List Action) (env : ℕ) :
    ∀ op ∈ actions.flatMap (Action.accepted v8 env), op.isPut = true := by
  intro op member
  obtain ⟨action, -, accepted⟩ := List.mem_flatMap.mp member
  cases action with
  | batchPut other db key val =>
    simp only [Action.accepted] at accepted
    split at accepted
    · split_ifs at accepted with same
      · rw [List.mem_singleton.mp accepted]
        rfl
      · cases accepted
    · cases accepted
  | setBatchSize other num => cases accepted
  | flushBatchOps other => cases accepted
  | fire => cases accepted

/-- Under every pattern of failures the committed writes followed by the queue are the accepted
puts in push order. An action that throws leaves the committed store alone and keeps its own push.
After a flush that returns, the store is that of direct puts. -/
theorem batch_ops_conserved {sizes : ℕ → JsNumber} {actions : List Action} {world : Plain v8}
    (run : Run v8 returns (opened stores sizes) actions world) (env : ℕ) :
    let pushed := actions.flatMap (Action.accepted v8 env)
    (world.native env).log.flatten ++ (world.batchOps env).map BatchOp.entry =
        pushed.map BatchOp.entry ∧
      (world.native env).committed =
        (world.native env).log.flatten.foldl Entry.apply (stores env) ∧
      (∀ action error next, act (Lmdb.flush v8 returns) action world = .threw error next →
        (next.native env).committed = (world.native env).committed ∧
        (next.native env).log = (world.native env).log ∧
        next.batchOps env = world.batchOps env ++ action.accepted v8 env) ∧
      ∀ next, flush v8 returns env world = .returned next →
        next.batchOps env = [] ∧
        ∃ direct, Prog.forEach (BatchOp.direct silent) pushed (.opened (stores env)) =
            .returned direct ∧ (next.native env).committed = direct.committed := by
  intro pushed
  obtain ⟨idle, conserves⟩ := run.conserves env
  have entries : (ledger env world).entries = pushed.map BatchOp.entry := by
    rw [conserves.entries, List.map_flatMap]
    rfl
  refine ⟨entries, idle.replayed env, ?_, ?_⟩
  · intro action error next threw
    have ended := act_accepts returns idle action
    rw [threw] at ended
    obtain ⟨-, queued⟩ := ended
    exact ⟨queued.committed env, queued.log env, queued.batchOps env⟩
  · intro next returned
    have ended := flush_meets returns idle env
    rw [returned] at ended
    obtain ⟨idle', empty, settles⟩ := ended
    have direct := direct_puts pushed (accepted_puts actions env)
      (show (Native.opened (stores env)).locked = false from rfl)
    obtain ⟨native, ran, committed⟩ := direct.returns
    refine ⟨empty, native, ran, ?_⟩
    have settled := (settles env).settled_eq (by simp [ledger, empty])
    calc (next.native env).committed
        = (ledger env next).settled.foldl Entry.apply (stores env) := idle'.replayed env
      _ = (pushed.map BatchOp.entry).foldl Entry.apply (stores env) := by
        rw [settled, List.append_nil, entries]
      _ = native.committed := committed.symm

/-- The second put of the first flush fails, and the second flush writes both puts in order. -/
theorem batch_ops_conserved_after_failure :
    let db : Db := ⟨2, .int32, .int32, false⟩
    let number (value : ℚ) : Value := .number (.finite value)
    ∃ world, Run V8.basic (fun _ call => if call = 2 then some .txnFull else none)
        (opened (fun _ _ _ => []) fun _ => .finite 64)
        [.batchPut 0 db (number 6) (number 6), .batchPut 0 db (number 7) (number 7),
          .flushBatchOps 0, .flushBatchOps 0] world ∧
      world.batchOps 0 = [] ∧
      (world.native 0).log.flatten =
        [.put db [6, 0, 0, 0] [6, 0, 0, 0], .put db [7, 0, 0, 0] [7, 0, 0, 0]] := by
  intro db number
  have performed : ∃ world, Prog.perform
      (act (flush V8.basic fun _ call => if call = 2 then some .txnFull else none))
      [.batchPut 0 db (number 6) (number 6), .batchPut 0 db (number 7) (number 7),
        .flushBatchOps 0, .flushBatchOps 0]
      (opened (fun _ _ _ => []) fun _ => .finite 64) = some world ∧ world.batchOps 0 = [] :=
    ⟨_, rfl, rfl⟩
  obtain ⟨world, ran, empty⟩ := performed
  have run := Prog.perform_runs (fun _ _ _ => id) .nil ran
  have conserved := (batch_ops_conserved run 0).1
  rw [empty, List.map_nil, List.append_nil] at conserved
  exact ⟨world, run, empty, conserved.trans (by decide +kernel)⟩

end NodeKv.Lmdb
