import NodeKv.Proofs.Level.Db

/-! # Transparent batching

The script counter of a batch always equals the number of its native records, so a flush writes
the batch exactly when it holds something. Every write failure leaves the store and the batch as
they were. Hence the written records followed by those in the batch are the accepted operations
in call order, and flushing makes batching invisible.
-/

namespace NodeKv.Level

open Machine

variable {v8 : V8}

/-- Every database is counted. -/
def Idle (stores : ℕ → Bytes → Option Bytes) (world : World) : Prop :=
  ∀ index, Counted (stores index) (world.dbs index)

/-- Every store as it was, and the batches with these records at their ends. -/
def Queued (accepted : ℕ → List Record) (before after : World) : Prop :=
  ∀ index, Kept (accepted index) (before.dbs index) (after.dbs index)

/-- How an action that accepts these records may end. -/
def Accepts (stores : ℕ → Bytes → Option Bytes) (accepted : ℕ → List Record) (before : World)
    (outcome : Outcome Error World) : Prop :=
  outcome.Meets False
    (fun next => Idle stores next ∧ ∀ index,
      (before.dbs index).ledger.Conserves (accepted index) (next.dbs index).ledger)
    fun _ next => Idle stores next ∧ Queued accepted before next

section World

variable {fails : ℕ → Fails} {schema : ℕ → Schema} {stores : ℕ → Bytes → Option Bytes}
  {accepted : ℕ → List Record} {before world : World}

theorem Queued.accepts (queued : Queued accepted before world) (idle : Idle stores world) :
    Accepts stores accepted before (.returned world) :=
  ⟨idle, fun index => (queued index).conserves⟩

theorem Idle.set (idle : Idle stores world) {index : ℕ} {db : Db}
    (counted : Counted (stores index) db) :
    Idle stores { world with dbs := Function.update world.dbs index db } := by
  intro other
  rcases eq_or_ne other index with rfl | ne
  · simpa using counted
  · simpa [ne] using idle other

/-- A flush at the end of an action. -/
theorem Queued.flush (queued : Queued accepted before world) (idle : Idle stores world)
    (index : ℕ) :
    Accepts stores accepted before (World.run index (flushBatchOps (fails index)) world) := by
  refine Prog.zoom_meets ((flushBatchOps_meets (fails index) (idle index)).mono id ?_ ?_)
  · rintro next ⟨counted, -, conserves⟩
    refine ⟨idle.set counted, fun other => ?_⟩
    rcases eq_or_ne other index with rfl | ne
    · simpa using (queued other).conserves.trans conserves
    · simpa [ne] using (queued other).conserves
  · intro error next kept
    refine ⟨idle.set (kept.counted (idle index)), fun other => ?_⟩
    rcases eq_or_ne other index with rfl | ne
    · simpa using (queued other).then kept
    · simpa [ne] using queued other

/-- A flush that returns has emptied the batch. -/
theorem flush_drains (fails : ℕ → Fails) (idle : Idle stores world) (index : ℕ) :
    (World.run index (flushBatchOps (fails index)) world).Meets False
      (fun next => Counted (stores index) (next.dbs index) ∧ (next.dbs index).records = [] ∧
        (world.dbs index).ledger.Conserves [] (next.dbs index).ledger)
      fun _ _ => True := by
  refine Prog.zoom_meets ((flushBatchOps_meets (fails index) (idle index)).mono id ?_ ?_)
  · intro db flushed
    simpa using flushed
  · exact fun _ _ _ => trivial

/-- The records an operation gives to one of the databases. -/
def recorded (v8 : V8) (schema : ℕ → Schema) (index : ℕ) (ops : List Op) : List Record :=
  ops.filterMap fun op => op.record? v8 (schema index)

private theorem recorded_singleton (schema : ℕ → Schema) (index : ℕ) (op : Op) :
    recorded v8 schema index [op] = (op.record? v8 (schema index)).toList := by
  cases given : op.record? v8 (schema index) <;> simp [recorded, given]

/-- One database has changed its batch, and the others nothing. -/
theorem Idle.queue (idle : Idle stores world) {index : ℕ} {db : Db}
    (kept : Kept (accepted index) (world.dbs index) db)
    (others : ∀ other, other ≠ index → accepted other = []) :
    Idle stores { world with dbs := Function.update world.dbs index db } ∧
      Queued accepted world { world with dbs := Function.update world.dbs index db } := by
  refine ⟨idle.set (kept.counted (idle index)), fun other => ?_⟩
  rcases eq_or_ne other index with rfl | ne
  · simpa using kept
  · simp only [ne, ne_eq, not_false_eq_true, Function.update_of_ne, others other ne]
    exact .refl _

private theorem batchOp_accepts (fails : ℕ → Fails) (schema : ℕ → Schema) (idle : Idle stores world)
    (index : ℕ) (op : Op) :
    Accepts stores (fun other => recorded v8 schema other (if index = other then [op] else []))
      world (batchOp v8 fails schema index op world) := by
  have here : recorded v8 schema index (if index = index then [op] else []) =
      (op.record? v8 (schema index)).toList := by
    rw [if_pos rfl, recorded_singleton]
  have others : ∀ other, other ≠ index →
      recorded v8 schema other (if index = other then [op] else []) = [] := by
    intro other ne
    rw [if_neg ne.symm]
    rfl
  have batched : (World.run index (batchRecord v8 (fails index) (schema index) op) world).Meets
      False
      (fun next => Idle stores next ∧
        Queued (fun other => recorded v8 schema other (if index = other then [op] else [])) world next)
      fun _ next => Idle stores next ∧
        Queued (fun other => recorded v8 schema other (if index = other then [op] else []))
          world next := by
    refine Prog.zoom_meets ((batchRecord_meets (fails index) (schema index) op
      (world.dbs index)).mono id ?_ ?_)
    · rintro next ⟨kept, -⟩
      exact idle.queue (here ▸ kept) others
    · rintro error _ ⟨refused, rfl⟩
      refine idle.queue ?_ others
      rw [here, refused]
      exact .refl _
  refine Prog.seq_meets batched ?_
  rintro next ⟨idle', queued⟩
  simp only
  split_ifs with full
  · exact queued.flush idle' index
  · exact ⟨idle', fun other => (queued other).conserves⟩

theorem act_accepts (v8 : V8) (fails : ℕ → Fails) (schema : ℕ → Schema) (idle : Idle stores world)
    (action : Action) :
    Accepts stores (fun index => recorded v8 schema index (action.ops index)) world
      (act v8 fails schema action world) := by
  have same : Queued (fun _ => []) world world := fun _ => .refl _
  cases action with
  | batchPut index key val => exact batchOp_accepts fails schema idle index (.put key val)
  | batchDel index key => exact batchOp_accepts fails schema idle index (.del key)
  | setBatchSize index num =>
    have kept : Kept [] (world.dbs index) { world.dbs index with batchSize := num } :=
      { Kept.refl (world.dbs index) with }
    have moved : Idle stores _ ∧ Queued (fun _ => []) world _ := idle.queue kept fun _ _ => rfl
    exact moved.2.accepts moved.1
  | flushBatchOps index => exact same.flush idle index
  | fire =>
    simp only [act]
    cases world.timer with
    | none => exact same.accepts idle
    | some index =>
      have disarmed : Queued (fun _ => []) world { world with timer := none } := same
      exact disarmed.flush idle index

/-- Operations performed one by one on the database itself. -/
theorem direct_ops (schema : Schema) (ops : List Op)
    (given : ∀ op ∈ ops, (op.record? v8 schema).isSome) (db : Db) :
    (Prog.forEach (Op.perform v8 (fun _ => none) schema .database) ops db).Meets False
      (fun next => next.store = applyAll db.store (ops.filterMap (Op.record? v8 schema)))
      fun _ _ => False := by
  induction ops generalizing db with
  | nil => exact rfl
  | cons op rest ih =>
    have head := given op (List.mem_cons_self ..)
    rcases op.perform_cases (fun _ => none) schema .database with
      ⟨refused, -⟩ | ⟨record, recorded, wrote⟩
    · rw [refused] at head
      exact nomatch head
    · rw [Prog.forEach_cons, wrote, List.filterMap_cons, recorded]
      exact ih (fun other member => given other (List.mem_cons_of_mem _ member)) { db with
        calls := db.calls + 1, store := applyAll db.store [record], log := db.log ++ [record] }

private theorem recorded_accepted (schema : ℕ → Schema) (index : ℕ) (actions : List Action) :
    (Level.accepted v8 schema index actions).filterMap (Op.record? v8 (schema index)) =
      actions.flatMap fun action => recorded v8 schema index (action.ops index) := by
  have filtered : (fun op => if (Op.record? v8 (schema index) op).isSome then
      Op.record? v8 (schema index) op else none) = Op.record? v8 (schema index) := by
    funext op
    cases op.record? v8 (schema index) <;> rfl
  rw [Level.accepted, List.filterMap_filter, filtered, List.filterMap_flatMap]
  rfl

theorem opened_idle (stores : ℕ → Bytes → Option Bytes) (sizes : ℕ → JsNumber) :
    Idle stores (opened stores sizes) := fun _ => ⟨rfl, rfl⟩

theorem Run.conserves {sizes : ℕ → JsNumber} {actions : List Action}
    (run : Run v8 fails schema (opened stores sizes) actions world) (index : ℕ) :
    Idle stores world ∧ ((opened stores sizes).dbs index).ledger.Conserves
      (actions.flatMap fun action => recorded v8 schema index (action.ops index))
      (world.dbs index).ledger := by
  refine Ledger.Conserves.of_runs run (Idle stores) (fun world => (world.dbs index).ledger) _
    (opened_idle stores sizes) ?_
  intro state action next idle acted
  have ended : (act v8 fails schema action state).Meets False
      (fun next => Idle stores next ∧ (state.dbs index).ledger.Conserves
        (recorded v8 schema index (action.ops index)) (next.dbs index).ledger)
      fun _ next => Idle stores next ∧ (state.dbs index).ledger.Conserves
        (recorded v8 schema index (action.ops index)) (next.dbs index).ledger := by
    refine Outcome.Meets.mono (act_accepts v8 fails schema idle action) id ?_ ?_
    · rintro next ⟨idle', conserves⟩
      exact ⟨idle', conserves index⟩
    · rintro error next ⟨idle', queued⟩
      exact ⟨idle', (queued index).conserves⟩
  exact ended.state? acted

/-- The counter equals the number of records, and the written records followed by those of the
batch are the accepted operations in call order. An action that throws leaves the store alone and
the batch with what the action had added. After a flush that returns, the store is that of
performing the accepted operations directly. -/
theorem batching_transparent {sizes : ℕ → JsNumber} {actions : List Action}
    (run : Run v8 fails schema (opened stores sizes) actions world) (index : ℕ) :
    (world.dbs index).cnt = (world.dbs index).records.length ∧
      (world.dbs index).log ++ (world.dbs index).records =
        (Level.accepted v8 schema index actions).filterMap (Op.record? v8 (schema index)) ∧
      (world.dbs index).store = applyAll (stores index) (world.dbs index).log ∧
      (∀ action error next, act v8 fails schema action world = .threw error next →
        (next.dbs index).store = (world.dbs index).store ∧
        (next.dbs index).log = (world.dbs index).log ∧
        (next.dbs index).records = (world.dbs index).records ++
          (Level.accepted v8 schema index [action]).filterMap (Op.record? v8 (schema index))) ∧
      ∀ next, act v8 fails schema (.flushBatchOps index) world = .returned next →
        (next.dbs index).records = [] ∧
        ∃ direct, Prog.forEach (Op.perform v8 (fun _ => none) (schema index) .database)
            (Level.accepted v8 schema index actions) ((opened stores sizes).dbs index) =
            .returned direct ∧
          (next.dbs index).store = direct.store := by
  obtain ⟨idle, conserves⟩ := run.conserves index
  rw [← recorded_accepted] at conserves
  refine ⟨(idle index).cnt, conserves.entries, (idle index).replayed, ?_, ?_⟩
  · intro action error next threw
    have ended := act_accepts v8 fails schema idle action
    rw [threw] at ended
    obtain ⟨-, queued⟩ := ended
    rw [recorded_accepted, List.flatMap_singleton]
    exact ⟨(queued index).store, (queued index).log, (queued index).records⟩
  · intro next returned
    have ended := flush_drains fails idle index
    rw [show World.run index (flushBatchOps (fails index)) world = _ from returned] at ended
    obtain ⟨counted, empty, settles⟩ := ended
    have given : ∀ op ∈ Level.accepted v8 schema index actions,
        (op.record? v8 (schema index)).isSome := by
      intro op member
      exact (List.mem_filter.mp member).2
    obtain ⟨direct, ran, store⟩ :=
      (direct_ops (schema index) _ given ((opened stores sizes).dbs index)).returns
    refine ⟨empty, direct, ran, ?_⟩
    have settled := (conserves.trans settles).settled_eq empty
    rw [List.append_nil] at settled
    calc (next.dbs index).store
        = applyAll (stores index) (next.dbs index).log := counted.replayed
      _ = applyAll (stores index) ((Level.accepted v8 schema index actions).filterMap
            (Op.record? v8 (schema index))) := congrArg (applyAll (stores index)) settled
      _ = direct.store := store.symm

end World

/-- A rejected argument, a failed write and a second try. -/
theorem batching_transparent_after_failure :
    let number (value : ℚ) : Value := .number (.finite value)
    ∃ world, Run V8.basic (fun _ call => if call = 0 then some "IO error" else none)
        (fun _ => ⟨.int32, .int32⟩) (opened (fun _ _ => none) fun _ => .finite 64)
        [.batchPut 0 (number 6) (number 6), .batchPut 0 .undefined (number 1),
          .batchDel 0 (number 6), .flushBatchOps 0, .flushBatchOps 0] world ∧
      (world.dbs 0).records = [] ∧
      (world.dbs 0).log = [.put [6, 0, 0, 0] [6, 0, 0, 0], .del [6, 0, 0, 0]] := by
  intro number
  have performed : ∃ world, Prog.perform
      (act V8.basic (fun _ call => if call = 0 then some "IO error" else none)
        fun _ => ⟨.int32, .int32⟩)
      [.batchPut 0 (number 6) (number 6), .batchPut 0 .undefined (number 1),
        .batchDel 0 (number 6), .flushBatchOps 0, .flushBatchOps 0]
      (opened (fun _ _ => none) fun _ => .finite 64) = some world ∧ (world.dbs 0).records = [] :=
    ⟨_, rfl, rfl⟩
  obtain ⟨world, ran, empty⟩ := performed
  have run := Prog.perform_runs (fun _ _ _ => id) .nil ran
  have conserved := (batching_transparent run 0).2.1
  rw [empty, List.append_nil] at conserved
  exact ⟨world, run, empty, conserved.trans (by decide +kernel)⟩

end NodeKv.Level
