import NodeKv.Machine.Debounce
import NodeKv.Model.Lmdb.Db
import NodeKv.Proofs.Level.Db

/-! # What the auto-flush forgets

`_autoFlush` is debounced once, on the prototype, so all environments of LMDB share one timer and
one remembered `this`, and so do all databases of LevelDB and of RocksDB. When the timer fires for
the instance recorded last, whatever another instance has queued stays queued with no timer
pending. Without engine errors this is the only way to leave a queue behind.
-/

namespace NodeKv

open Machine

namespace Lmdb

variable {σ ω η χ : Type*}

/-- Queued work and the shared timer. -/
def debounced (world : World σ ω η χ) : Debounced ℕ := ⟨fun env => world.batchOps env ≠ [], world.timer⟩

/-- No timer pending means nothing queued. -/
def Drained (world : World σ ω η χ) : Prop := world.timer = none → ∀ env, world.batchOps env = []

theorem covered_iff_drained (world : World σ ω η χ) :
    (debounced world).Covered ↔ Drained world := by
  simp only [Debounced.Covered, debounced, Drained, ne_eq, not_not]

/-- The queue that a call flushes. -/
def Call.flushes? (world : World σ ω η χ) : Call ω → Option (ℕ × List ω)
  | .push env op =>
    if (world.batchSize env).reached ((world.batchOps env).length + 1) then
      some (env, world.batchOps env ++ [op])
    else none
  | .setBatchSize env num =>
    if num.min256.exceeded (world.batchOps env).length then some (env, world.batchOps env) else none
  | .flushBatchOps env => some (env, world.batchOps env)
  | .fire => world.timer.map fun env => (env, world.batchOps env)

/-- The transaction of a call commits, if there is one. -/
def Commits (engine : Engine σ ω χ) (world : World σ ω η χ) (call : Call ω) : Prop :=
  ∀ env ops, call.flushes? world = some (env, ops) → ops ≠ [] →
    (engine world.host env (world.native env) ops).result = .committed

theorem Commits.of_none {engine : Engine σ ω χ} {world : World σ ω η χ} {call : Call ω}
    (none : call.flushes? world = none) : Commits engine world call := by
  intro env ops flushes
  cases none.symm.trans flushes

theorem Commits.of_some {engine : Engine σ ω χ} {world : World σ ω η χ} {call : Call ω} {env : ℕ}
    {ops : List ω} (flushes : call.flushes? world = some (env, ops))
    (committed : (engine world.host env (world.native env) ops).result = .committed) :
    Commits engine world call := by
  intro env' ops' flushes' _
  cases flushes.symm.trans flushes'
  exact committed

/-- The timer fires. -/
def Call.Fires : Call ω → Prop
  | .fire => True
  | _ => False

variable {engine : Engine σ ω χ} (onfull : η → List ω → Prog Error (World σ ω η χ))

theorem flush_commits {env : ℕ} {world : World σ ω η χ}
    (commits : world.batchOps env ≠ [] →
      (engine world.host env (world.native env) (world.batchOps env)).result = .committed) :
    (flushBatchOps engine onfull env world).Meets False
      (fun next => next.timer = world.timer ∧ next.batchOps = Function.update world.batchOps env [])
      fun _ _ => False := by
  by_cases empty : world.batchOps env = []
  · rw [flushBatchOps_empty empty]
    exact ⟨rfl, by rw [← empty, Function.update_eq_self]⟩
  · have committed := commits empty
    cases attempt : engine world.host env (world.native env) (world.batchOps env) with
    | mk result native host =>
      rw [attempt] at committed
      obtain rfl : result = .committed := committed
      rw [flushBatchOps_committed empty attempt]
      exact ⟨rfl, rfl⟩

/-- A flush of one environment, seen from the timer. -/
theorem flush_drained {before world next : World σ ω η χ} {env : ℕ} {firing : Prop}
    (flushed : next.timer = world.timer ∧ next.batchOps = Function.update world.batchOps env [])
    (quiet : firing → before.timer = none) (timer : world.timer = before.timer)
    (others : ∀ other, other ≠ env → world.batchOps other = before.batchOps other) :
    (debounced before).Moves (debounced next) firing := by
  obtain ⟨armed, queues⟩ := flushed
  refine .drained quiet (armed.trans timer) ?_
  intro other waits
  rw [debounced, queues] at waits
  rcases eq_or_ne other env with rfl | ne
  · simp at waits
  · simpa [debounced, ne, others other ne] using waits

private theorem call_moves {world next : World σ ω η χ} {action : Call ω}
    (commits : Commits engine world action)
    (called : Prog.Steps (call (flushBatchOps engine onfull)) world action next) :
    (debounced world).Moves (debounced next) action.Fires := by
  have ends : (call (flushBatchOps engine onfull) action world).Meets False
      (fun next => (debounced world).Moves (debounced next) action.Fires)
      fun _ next => (debounced world).Moves (debounced next) action.Fires := by
    cases action with
    | push env op =>
      simp only [call, pushBatch]
      split_ifs with full
      · refine (flush_commits onfull fun some => ?_).mono id ?_ (fun _ _ => False.elim)
        · have full : (world.batchSize env).reached ((world.batchOps env).length + 1) = true := by
            simpa [World.setOps] using full
          have committed := commits env _ (if_pos full) (by simp)
          simpa [World.setOps] using committed
        · intro next flushed
          refine flush_drained flushed nofun rfl ?_
          intro other ne
          simp [World.setOps, ne]
      · exact .called nofun env rfl
    | setBatchSize env num =>
      simp only [call, setBatchSize]
      split_ifs with long
      · refine (flush_commits onfull fun some => ?_).mono id ?_ (fun _ _ => False.elim)
        · have long : num.min256.exceeded (world.batchOps env).length = true := by simpa using long
          exact commits env _ (if_pos long) some
        · intro next flushed
          exact flush_drained flushed nofun rfl fun _ _ => rfl
      · exact .drained nofun rfl fun _ => id
    | flushBatchOps env =>
      refine (flush_commits onfull (commits env _ rfl)).mono id ?_ (fun _ _ => False.elim)
      intro next flushed
      exact flush_drained flushed nofun rfl fun _ _ => rfl
    | fire =>
      simp only [call, fire]
      cases armed : world.timer with
      | none => exact .drained (fun _ => armed) rfl fun _ => id
      | some env =>
        have flushes : Call.fire.flushes? world = some (env, world.batchOps env) := by
          rw [Call.flushes?, armed, Option.map_some]
        refine Outcome.Meets.mono (flush_commits onfull ?_) id ?_ (fun _ _ => False.elim)
        · exact commits env _ flushes
        rintro next ⟨off, queues⟩
        refine .fired trivial env armed off ?_
        intro other
        rw [debounced, queues]
        rcases eq_or_ne other env with rfl | ne
        · simp
        · simp [debounced, ne]
  exact ends.state? called

end Lmdb

namespace Level

/-- Counted work and the shared timer. -/
def debounced (world : World) : Debounced ℕ := ⟨fun index => (world.dbs index).cnt ≠ 0, world.timer⟩

/-- No timer pending means nothing batched. -/
def Drained (world : World) : Prop := world.timer = none → ∀ index, (world.dbs index).cnt = 0

theorem covered_iff_drained (world : World) : (debounced world).Covered ↔ Drained world := by
  simp only [Debounced.Covered, debounced, Drained, ne_eq, not_not]

/-- No native write fails. -/
def faultless : Fails := fun _ => none

/-- The timer fires. -/
def Action.Fires : Action → Prop
  | .fire => True
  | _ => False

private theorem flush_faultless (index : ℕ) (world : World) :
    (World.run index (flushBatchOps faultless) world).Meets False
      (fun next => next.timer = world.timer ∧ (next.dbs index).cnt = 0 ∧
        ∀ other, other ≠ index → next.dbs other = world.dbs other)
      fun _ _ => False := by
  refine Prog.zoom_meets ?_
  have others : ∀ db other, other ≠ index → Function.update world.dbs index db other = world.dbs other :=
    fun db other ne => Function.update_of_ne ne ..
  unfold flushBatchOps
  split_ifs with some
  · refine ⟨rfl, ?_, others _⟩
    simp
  · refine ⟨rfl, ?_, others _⟩
    simp only [Function.update_self]
    omega

/-- A flush of one database, seen from the timer. -/
theorem flush_drained {before world next : World} {index : ℕ} {firing : Prop}
    (flushed : next.timer = world.timer ∧ (next.dbs index).cnt = 0 ∧
      ∀ other, other ≠ index → next.dbs other = world.dbs other)
    (quiet : firing → before.timer = none) (timer : world.timer = before.timer)
    (others : ∀ other, other ≠ index → world.dbs other = before.dbs other) :
    (debounced before).Moves (debounced next) firing := by
  obtain ⟨armed, empty, same⟩ := flushed
  refine .drained quiet (armed.trans timer) ?_
  intro other waits
  rcases eq_or_ne other index with rfl | ne
  · exact absurd empty waits
  · simpa only [debounced, same other ne, others other ne] using waits

variable {v8 : V8} {schema : ℕ → Schema}

private theorem batchOp_moves (v8 : V8) (schema : ℕ → Schema) (index : ℕ) (op : Op)
    (world : World) :
    (batchOp v8 (fun _ => faultless) schema index op world).Meets False
      (fun next => (debounced world).Moves (debounced next) False)
      fun _ next => (debounced world).Moves (debounced next) False := by
  have batched : (World.run index (batchRecord v8 faultless (schema index) op) world).Meets False
      (fun next => next.timer = world.timer ∧
        ∀ other, other ≠ index → next.dbs other = world.dbs other)
      fun _ next => (debounced world).Moves (debounced next) False := by
    refine Prog.zoom_meets ((batchRecord_meets faultless (schema index) op
      (world.dbs index)).mono id ?_ ?_)
    · intro db _
      exact ⟨rfl, fun other ne => Function.update_of_ne ne ..⟩
    · rintro error _ ⟨-, rfl⟩
      rw [Function.update_eq_self]
      exact .drained nofun rfl fun _ => id
  refine Prog.seq_meets batched ?_
  rintro next ⟨timer, others⟩
  simp only
  split_ifs with full
  · refine (flush_faultless index next).mono id ?_ (fun _ _ => False.elim)
    intro last flushed
    exact flush_drained flushed nofun timer others
  · exact .called nofun index rfl

private theorem act_moves {world next : World} {action : Action}
    (acted : Prog.Steps (act v8 (fun _ => faultless) schema) world action next) :
    (debounced world).Moves (debounced next) action.Fires := by
  have ends : (act v8 (fun _ => faultless) schema action world).Meets False
      (fun next => (debounced world).Moves (debounced next) action.Fires)
      fun _ next => (debounced world).Moves (debounced next) action.Fires := by
    cases action with
    | batchPut index key val => exact batchOp_moves v8 schema index (.put key val) world
    | batchDel index key => exact batchOp_moves v8 schema index (.del key) world
    | setBatchSize index num =>
      refine .drained nofun rfl ?_
      intro other waits
      rcases eq_or_ne other index with rfl | ne
      · simpa [debounced] using waits
      · simpa [debounced, ne] using waits
    | flushBatchOps index =>
      refine (flush_faultless index world).mono id ?_ (fun _ _ => False.elim)
      intro next flushed
      exact flush_drained flushed nofun rfl fun _ _ => rfl
    | fire =>
      simp only [act]
      cases armed : world.timer with
      | none => exact .drained (fun _ => armed) rfl fun _ => id
      | some index =>
        refine (flush_faultless index { world with timer := none }).mono id ?_
          (fun _ _ => False.elim)
        rintro next ⟨off, empty, same⟩
        refine .fired trivial index armed off ?_
        intro other
        rcases eq_or_ne other index with rfl | ne
        · simp [debounced, empty]
        · simp [debounced, ne, same other ne]
  exact ends.state? acted

end Level

/-- In a run whose timer only ever fires while no other instance has anything queued, an absent
timer means empty queues. Any other firing leaves a queue behind at once. -/
theorem autoFlush_forgets_nothing {σ ω η χ : Type*} {engine : Lmdb.Engine σ ω χ}
    (onfull : η → List ω → Prog Error (Lmdb.World σ ω η χ))
    {start world : Lmdb.World σ ω η χ} {calls : List (Lmdb.Call ω)} (fresh : Lmdb.Drained start)
    (run : Runs (Guarded (Debounced.Fires Lmdb.debounced Lmdb.Call.Fires) (Guarded (Lmdb.Commits engine)
      (Prog.Steps (Lmdb.call (Lmdb.flushBatchOps engine onfull))))) start calls world)
    {v8 : V8} {schema : ℕ → Level.Schema} {levelStart levelWorld : Level.World}
    {actions : List Level.Action} (levelFresh : Level.Drained levelStart)
    (levelRun : Runs (Guarded (Debounced.Fires Level.debounced Level.Action.Fires)
      (Prog.Steps (Level.act v8 (fun _ => Level.faultless) schema))) levelStart actions levelWorld) :
    (Lmdb.Drained world ∧ ∀ call next, Lmdb.Commits engine world call →
      Prog.Steps (Lmdb.call (Lmdb.flushBatchOps engine onfull)) world call next →
      (Lmdb.Drained next ↔ Debounced.Fires Lmdb.debounced Lmdb.Call.Fires world call)) ∧
    Level.Drained levelWorld ∧ ∀ action next,
      Prog.Steps (Level.act v8 (fun _ => Level.faultless) schema) levelWorld action next →
      (Level.Drained next ↔ Debounced.Fires Level.debounced Level.Action.Fires levelWorld action) := by
  have covered := Debounced.covered_of_runs run
    (fun _ _ _ called => Lmdb.call_moves onfull called.1 called.2)
    ((Lmdb.covered_iff_drained start).mpr fresh)
  have levelCovered := Debounced.covered_of_runs levelRun (fun _ _ _ => Level.act_moves)
    ((Level.covered_iff_drained levelStart).mpr levelFresh)
  refine ⟨⟨(Lmdb.covered_iff_drained world).mp covered, ?_⟩,
    (Level.covered_iff_drained levelWorld).mp levelCovered, ?_⟩
  · intro call next commits called
    rw [← Lmdb.covered_iff_drained]
    exact (Lmdb.call_moves onfull commits called).covered_iff covered
  · intro action next acted
    rw [← Level.covered_iff_drained]
    exact (Level.act_moves acted).covered_iff levelCovered

/-- Two instances: the one is flushed by hand before the other one pushes, which the timer flushes. -/
theorem autoFlush_forgets_nothing_in_turn :
    let flush := Lmdb.flush V8.basic fun _ => Lmdb.silent
    let number (value : ℚ) : Value := .number (.finite value)
    let one : Datum V8.basic .int32 := ⟨number 1, number 1, rfl⟩
    let op : Lmdb.BatchOp V8.basic := .put ⟨2, .int32, .int32, false⟩ one one
    ∃ world levelWorld,
      Runs (Prog.Steps (Lmdb.call flush)) (Lmdb.opened (fun _ _ _ => []) fun _ => .finite 64)
        [.push 0 op, .flushBatchOps 0, .push 1 op, .fire] world ∧
      Runs (Prog.Steps (Level.act V8.basic (fun _ => Level.faultless) fun _ => ⟨.int32, .int32⟩))
        (Level.opened (fun _ _ => none) fun _ => .finite 64)
        [.batchPut 0 (number 6) (number 6), .flushBatchOps 0, .batchPut 1 (number 7) (number 7), .fire]
        levelWorld ∧
      Lmdb.Drained world ∧ Level.Drained levelWorld := by
  intro flush number one op
  have pushed : Runs (Guarded (Debounced.Fires Lmdb.debounced Lmdb.Call.Fires) (Guarded
      (Lmdb.Commits (Lmdb.engine V8.basic fun _ => Lmdb.silent)) (Prog.Steps (Lmdb.call flush))))
      (Lmdb.opened (fun _ _ _ => []) fun _ => .finite 64)
      ([] ++ [.push 0 op] ++ [.flushBatchOps 0] ++ [.push 1 op]) _ :=
    .snoc (.snoc (.snoc .nil ⟨False.elim, .of_none rfl, rfl⟩) ⟨False.elim, .of_some rfl rfl, rfl⟩)
      ⟨False.elim, .of_none rfl, rfl⟩
  obtain ⟨world, run⟩ : ∃ world, Runs (Guarded (Debounced.Fires Lmdb.debounced Lmdb.Call.Fires) (Guarded
      (Lmdb.Commits (Lmdb.engine V8.basic fun _ => Lmdb.silent)) (Prog.Steps (Lmdb.call flush))))
      (Lmdb.opened (fun _ _ _ => []) fun _ => .finite 64)
      ([] ++ [.push 0 op] ++ [.flushBatchOps 0] ++ [.push 1 op] ++ [.fire]) world := by
    refine ⟨_, .snoc pushed ⟨?_, .of_some rfl rfl, rfl⟩⟩
    intro _ caller armed other waits
    obtain rfl : 1 = caller := Option.some.inj armed
    by_contra ne
    exact waits (by simp [Lmdb.World.setOps, Lmdb.World.after, Lmdb.opened, ne])
  have batched : Runs (Guarded (Debounced.Fires Level.debounced Level.Action.Fires)
      (Prog.Steps (Level.act V8.basic (fun _ => Level.faultless) fun _ => ⟨.int32, .int32⟩)))
      (Level.opened (fun _ _ => none) fun _ => .finite 64)
      ([] ++ [.batchPut 0 (number 6) (number 6)] ++ [.flushBatchOps 0] ++
        [.batchPut 1 (number 7) (number 7)]) _ :=
    .snoc (.snoc (.snoc .nil ⟨False.elim, rfl⟩) ⟨False.elim, rfl⟩) ⟨False.elim, rfl⟩
  obtain ⟨levelWorld, levelRun⟩ : ∃ world,
      Runs (Guarded (Debounced.Fires Level.debounced Level.Action.Fires)
        (Prog.Steps (Level.act V8.basic (fun _ => Level.faultless) fun _ => ⟨.int32, .int32⟩)))
      (Level.opened (fun _ _ => none) fun _ => .finite 64)
      ([] ++ [.batchPut 0 (number 6) (number 6)] ++ [.flushBatchOps 0] ++
        [.batchPut 1 (number 7) (number 7)] ++ [.fire]) world := by
    refine ⟨_, .snoc batched ⟨?_, rfl⟩⟩
    intro _ caller armed other waits
    obtain rfl : 1 = caller := Option.some.inj armed
    by_contra ne
    rcases eq_or_ne other 0 with rfl | flushed
    · exact waits rfl
    · exact waits (by simp [ne, flushed, Level.opened])
  have drained := autoFlush_forgets_nothing _ (fun _ _ => rfl) run (fun _ _ => rfl) levelRun
  exact ⟨world, levelWorld, run.mono fun _ _ _ called => called.2.2,
    levelRun.mono fun _ _ _ => And.right, drained.1.1, drained.2.1⟩

/-- Two instances push before the timer fires: the first one is never flushed. -/
theorem autoFlush_forgets_first_instance :
    let flush := Lmdb.flush V8.basic fun _ => Lmdb.silent
    let number (value : ℚ) : Value := .number (.finite value)
    let one : Datum V8.basic .int32 := ⟨number 1, number 1, rfl⟩
    let op : Lmdb.BatchOp V8.basic := .put ⟨2, .int32, .int32, false⟩ one one
    ∃ world levelWorld,
      Runs (Prog.Steps (Lmdb.call flush)) (Lmdb.opened (fun _ _ _ => []) fun _ => .finite 64)
        [.push 0 op, .push 1 op, .fire] world ∧
      world.timer = none ∧ world.batchOps 0 = [op] ∧
      Runs (Prog.Steps (Level.act V8.basic (fun _ => Level.faultless) fun _ => ⟨.int32, .int32⟩))
        (Level.opened (fun _ _ => none) fun _ => .finite 64)
        [.batchPut 0 (number 6) (number 6), .batchPut 1 (number 7) (number 7), .fire] levelWorld ∧
      levelWorld.timer = none ∧ (levelWorld.dbs 0).cnt = 1 := by
  intro flush number one op
  exact ⟨_, _, Prog.perform_runs (fun _ _ _ => id) .nil rfl, rfl, rfl,
    Prog.perform_runs (fun _ _ _ => id) .nil rfl, rfl, rfl⟩

end NodeKv
