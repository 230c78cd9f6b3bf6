import NodeKv.Machine.Ledger
import NodeKv.Proofs.Lmdb.Attempt

/-! # The batch queue

Environments without an `onfull` handler, under every pattern of LMDB failures. The ledger of an
environment consists of the writes of its committed transactions and of its queue. Pushes accept
an entry at the end, a flush that returns settles the whole queue, and a flush that throws touches
neither. So at every moment the committed writes followed by the queue are the accepted puts, in
the order they were pushed.
-/

namespace NodeKv.Lmdb

open Machine

variable {v8 : V8} {returns : ℕ → Returns} {stores : ℕ → Store}

/-- What an environment has committed and what it has queued. -/
def ledger (env : ℕ) (world : Plain v8) : Ledger Entry where
  settled := (world.native env).log.flatten
  pending := (world.batchOps env).map BatchOp.entry

/-- Between calls no transaction is open, the queues hold puts, and the committed store is the
replay of the committed writes. -/
structure Idle (stores : ℕ → Store) (world : Plain v8) : Prop where
  unlocked : ∀ env, (world.native env).locked = false
  puts : ∀ env, ∀ op ∈ world.batchOps env, op.isPut = true
  replayed : ∀ env,
    (world.native env).committed = (world.native env).log.flatten.foldl Entry.apply (stores env)

/-- Committed state as it was, and the queues with these operations at their ends. -/
structure Queued (accepted : ℕ → List (BatchOp v8)) (before after : Plain v8) : Prop where
  committed : ∀ env, (after.native env).committed = (before.native env).committed
  log : ∀ env, (after.native env).log = (before.native env).log
  batchOps : ∀ env, after.batchOps env = before.batchOps env ++ accepted env

theorem Queued.conserves {accepted : ℕ → List (BatchOp v8)} {before after : Plain v8}
    (queued : Queued accepted before after) (env : ℕ) :
    (ledger env before).Conserves ((accepted env).map BatchOp.entry) (ledger env after) := by
  have same : ledger env after =
      ⟨(ledger env before).settled, (ledger env before).pending ++ (accepted env).map BatchOp.entry⟩ := by
    simp only [ledger, queued.log, queued.batchOps, List.map_append]
  rw [same]
  exact .accept _ _

namespace Idle

variable {world : Plain v8} {env : ℕ}

theorem setOps (idle : Idle stores world) {ops : List (BatchOp v8)}
    (puts : ∀ op ∈ ops, op.isPut = true) : Idle stores (world.setOps env ops) := by
  refine { idle with puts := ?_ }
  intro other
  rcases eq_or_ne other env with rfl | ne
  · simpa [World.setOps] using puts
  · simpa [World.setOps, ne] using idle.puts other

theorem after (idle : Idle stores world) {native : Native} (unlocked : native.locked = false)
    (replayed : native.committed = native.log.flatten.foldl Entry.apply (stores env)) :
    Idle stores (world.after env native ()) := by
  constructor
  · intro other
    rcases eq_or_ne other env with rfl | ne
    · simpa [World.after] using unlocked
    · simpa [World.after, ne] using idle.unlocked other
  · exact idle.puts
  · intro other
    rcases eq_or_ne other env with rfl | ne
    · simpa [World.after] using replayed
    · simpa [World.after, ne] using idle.replayed other

theorem settled (idle : Idle stores world) {native : Native}
    (settled : Settled (world.native env) (world.batchOps env) native) :
    Idle stores ((world.after env native ()).setOps env []) := by
  refine (idle.after settled.unlocked ?_).setOps (by simp)
  rw [settled.committed, idle.replayed env, settled.log, List.flatten_append, List.foldl_append]
  simp

theorem undone (idle : Idle stores world) {native : Native}
    (undone : Undone (world.native env) native) :
    Idle stores (world.after env native ()) ∧ Queued (fun _ => []) world (world.after env native ()) := by
  constructor
  · refine idle.after undone.unlocked ?_
    rw [undone.committed, undone.log, idle.replayed env]
  · constructor
    · intro other
      rcases eq_or_ne other env with rfl | ne
      · simpa [World.after] using undone.committed
      · simp [World.after, ne]
    · intro other
      rcases eq_or_ne other env with rfl | ne
      · simpa [World.after] using undone.log
      · simp [World.after, ne]
    · intro other
      simp [World.after]

/-- Batch sizes and the timer do not matter. -/
theorem same (idle : Idle stores world) (next : Plain v8) (native : next.native = world.native)
    (ops : next.batchOps = world.batchOps) : Idle stores next ∧ Queued (fun _ => []) world next := by
  constructor
  · exact ⟨native ▸ idle.unlocked, ops ▸ idle.puts, native ▸ idle.replayed⟩
  · exact ⟨fun _ => by rw [native], fun _ => by rw [native], fun _ => by rw [ops, List.append_nil]⟩

end Idle

/-- The ledgers after a commit: the queue of that environment has moved as a whole. -/
theorem WroteAll.conserves {world : Plain v8} {env : ℕ} {native : Native}
    (settled : Settled (world.native env) (world.batchOps env) native) (other : ℕ) :
    (ledger other world).Conserves []
      (ledger other ((world.after env native ()).setOps env [])) := by
  rcases eq_or_ne other env with rfl | ne
  · have moved : ledger other ((world.after other native ()).setOps other []) =
        ⟨(ledger other world).settled ++ (ledger other world).pending, []⟩ := by
      simp [ledger, World.after, World.setOps, settled.log]
    rw [moved]
    exact .settle _
  · have same : ledger other ((world.after env native ()).setOps env []) = ledger other world := by
      simp [ledger, World.after, World.setOps, ne]
    rw [same]
    exact .refl _

/-- A flush settles the queue, or throws and changes nothing. -/
theorem flush_meets (returns : ℕ → Returns) {world : Plain v8} (idle : Idle stores world)
    (env : ℕ) :
    (flush v8 returns env world).Meets False
      (fun next => Idle stores next ∧ next.batchOps env = [] ∧
        ∀ other, (ledger other world).Conserves [] (ledger other next))
      fun _ next => Idle stores next ∧ Queued (fun _ => []) world next := by
  have outcome := attempt_puts (returns env) (idle.unlocked env) (idle.puts env)
  cases ran : attempt (returns env) (world.batchOps env) (world.native env) with
  | mk result native =>
    rw [ran] at outcome
    have attempted : engine v8 returns world.host env (world.native env) (world.batchOps env) =
        ⟨result, native, ()⟩ := by
      simp only [engine, ran]
    refine flushBatchOps_meets attempted (fun empty => ⟨idle, empty, fun _ => .refl _⟩) ?_
      (fun handler => nomatch handler)
    cases outcome with
    | committed settled =>
      refine ⟨idle.settled settled, ?_, settled.conserves⟩
      simp [World.setOps]
    | failed reported undone => exact idle.undone undone
    | notBegun reported undone => exact idle.undone undone

/-- How an action that accepts these operations may end. -/
def Accepts (stores : ℕ → Store) (accepted : ℕ → List (BatchOp v8)) (before : Plain v8)
    (outcome : Outcome Error (Plain v8)) : Prop :=
  outcome.Meets False
    (fun next => Idle stores next ∧ ∀ env,
      (ledger env before).Conserves ((accepted env).map BatchOp.entry) (ledger env next))
    fun _ next => Idle stores next ∧ Queued accepted before next

section Actions

variable {accepted : ℕ → List (BatchOp v8)} {before world : Plain v8}

theorem Queued.accepts (queued : Queued accepted before world) (idle : Idle stores world) :
    Accepts stores accepted before (.returned world) :=
  ⟨idle, queued.conserves⟩

/-- A flush at the end of an action. -/
theorem Queued.flush (queued : Queued accepted before world) (idle : Idle stores world) (env : ℕ) :
    Accepts stores accepted before (flush v8 returns env world) := by
  refine (flush_meets returns idle env).mono id ?_ ?_
  · rintro next ⟨idle', -, conserves⟩
    refine ⟨idle', fun other => ?_⟩
    simpa using (queued.conserves other).trans (conserves other)
  · rintro error next ⟨idle', kept⟩
    refine ⟨idle', fun other => ?_, fun other => ?_, fun other => ?_⟩
    · rw [kept.committed, queued.committed]
    · rw [kept.log, queued.log]
    · rw [kept.batchOps, queued.batchOps, List.append_nil]

private theorem pushBatch_accepts (idle : Idle stores world) (env : ℕ) {op : BatchOp v8}
    (put : op.isPut = true) :
    Accepts stores (fun other => if env = other then [op] else []) world
      (pushBatch (Lmdb.flush v8 returns) env op world) := by
  have pushed : Idle stores (world.setOps env (world.batchOps env ++ [op])) := by
    refine idle.setOps ?_
    intro other member
    rcases List.mem_append.mp member with old | new
    · exact idle.puts env other old
    · rwa [List.mem_singleton.mp new]
  have queued : Queued (fun other => if env = other then [op] else []) world
      (world.setOps env (world.batchOps env ++ [op])) := by
    refine ⟨fun _ => rfl, fun _ => rfl, fun other => ?_⟩
    rcases eq_or_ne other env with rfl | ne
    · simp [World.setOps]
    · simp [World.setOps, ne, ne.symm]
  rw [pushBatch]
  split_ifs with full
  · exact queued.flush pushed env
  · exact Queued.accepts { queued with } { pushed with }

theorem act_accepts (returns : ℕ → Returns) (idle : Idle stores world) (action : Action) :
    Accepts stores (fun env => action.accepted v8 env) world (act (Lmdb.flush v8 returns) action world) := by
  cases action with
  | batchPut env db key val =>
    simp only [act, batchPut, Action.accepted]
    cases db.keyType.check v8 key with
    | error error => exact idle.same world rfl rfl
    | ok key =>
      cases db.valType.check v8 val with
      | error error => exact idle.same world rfl rfl
      | ok val => exact pushBatch_accepts idle env rfl
  | setBatchSize env num =>
    obtain ⟨idle', kept⟩ := idle.same
      { world with batchSize := Function.update world.batchSize env num.min256 } rfl rfl
    simp only [act, setBatchSize]
    split_ifs with long
    · exact kept.flush idle' env
    · exact kept.accepts idle'
  | flushBatchOps env =>
    obtain ⟨idle', kept⟩ := idle.same world rfl rfl
    exact kept.flush idle' env
  | fire =>
    simp only [act, fire]
    cases world.timer with
    | none =>
      obtain ⟨idle', kept⟩ := idle.same world rfl rfl
      exact kept.accepts idle'
    | some env =>
      obtain ⟨idle', kept⟩ := idle.same { world with timer := none } rfl rfl
      exact kept.flush idle' env

end Actions

theorem opened_idle (stores : ℕ → Store) (sizes : ℕ → JsNumber) :
    Idle stores (opened stores sizes : Plain v8) := by
  refine ⟨fun _ => rfl, ?_, fun _ => rfl⟩
  intro env op member
  exact nomatch member

/-- Every completed action conserves the ledgers. -/
theorem act_conserves (returns : ℕ → Returns) {world next : Plain v8} (idle : Idle stores world)
    {action : Action} (acted : Prog.Steps (act (flush v8 returns)) world action next) :
    Idle stores next ∧ ∀ env, (ledger env world).Conserves
      ((action.accepted v8 env).map BatchOp.entry) (ledger env next) := by
  have ended : (act (flush v8 returns) action world).Meets False
      (fun next => Idle stores next ∧ ∀ env, (ledger env world).Conserves
        ((action.accepted v8 env).map BatchOp.entry) (ledger env next))
      fun _ next => Idle stores next ∧ ∀ env, (ledger env world).Conserves
        ((action.accepted v8 env).map BatchOp.entry) (ledger env next) := by
    refine Outcome.Meets.mono (act_accepts returns idle action) id (fun _ => id) ?_
    rintro error next ⟨idle', queued⟩
    exact ⟨idle', queued.conserves⟩
  exact ended.state? acted

theorem Run.conserves {sizes : ℕ → JsNumber} {actions : List Action} {world : Plain v8}
    (run : Run v8 returns (opened stores sizes) actions world) (env : ℕ) :
    Idle stores world ∧ (ledger env (opened stores sizes : Plain v8)).Conserves
      (actions.flatMap fun action => (action.accepted v8 env).map BatchOp.entry)
      (ledger env world) := by
  refine Ledger.Conserves.of_runs run (Idle stores) (ledger env) _ (opened_idle stores sizes) ?_
  intro state action next idle acted
  obtain ⟨idle', conserves⟩ := act_conserves returns idle acted
  exact ⟨idle', conserves env⟩

end NodeKv.Lmdb
