import NodeKv.Machine.Simulation
import NodeKv.Model.Lmdb.Process
import NodeKv.Proofs.Lmdb.Life
import NodeKv.Proofs.Lmdb.Queue

/-! # Closing an environment with a queue

`close` does not flush, and leaves the timer armed. What is queued when it is called is lost: a
flush before the environment is closed writes through closed handles, and a flush after it begins
a transaction on a closed environment. When the queue is empty at the call and nothing is pushed
later, every flush from then on is without effect, and until then the environment behaves as one
that is never closed.
-/

namespace NodeKv.Lmdb.Process

open Machine

variable {v8 : V8} {returns : ℕ → Returns} {stores : ℕ → Store} {world next : Process v8} {env : ℕ}

/-- Forget about the lives. -/
def plain (world : Process v8) : Plain v8 where
  native := world.native
  batchOps := world.batchOps
  batchSize := world.batchSize
  onfull := world.onfull
  timer := world.timer
  host := ()

/-- An environment has an empty queue from its `close` on, and nothing is closed before. -/
structure Quiet (world : Process v8) : Prop where
  drained : ∀ env, (world.host env).closing = true → world.batchOps env = []
  sound : ∀ env, (world.host env).closing = false → (world.host env).closedDbis = []

/-- Nothing is pushed after `close`, which is called with an empty queue. -/
def Prudent (world : Process v8) : Action → Prop
  | .queue (.batchPut env _ _ _) => (world.host env).closing = false
  | .life env (.close _) => world.batchOps env = []
  | _ => True

/-- The worlds agree, and no life has changed. -/
def Same (lives : ℕ → Life) (world : Process v8) (plainWorld : Plain v8) : Prop :=
  world.plain = plainWorld ∧ world.host = lives

private theorem execAmong_nil (returns : Returns) :
    (BatchOp.execAmong [] returns : ℕ → BatchOp v8 → _) = BatchOp.exec returns := by
  funext txn op
  cases op <;> simp [BatchOp.execAmong]

/-- A flush that may not meet anything closed is a flush of an ordinary environment. -/
theorem flush_same (returns : ℕ → Returns) (quiet : Quiet world) (env : ℕ) :
    Outcome.Rel (Same world.host) (flush v8 returns env world)
      (Lmdb.flush v8 returns env world.plain) := by
  by_cases empty : world.batchOps env = []
  · have empty' : world.plain.batchOps env = [] := empty
    rw [flush, flushBatchOps_empty empty, Lmdb.flush, flushBatchOps_empty empty']
    exact .returned ⟨rfl, rfl⟩
  · have nonempty : world.plain.batchOps env ≠ [] := empty
    have untouched : (world.host env).closing = false := by
      cases closing : (world.host env).closing with
      | false => rfl
      | true => exact absurd (quiet.drained env closing) empty
    have opened : (world.host env).opened = true := by
      cases opened : (world.host env).opened with
      | true => rfl
      | false => cases (Life.closing_of_closed opened).symm.trans untouched
    cases ran : attempt (returns env) (world.batchOps env) (world.native env) with
    | mk result native =>
      have attempted : engine v8 returns world.host env (world.native env) (world.batchOps env) =
          ⟨result, native, world.host⟩ := by
        rw [engine, if_pos opened, quiet.sound env untouched, execAmong_nil]
        rw [attempt] at ran
        rw [ran]
      have attempted' : Lmdb.engine v8 returns world.plain.host env (world.plain.native env)
          (world.plain.batchOps env) = ⟨result, native, ()⟩ := by
        simp only [Lmdb.engine, plain, ran]
      have unhandled : world.onfull env = none := by
        cases world.onfull env with
        | none => rfl
        | some handler => cases handler
      have unhandled' : world.plain.onfull env = none := unhandled
      rw [flush, Lmdb.flush]
      cases result with
      | committed =>
        rw [flushBatchOps_committed empty attempted, flushBatchOps_committed nonempty attempted']
        exact .returned ⟨rfl, rfl⟩
      | failed error =>
        rw [flushBatchOps_other empty attempted (.inl unhandled),
          flushBatchOps_other nonempty attempted' (.inl unhandled')]
        exact .threw error ⟨rfl, rfl⟩
      | notBegun error =>
        rw [flushBatchOps_notBegun empty attempted, flushBatchOps_notBegun nonempty attempted']
        exact .threw error ⟨rfl, rfl⟩
      | stuck =>
        rw [flushBatchOps_stuck empty (by rw [attempted]),
          flushBatchOps_stuck nonempty (by rw [attempted'])]
        exact .diverged

private theorem act_same (returns : ℕ → Returns) (quiet : Quiet world) {action : Lmdb.Action}
    (prudent : Prudent world (.queue action)) :
    Outcome.Rel (Same world.host) (act (flush v8 returns) action world)
      (act (Lmdb.flush v8 returns) action world.plain) := by
  cases action with
  | batchPut env db key val =>
    simp only [act, batchPut]
    cases db.keyType.check v8 key with
    | error error => exact .threw error ⟨rfl, rfl⟩
    | ok key =>
      cases db.valType.check v8 val with
      | error error => exact .threw error ⟨rfl, rfl⟩
      | ok val =>
        have pushed : Quiet (world.setOps env (world.batchOps env ++ [.put db key val])) := by
          refine ⟨?_, quiet.sound⟩
          intro other closing
          rcases eq_or_ne other env with rfl | ne
          · cases prudent.symm.trans closing
          · simpa [World.setOps, ne] using quiet.drained other closing
        simp only [pushBatch]
        split_ifs with full full'
        · exact flush_same returns pushed env
        · exact absurd full full'
        · exact absurd ‹_› full
        · exact .returned ⟨rfl, rfl⟩
  | setBatchSize env num =>
    have kept : Quiet
        { world with batchSize := Function.update world.batchSize env num.min256 } :=
      ⟨quiet.drained, quiet.sound⟩
    simp only [act, setBatchSize]
    split_ifs with long long'
    · exact flush_same returns kept env
    · exact absurd long long'
    · exact absurd ‹_› long
    · exact .returned ⟨rfl, rfl⟩
  | flushBatchOps env => exact flush_same returns quiet env
  | fire =>
    have kept : Quiet { world with timer := none } := ⟨quiet.drained, quiet.sound⟩
    have timer : world.plain.timer = world.timer := rfl
    simp only [act, fire]
    rw [timer]
    cases world.timer with
    | none => exact .returned ⟨rfl, rfl⟩
    | some env => exact flush_same returns kept env

/-- What is known between prudent steps. -/
structure Settling (stores : ℕ → Store) (world : Process v8) : Prop where
  idle : Idle stores world.plain
  quiet : Quiet world

private theorem start_settling (stores : ℕ → Store) (sizes : ℕ → JsNumber) (dbs : ℕ → List ℕ) :
    Settling stores (start stores sizes dbs : Process v8) :=
  ⟨opened_idle stores sizes, fun _ _ => rfl, fun _ _ => rfl⟩

/-- Once an environment is closing, no prudent action pushes on its queue. -/
theorem accepted_of_closing (action : Action) (prudent : Prudent world action)
    (closing : (world.host env).closing = true) : action.accepted v8 env = [] := by
  cases action with
  | life other action => rfl
  | queue action =>
    cases action with
    | batchPut other db key val =>
      have ne : other ≠ env := by
        rintro rfl
        exact nomatch prudent.symm.trans closing
      simp only [Action.accepted, Lmdb.Action.accepted]
      split
      · rw [if_neg ne]
      · rfl
    | setBatchSize other num => rfl
    | flushBatchOps other => rfl
    | fire => rfl

private theorem queue_kept {action : Lmdb.Action} (settling : Settling stores world)
    (prudent : Prudent world (.queue action))
    (acted : Prog.Steps (act (flush v8 returns)) world action next) :
    Settling stores next ∧ next.host = world.host ∧ ∀ env,
      (ledger env world.plain).Conserves ((action.accepted v8 env).map BatchOp.entry)
        (ledger env next.plain) := by
  obtain ⟨after, acted', rfl, lives⟩ := (act_same returns settling.quiet prudent).of_state? acted
  obtain ⟨idle, conserves⟩ := act_conserves returns settling.idle acted'
  refine ⟨⟨idle, ?_, ?_⟩, lives, conserves⟩
  · intro env closing
    rw [lives] at closing
    have kept := conserves env
    rw [show action.accepted v8 env = [] from
      accepted_of_closing (.queue action) prudent closing] at kept
    have empty : (ledger env world.plain).pending = [] := by
      rw [ledger, List.map_eq_nil_iff]
      exact settling.quiet.drained env closing
    exact List.map_eq_nil_iff.mp (kept.drained empty)
  · rw [lives]
    exact settling.quiet.sound

private theorem life_kept {other : ℕ} {action : Life.Action} {life : Life}
    (settling : Settling stores world)
    (prudent : Prudent world (.life other action))
    (moves : Life.Moves (world.host other) action life) :
    Settling stores { world with host := Function.update world.host other life } := by
  refine ⟨settling.idle, ?_, ?_⟩
  · intro env closing
    dsimp only at closing ⊢
    rcases eq_or_ne env other with rfl | ne
    · rw [Function.update_self] at closing
      rcases moves.closing_cases closing with already | ⟨cb, rfl⟩
      · exact settling.quiet.drained env already
      · exact prudent
    · rw [Function.update_of_ne ne] at closing
      exact settling.quiet.drained env closing
  · intro env untouched
    dsimp only at untouched ⊢
    rcases eq_or_ne env other with rfl | ne
    · rw [Function.update_self] at untouched ⊢
      exact moves.closedDbis (settling.quiet.sound env) untouched
    · rw [Function.update_of_ne ne] at untouched ⊢
      exact settling.quiet.sound env untouched

private theorem step_kept {action : Action} (settling : Settling stores world)
    (prudent : Prudent world action) (stepped : Step v8 returns world action next) :
    Settling stores next ∧ ∀ env,
      (ledger env world.plain).Conserves ((action.accepted v8 env).map BatchOp.entry)
        (ledger env next.plain) := by
  cases action with
  | queue action =>
    obtain ⟨kept, -, conserves⟩ := queue_kept settling prudent stepped
    exact ⟨kept, conserves⟩
  | life other action =>
    obtain ⟨life, lived, rfl⟩ := stepped
    exact ⟨life_kept settling prudent lived.moves, fun env => .refl _⟩

/-- A closing environment stays so. -/
theorem step_closing {action : Action} (settling : Settling stores world)
    (prudent : Prudent world action) (stepped : Step v8 returns world action next)
    (closing : (world.host env).closing = true) : (next.host env).closing = true := by
  cases action with
  | queue action =>
    obtain ⟨-, lives, -⟩ := queue_kept settling prudent stepped
    rwa [lives]
  | life other action =>
    obtain ⟨life, lived, rfl⟩ := stepped
    dsimp only
    rcases eq_or_ne env other with rfl | ne
    · rw [Function.update_self]
      exact lived.moves.closing closing
    · rwa [Function.update_of_ne ne]

section Runs

variable {sizes : ℕ → JsNumber} {dbs : ℕ → List ℕ} {actions : List Action}

/-- Committed writes and queue along a prudent run. -/
theorem run_conserves
    (run : Runs (Guarded Prudent (Step v8 returns)) (start stores sizes dbs) actions world)
    (env : ℕ) :
    Settling stores world ∧ (ledger env (start stores sizes dbs : Process v8).plain).Conserves
      (actions.flatMap fun action => (action.accepted v8 env).map BatchOp.entry)
      (ledger env world.plain) := by
  refine Ledger.Conserves.of_runs run (Settling stores) (fun world => ledger env world.plain) _
    (start_settling stores sizes dbs) ?_
  rintro state action next settling ⟨prudent, stepped⟩
  obtain ⟨kept, conserves⟩ := step_kept settling prudent stepped
  exact ⟨kept, conserves env⟩

/-- After a `close` the environment is closing, and nothing has been accepted since. -/
theorem run_closing
    (run : Runs (Guarded Prudent (Step v8 returns)) (start stores sizes dbs) actions world)
    {before after : List Action} {cb : Option ℕ}
    (closed : actions = before ++ .life env (.close cb) :: after) :
    (world.host env).closing = true ∧ after.flatMap (Action.accepted v8 env) = [] := by
  induction run generalizing after with
  | nil => simp at closed
  | @snoc actions state next action prior stepped ih =>
    obtain ⟨prudent, stepped⟩ := stepped
    rcases List.eq_nil_or_concat after with rfl | ⟨after, last, rfl⟩
    · obtain ⟨-, same⟩ := List.append_inj' closed rfl
      obtain rfl := List.head_eq_of_cons_eq same
      obtain ⟨life, lived, rfl⟩ := stepped
      refine ⟨?_, rfl⟩
      dsimp only
      rw [Function.update_self]
      exact lived.moves.closing_of_close
    · rw [List.concat_eq_append, ← List.cons_append, ← List.append_assoc] at closed
      obtain ⟨earlier, same⟩ := List.append_inj' closed rfl
      obtain rfl := List.head_eq_of_cons_eq same
      obtain ⟨closing, none⟩ := ih earlier
      have settling := (run_conserves prior env).1
      refine ⟨step_closing settling prudent stepped closing, ?_⟩
      rw [List.concat_eq_append, List.flatMap_append, none, List.flatMap_singleton,
        List.nil_append, accepted_of_closing action prudent closing]

end Runs

/-- When the environment has been closed, what was accepted before `close` is committed; and a
flush of an environment that is closed, or has closed databases, does nothing. -/
def ClosesCleanly (returns : ℕ → Returns) (env : ℕ) (actions : List Action) (world : Process v8) :
    Prop :=
  (∀ before cb after, actions = before ++ .life env (.close cb) :: after →
    (world.host env).opened = false →
    (world.native env).log.flatten =
      (before.flatMap (Action.accepted v8 env)).map BatchOp.entry) ∧
  ((world.host env).opened = false ∨ (world.host env).closedDbis ≠ [] →
    flush v8 returns env world = .returned world)

/-- Closing is clean in every run in which queues are empty when their environment is closed and
nothing is pushed on them later, whichever of the timer and the sync comes first. -/
theorem close_loses_nothing {sizes : ℕ → JsNumber} {dbs : ℕ → List ℕ} {actions : List Action}
    (run : Runs (Guarded Prudent (Step v8 returns)) (start stores sizes dbs) actions world)
    (env : ℕ) : ClosesCleanly returns env actions world := by
  obtain ⟨settling, conserves⟩ := run_conserves run env
  constructor
  · intro before cb after closed shut
    obtain ⟨closing, none⟩ := run_closing run closed
    have empty : (ledger env world.plain).pending = [] := by
      rw [ledger, List.map_eq_nil_iff]
      exact settling.quiet.drained env closing
    calc (world.native env).log.flatten
        = actions.flatMap fun action => (action.accepted v8 env).map BatchOp.entry :=
          conserves.settled_eq empty
      _ = (actions.flatMap (Action.accepted v8 env)).map BatchOp.entry :=
          List.map_flatMap.symm
      _ = (before.flatMap (Action.accepted v8 env)).map BatchOp.entry := by
        rw [closed, List.flatMap_append, List.flatMap_cons, none]
        simp [Action.accepted]
  · intro shut
    have closing : (world.host env).closing = true := by
      cases closing : (world.host env).closing with
      | true => rfl
      | false =>
        rcases shut with closed | closedDbis
        · cases (Life.closing_of_closed closed).symm.trans closing
        · exact absurd (settling.quiet.sound env closing) closedDbis
    exact flushBatchOps_empty (settling.quiet.drained env closing)

/-- A put that is flushed before `close`; the timer fires while the sync is under way. -/
theorem close_loses_nothing_after_flush :
    let db : Db := ⟨2, .int32, .int32, false⟩
    let number (value : ℚ) : Value := .number (.finite value)
    ∃ world, Runs (Guarded Prudent (Step .basic fun _ => silent))
        (start (fun _ _ _ => []) (fun _ => .finite 64) fun _ => [2])
        [.queue (.batchPut 0 db (number 6) (number 6)), .queue (.flushBatchOps 0),
          .life 0 (.close (some 9)), .queue .fire, .life 0 (.start 0), .life 0 (.finish 0 none),
          .life 0 (.complete 0)] world ∧
      (world.host 0).opened = false ∧
      (world.native 0).log.flatten = [.put db [6, 0, 0, 0] [6, 0, 0, 0]] := by
  intro db number
  have run : Runs (Guarded Prudent (Step .basic fun _ => silent))
      (start (fun _ _ _ => []) (fun _ => .finite 64) fun _ => [2])
      [.queue (.batchPut 0 db (number 6) (number 6)), .queue (.flushBatchOps 0),
        .life 0 (.close (some 9)), .queue .fire, .life 0 (.start 0), .life 0 (.finish 0 none),
        .life 0 (.complete 0)] _ :=
    .snoc (.snoc (.snoc (.snoc (.snoc (.snoc (.snoc .nil
      ⟨rfl, rfl⟩) ⟨trivial, rfl⟩) ⟨rfl, _, rfl, rfl⟩) ⟨trivial, rfl⟩)
      ⟨trivial, _, ⟨_, .intro [] [] 0 _, rfl⟩, rfl⟩)
      ⟨trivial, _, ⟨_, .intro [] [] 0 _, rfl⟩, rfl⟩)
      ⟨trivial, _, ⟨_, _, _, .intro [] [] 0, rfl⟩, rfl⟩
  have clean := close_loses_nothing run 0
  exact ⟨_, run, rfl, (clean.1 [_, _] _ _ rfl rfl).trans (by decide +kernel)⟩

/-- A put that is queued when `close` is called. If the timer is first, the flush writes through
the closed handle; if the sync is first, the put is lost and the flush ends the process. -/
theorem close_loses_queued_put :
    let put : Action := .queue (.batchPut 0 ⟨2, .int32, .int32, false⟩
      (.number (.finite 6)) (.number (.finite 6)))
    let close : Action := .life 0 (.close none)
    let start : Action := .life 0 (.start 0)
    let finish : Action := .life 0 (.finish 0 none)
    let complete : Action := .life 0 (.complete 0)
    let opened : Process .basic := Process.start (fun _ _ _ => []) (fun _ => .finite 64) fun _ => [2]
    let flush := flush .basic fun _ => silent
    (∃ world, Runs (Step .basic fun _ => silent) opened [put, close] world ∧
      (act flush .fire world).error? = some (.mdb .einval) ∧
      ¬ClosesCleanly (fun _ => silent) 0 [put, close] world) ∧
    ∃ world, Runs (Step .basic fun _ => silent) opened [put, close, start, finish, complete] world ∧
      (world.host 0).opened = false ∧ (world.native 0).log = [] ∧
      act flush .fire world = .diverged ∧
      ¬ClosesCleanly (fun _ => silent) 0 [put, close, start, finish, complete] world := by
  intro put close start finish complete opened flush
  have pushed : Runs (Step .basic fun _ => silent) opened [put] _ := .snoc .nil rfl
  have closing : Runs (Step .basic fun _ => silent) opened [put, close] _ :=
    .snoc pushed ⟨_, rfl, rfl⟩
  have started : Runs (Step .basic fun _ => silent) opened [put, close, start] _ :=
    .snoc closing ⟨_, ⟨_, .intro [] [] 0 _, rfl⟩, rfl⟩
  have finished : Runs (Step .basic fun _ => silent) opened [put, close, start, finish] _ :=
    .snoc started ⟨_, ⟨_, .intro [] [] 0 _, rfl⟩, rfl⟩
  have closed : Runs (Step .basic fun _ => silent) opened [put, close, start, finish, complete] _ :=
    .snoc finished ⟨_, ⟨_, _, _, .intro [] [] 0, rfl⟩, rfl⟩
  refine ⟨⟨_, closing, by decide +kernel, ?_⟩, _, closed, rfl, rfl, rfl, ?_⟩
  · rintro ⟨-, inert⟩
    have threw : (flush 0 _).error? = none := congrArg Outcome.error? (inert (.inr (by decide)))
    revert threw
    decide +kernel
  · rintro ⟨kept, -⟩
    have lost := congrArg List.length (kept [put] none _ rfl rfl)
    revert lost
    decide +kernel

end NodeKv.Lmdb.Process
