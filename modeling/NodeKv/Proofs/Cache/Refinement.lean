import NodeKv.Model.Cache.Generations

/-! # The environments of the cache refine the pair of generations

Every step of the cache's code is matched by the same step of `Pair`. Calls are related under a
frame, a lower bound of the epoch at their start: `del` looks its old environment up before the
first push and may find it closed at the second, but never not yet opened.
-/

namespace NodeKv.Cache

open Machine Lmdb

variable {D K V : Type*}

namespace Pair

section Queues

variable (pair : Pair D K V) (env : ℕ) (ops : List (BatchOp D K V))

@[simp] theorem setQueue_epoch : (pair.setQueue env ops).epoch = pair.epoch := by
  unfold setQueue; split_ifs <;> rfl

@[simp] theorem setQueue_curContents :
    (pair.setQueue env ops).cur.contents = pair.cur.contents := by
  unfold setQueue; split_ifs <;> rfl

@[simp] theorem setQueue_oldContents :
    (pair.setQueue env ops).old.contents = pair.old.contents := by
  unfold setQueue; split_ifs <;> rfl

@[simp] theorem setQueue_asserting : (pair.setQueue env ops).asserting = pair.asserting := by
  unfold setQueue; split_ifs <;> rfl

@[simp] theorem setQueue_timer : (pair.setQueue env ops).timer = pair.timer := by
  unfold setQueue; split_ifs <;> rfl

@[simp] theorem setQueue_attempts : (pair.setQueue env ops).attempts = pair.attempts := by
  unfold setQueue; split_ifs <;> rfl

@[simp] theorem setQueue_rotations : (pair.setQueue env ops).rotations = pair.rotations := by
  unfold setQueue; split_ifs <;> rfl

@[simp] theorem rotate_epoch : pair.rotate.epoch = pair.epoch + 1 := rfl

theorem queue_cur : pair.queue (pair.epoch + 1) = pair.cur.queue := if_pos rfl

theorem queue_old : pair.queue pair.epoch = pair.old.queue := by simp [queue]

theorem queue_gone (gone : env < pair.epoch) : pair.queue env = pair.gone env := by
  have notCur : env ≠ pair.epoch + 1 := by omega
  have notOld : env ≠ pair.epoch := by omega
  simp only [queue, notCur, notOld, ↓reduceIte]

theorem queue_setQueue (other : ℕ) :
    (pair.setQueue env ops).queue other = Function.update pair.queue env ops other := by
  by_cases same : other = env
  · subst same
    unfold setQueue
    split_ifs with cur old
    · simp [queue, cur]
    · simp [queue, old]
    · simp [queue, cur, old]
  · rw [Function.update_of_ne same]
    unfold setQueue
    split_ifs with cur old
    · simp [queue, ← cur, same]
    · simp [queue, ← old, same]
    · simp [queue, same]

end Queues

end Pair

/-- The pair describes the environments of the cache. -/
structure Refines (size : JsNumber) (state : State D K V) (pair : Pair D K V) : Prop where
  curEnv : state.host.curEnv = pair.epoch + 1
  oldEnv : state.host.oldEnv = pair.epoch
  next : state.host.next = pair.epoch + 2
  openSize : state.host.batchSize = size
  sizes : ∀ env, state.batchSize env = size
  queues : ∀ env, state.batchOps env = pair.queue env
  curContents : state.native (pair.epoch + 1) = pair.cur.contents
  oldContents : state.native pair.epoch = pair.old.contents
  closed : ∀ env, state.host.closed env = decide (env < pair.epoch)
  curHandler : state.onfull (pair.epoch + 1) = some .replay
  oldHandler : state.onfull pair.epoch = if pair.asserting then some .shouldNotHappend else none
  timer : state.timer = pair.timer
  armed : ∀ env, pair.timer = some env → env ≤ pair.epoch + 1
  attempts : state.host.attempts = pair.attempts
  rotations : state.host.rotations = pair.rotations

namespace Refines

variable {size : JsNumber} {state : State D K V} {pair : Pair D K V}

theorem setQueue (refines : Refines size state pair) (env : ℕ) (ops : List (BatchOp D K V)) :
    Refines size (state.setOps env ops) (pair.setQueue env ops) := by
  have queues : ∀ other, (state.setOps env ops).batchOps other =
      (pair.setQueue env ops).queue other := by
    intro other
    rw [Pair.queue_setQueue, ← funext refines.queues]
    rfl
  revert queues
  unfold Pair.setQueue
  split_ifs <;> exact fun queues => { refines with queues := queues }

theorem arm (refines : Refines size state pair) {timer : Option ℕ}
    (known : ∀ env, timer = some env → env ≤ pair.epoch + 1) :
    Refines size { state with timer := timer } { pair with timer := timer } :=
  { refines with timer := rfl, armed := known }

theorem openDb [DecidableEq D] (refines : Refines size state pair) (env : ℕ) (db : D) :
    Refines size (Cache.openDb env db state) pair :=
  { refines with }

theorem attempted (refines : Refines size state pair) :
    Refines size { state with host := { state.host with attempts := state.host.attempts + 1 } }
      pair.attempted :=
  { refines with attempts := congrArg (· + 1) refines.attempts }

/-- An attempt that fails leaves the contents of its environment alone. -/
theorem failed (refines : Refines size state pair) {env : ℕ} {contents : Contents D K V}
    (found : state.native env = contents) :
    Refines size
      (state.after env contents { state.host with attempts := state.host.attempts + 1 })
      pair.attempted := by
  rw [← found, World.after_self]
  exact refines.attempted

theorem rotate (refines : Refines size state pair) :
    Refines size (Cache.rotate state) pair.rotate := by
  have next : state.host.next = pair.epoch + 2 := refines.next
  constructor
  case curEnv => exact next
  case oldEnv => exact refines.curEnv
  case next => exact congrArg (· + 1) next
  case openSize => exact refines.openSize
  case sizes =>
    intro env
    by_cases opened : env = pair.epoch + 2
    · simp [Cache.rotate, retire, openEnv, next, opened, refines.openSize]
    · simp [Cache.rotate, retire, openEnv, next, opened, refines.sizes]
  case queues =>
    intro env
    by_cases opened : env = pair.epoch + 2
    · simp [Cache.rotate, retire, openEnv, next, opened, Pair.queue, Pair.rotate, Generation.fresh]
    · by_cases old : env = pair.epoch
      · have notNext : pair.epoch ≠ pair.epoch + 2 := by omega
        have notCur : pair.epoch ≠ pair.rotate.epoch + 1 := notNext
        have notOld : pair.epoch ≠ pair.rotate.epoch := by rw [Pair.rotate_epoch]; omega
        subst old
        simp only [Pair.queue, notCur, notOld, ↓reduceIte]
        simp [Cache.rotate, retire, openEnv, next, Pair.rotate, refines.queues, Pair.queue_old]
      · simp [Cache.rotate, retire, openEnv, next, opened, old, Pair.queue, Pair.rotate, refines.queues]
  case curContents => simp [Cache.rotate, retire, openEnv, next, Pair.rotate, Generation.fresh]
  case oldContents => simp [Cache.rotate, retire, openEnv, next, Pair.rotate, refines.curContents]
  case closed =>
    intro env
    by_cases old : env = pair.epoch
    · simp [Cache.rotate, retire, openEnv, Pair.rotate, refines.oldEnv, old]
    · have before : (Cache.rotate state).host.closed env = state.host.closed env := by
        simp [Cache.rotate, retire, openEnv, refines.oldEnv, old]
      rw [before, refines.closed, decide_eq_decide, Pair.rotate_epoch]
      omega
  case curHandler => simp [Cache.rotate, retire, openEnv, next, Pair.rotate]
  case oldHandler => simp [Cache.rotate, retire, openEnv, next, Pair.rotate, refines.curEnv]
  case timer => exact refines.timer
  case armed =>
    intro env pending
    have known := refines.armed env pending
    exact known.trans (by simp [Pair.rotate])
  case attempts => exact refines.attempts
  case rotations =>
    have found : state.native state.host.curEnv = pair.cur.contents :=
      refines.curEnv ▸ refines.curContents
    have queued : state.batchOps state.host.curEnv = pair.cur.queue := by
      rw [refines.queues, refines.curEnv, Pair.queue_cur]
    simp [Cache.rotate, retire, openEnv, Pair.rotate, refines.rotations, found, queued]

private theorem commitCur [DecidableEq D] [DecidableEq K] (refines : Refines size state pair) :
    Refines size ((state.after (pair.epoch + 1) pair.cur.settled state.host).setOps (pair.epoch + 1) [])
      { pair with cur := pair.cur.flushed } := by
  have emptied := refines.setQueue (pair.epoch + 1) []
  rw [Pair.setQueue, if_pos rfl] at emptied
  refine { emptied with curContents := Function.update_self .., oldContents := ?_ }
  exact (Function.update_of_ne (Nat.ne_of_lt (Nat.lt_succ_self _)) ..).trans refines.oldContents

private theorem commitOld [DecidableEq D] [DecidableEq K] (refines : Refines size state pair) :
    Refines size ((state.after pair.epoch pair.old.settled state.host).setOps pair.epoch [])
      { pair with old := pair.old.flushed } := by
  have emptied := refines.setQueue pair.epoch []
  rw [Pair.setQueue, if_neg (Nat.ne_of_lt (Nat.lt_succ_self _)), if_pos rfl] at emptied
  refine { emptied with oldContents := Function.update_self .., curContents := ?_ }
  exact (Function.update_of_ne (Nat.succ_ne_self _) ..).trans refines.curContents

end Refines

/-- Related states whose epoch has not fallen below the frame. -/
def RefinesFrom (size : JsNumber) (floor : ℕ) (state : State D K V) (pair : Pair D K V) : Prop :=
  Refines size state pair ∧ floor ≤ pair.epoch

/-- Flushes of the same environment end alike, provided it has been opened. -/
def FlushesAlike (size : JsNumber) (flush : ℕ → Prog Error (State D K V))
    (flush' : ℕ → Prog Error (Pair D K V)) : Prop :=
  ∀ floor env env' state pair, RefinesFrom size floor state pair →
    env = env' ∧ env ≤ pair.epoch + 1 →
    Outcome.Rel (RefinesFrom size floor) (flush env state) (flush' env' pair)

section Programs

variable {size : JsNumber} {flush : ℕ → Prog Error (State D K V)}
  {flush' : ℕ → Prog Error (Pair D K V)} {floor : ℕ} {state : State D K V} {pair : Pair D K V}

private theorem pushBatch_refines (alike : FlushesAlike size flush flush')
    (related : RefinesFrom size floor state pair) {env : ℕ} (known : env ≤ pair.epoch + 1)
    (op : BatchOp D K V) :
    Outcome.Rel (RefinesFrom size floor) (pushBatch flush env op state)
      (Pair.push size flush' env op pair) := by
  obtain ⟨refines, above⟩ := related
  have pushed := refines.setQueue env (pair.queue env ++ [op])
  have reached : (state.setOps env (state.batchOps env ++ [op])).batchSize env = size :=
    refines.sizes env
  simp only [pushBatch, Pair.push, reached]
  rw [refines.queues, pushed.queues]
  split_ifs with triggered
  · exact alike floor env env _ _ ⟨pushed, by simpa using above⟩ ⟨rfl, by simpa using known⟩
  · refine .returned ⟨pushed.arm ?_, by simpa using above⟩
    intro other armed
    cases armed
    simpa using known

private theorem flushCur_refines (alike : FlushesAlike size flush flush')
    (related : RefinesFrom size floor state pair) :
    Outcome.Rel (RefinesFrom size floor) (flushCur flush state) (Pair.flushCur flush' pair) :=
  alike floor _ _ _ _ related ⟨related.1.curEnv, related.1.curEnv.le⟩

variable [DecidableEq D]

private theorem put_refines (alike : FlushesAlike size flush flush')
    (related : RefinesFrom size floor state pair) (db : D) (key : K) (val : V) :
    Outcome.Rel (RefinesFrom size floor) (put flush db key val state)
      (Pair.put size flush' db key val pair) := by
  obtain ⟨refines, above⟩ := related
  simp only [put, Pair.put, refines.curEnv]
  exact pushBatch_refines alike ⟨refines.openDb _ db, above⟩ le_rfl _

private theorem del_refines (alike : FlushesAlike size flush flush')
    (related : RefinesFrom size floor state pair) (db : D) (key : K) :
    Outcome.Rel (RefinesFrom size floor) (del flush db key state)
      (Pair.del size flush' db key pair) := by
  obtain ⟨refines, above⟩ := related
  have weaker : ∀ (next : State D K V) (next' : Pair D K V),
      RefinesFrom size pair.epoch next next' → RefinesFrom size floor next next' :=
    fun _ _ moved => ⟨moved.1, above.trans moved.2⟩
  simp only [del, Pair.del, refines.curEnv, refines.oldEnv]
  -- The frame of the first push is the epoch itself: the environment looked up stays opened.
  refine Prog.seq_rel (pushBatch_refines alike ⟨(refines.openDb _ db).openDb _ db, le_rfl⟩ le_rfl _) weaker ?_
  intro next next' moved
  exact pushBatch_refines alike (weaker _ _ moved) (moved.2.trans (Nat.le_succ _)) _

private theorem replayOp_refines (alike : FlushesAlike size flush flush') (op : BatchOp D K V)
    (related : RefinesFrom size floor state pair) :
    Outcome.Rel (RefinesFrom size floor) (replayOp flush op state)
      (Pair.replayOp size flush' op pair) := by
  rcases op with ⟨db, call, extra⟩
  rcases extra with none | extra
  · exact .threw _ related
  · cases call with
    | put key val => exact put_refines alike related extra key val
    | del key => exact del_refines alike related extra key

variable [DecidableEq K] {full : Full D K V}

/-- The live environments and the closed ones, as the engine tells them apart. -/
theorem engine_live (full : Full D K V) (refines : Refines size state pair) {env : ℕ}
    (live : pair.epoch ≤ env) (store : Contents D K V) (ops : List (BatchOp D K V)) :
    engine full state.host env store ops =
      ⟨if full pair.attempts store ops then .failed (.mdb .mapFull) else .committed,
        if full pair.attempts store ops then store else applyAll store (ops.map BatchOp.exec),
        { state.host with attempts := state.host.attempts + 1 }⟩ := by
  have notClosed : state.host.closed env = false := by
    rw [refines.closed]
    exact decide_eq_false (by omega)
  simp only [engine, notClosed, refines.attempts, Bool.false_eq_true, ↓reduceIte]
  split_ifs <;> rfl

private theorem engine_closed (full : Full D K V) (refines : Refines size state pair) {env : ℕ}
    (closed : env < pair.epoch) (store : Contents D K V) (ops : List (BatchOp D K V)) :
    engine full state.host env store ops =
      ⟨.failed (.mdb .einval), store,
        { state.host with attempts := state.host.attempts + 1 }⟩ := by
  have isClosed : state.host.closed env = true := by
    rw [refines.closed]
    exact decide_eq_true closed
  simp only [engine, isClosed, ↓reduceIte]

private theorem flushCurrent_refines (alike : FlushesAlike size flush flush')
    (related : RefinesFrom size floor state pair) :
    Outcome.Rel (RefinesFrom size floor) (flushBody full flush (pair.epoch + 1) state)
      (Pair.flushCurrent full size flush' pair) := by
  obtain ⟨refines, above⟩ := related
  have queue := (refines.queues (pair.epoch + 1)).trans pair.queue_cur
  have attempt := engine_live full refines (Nat.le_succ pair.epoch)
    (state.native (pair.epoch + 1)) (state.batchOps (pair.epoch + 1))
  rw [queue, refines.curContents] at attempt
  by_cases empty : pair.cur.queue = []
  · rw [flushBody, flushBatchOps_empty (queue.trans empty), Pair.flushCurrent, empty]
    exact .returned ⟨refines, above⟩
  · have nonempty : state.batchOps (pair.epoch + 1) ≠ [] := queue ▸ empty
    simp only [Pair.flushCurrent, List.isEmpty_iff, empty, ↓reduceIte]
    split_ifs with overflow
    · simp only [overflow, ↓reduceIte] at attempt
      rw [flushBody, flushBatchOps_full nonempty (by rw [queue, refines.curContents, attempt])
        refines.curHandler, queue]
      -- Rotation, replay and the inner flush, then clearing the queue of the rotated-out one.
      have rotated : RefinesFrom size floor _ pair.attempted.rotate :=
        ⟨(refines.failed refines.curContents).rotate, above.trans (Nat.le_succ _)⟩
      refine Prog.seq_rel ?_ (fun _ _ => id) ?_
      · rw [onfull, Prog.seq_update, Prog.seq_update]
        exact Prog.seq_rel (Prog.forEach_rel (fun op _ _ => replayOp_refines alike op) _ rotated)
          (fun _ _ => id) (fun _ _ => flushCur_refines alike)
      · intro next next' replayed
        exact .returned ⟨replayed.1.setQueue _ _, by simpa using replayed.2⟩
    · simp only [overflow, Bool.false_eq_true, ↓reduceIte] at attempt
      rw [flushBody, flushBatchOps_committed nonempty (by rw [queue, refines.curContents, attempt])]
      exact .returned ⟨refines.attempted.commitCur, above⟩

private theorem flushOld_refines (related : RefinesFrom size floor state pair) :
    Outcome.Rel (RefinesFrom size floor) (flushBody full flush pair.epoch state)
      (Pair.flushOld full pair) := by
  obtain ⟨refines, above⟩ := related
  have queue := (refines.queues pair.epoch).trans pair.queue_old
  have attempt := engine_live full refines (Nat.le_refl pair.epoch)
    (state.native pair.epoch) (state.batchOps pair.epoch)
  rw [queue, refines.oldContents] at attempt
  by_cases empty : pair.old.queue = []
  · rw [flushBody, flushBatchOps_empty (queue.trans empty), Pair.flushOld, empty]
    exact .returned ⟨refines, above⟩
  · have nonempty : state.batchOps pair.epoch ≠ [] := queue ▸ empty
    simp only [Pair.flushOld, List.isEmpty_iff, empty, ↓reduceIte]
    split_ifs with overflow asserting
    · simp only [overflow, ↓reduceIte] at attempt
      have handler := refines.oldHandler
      rw [if_pos asserting] at handler
      rw [flushBody, flushBatchOps_full nonempty (by rw [queue, refines.oldContents, attempt])
        handler]
      exact .threw _ ⟨refines.failed refines.oldContents, above⟩
    · simp only [overflow, ↓reduceIte] at attempt
      have handler := refines.oldHandler
      rw [if_neg asserting] at handler
      rw [flushBody, flushBatchOps_other nonempty (by rw [queue, refines.oldContents, attempt])
        (.inl handler)]
      exact .threw _ ⟨refines.failed refines.oldContents, above⟩
    · simp only [overflow, Bool.false_eq_true, ↓reduceIte] at attempt
      rw [flushBody, flushBatchOps_committed nonempty (by rw [queue, refines.oldContents, attempt])]
      exact .returned ⟨refines.attempted.commitOld, above⟩

private theorem flushGone_refines (related : RefinesFrom size floor state pair) {env : ℕ}
    (gone : env < pair.epoch) :
    Outcome.Rel (RefinesFrom size floor) (flushBody full flush env state)
      (Pair.flushGone env pair) := by
  obtain ⟨refines, above⟩ := related
  have queue := (refines.queues env).trans (pair.queue_gone env gone)
  by_cases empty : pair.gone env = []
  · rw [flushBody, flushBatchOps_empty (queue.trans empty), Pair.flushGone, empty]
    exact .returned ⟨refines, above⟩
  · have nonempty : state.batchOps env ≠ [] := queue ▸ empty
    simp only [Pair.flushGone, List.isEmpty_iff, empty, ↓reduceIte]
    rw [flushBody, flushBatchOps_other nonempty (engine_closed full refines gone _ _)
      (.inr Error.mentionsMapFull_einval)]
    exact .threw _ ⟨refines.failed rfl, above⟩

theorem flushBatchOps_alike (full : Full D K V) (size : JsNumber) (depth : ℕ) :
    FlushesAlike size (flushBatchOps full depth) (Pair.flush full size depth) := by
  intro floor env env' state pair related same
  refine Prog.nest_rel (fun env env' _ pair => env = env' ∧ env ≤ pair.epoch + 1) ?_ depth related
    same
  rintro callee callee' alike frame call call' state pair related ⟨rfl, known⟩
  unfold Pair.flushBody
  split_ifs with cur old
  · subst cur
    exact flushCurrent_refines alike related
  · subst old
    exact flushOld_refines related
  · exact flushGone_refines related (by omega)

end Programs

section Runs

theorem opened_refines (size : JsNumber) (cur old : Contents D K V) :
    Refines size (opened size cur old) (Pair.opened cur old) where
  curEnv := rfl
  oldEnv := rfl
  next := rfl
  openSize := rfl
  sizes := fun _ => rfl
  queues := fun env => by
    unfold Pair.queue
    split_ifs <;> rfl
  curContents := rfl
  oldContents := rfl
  closed := fun env => by simp [opened, Pair.opened]
  curHandler := rfl
  oldHandler := rfl
  timer := rfl
  armed := fun env pending => nomatch pending
  attempts := rfl
  rotations := rfl

variable [DecidableEq D] [DecidableEq K] {full : Full D K V} {size : JsNumber}

/-- Both machines perform every action alike. -/
theorem act_refines (full : Full D K V) {state : State D K V} {pair : Pair D K V}
    (refines : Refines size state pair) (depth : ℕ) (action : Action D K V) :
    Outcome.Rel (Refines size) (act full depth action state)
      (Pair.act full size depth action pair) := by
  have alike := flushBatchOps_alike full size depth
  have related : RefinesFrom size 0 state pair := ⟨refines, Nat.zero_le _⟩
  have unframed : Outcome.Rel (RefinesFrom size 0) (act full depth action state)
      (Pair.act full size depth action pair) := by
    cases action with
    | put db key val => exact put_refines alike related db key val
    | del db key => exact del_refines alike related db key
    | flushBatchOps =>
      refine Prog.seq_rel ?_ (fun _ _ => id) (fun _ _ => flushCur_refines alike)
      exact alike 0 _ _ _ _ related ⟨refines.oldEnv, refines.oldEnv.le.trans (Nat.le_succ _)⟩
    | fire =>
      simp only [act, actBy, Pair.act, fire, Pair.fire, refines.timer]
      cases pending : pair.timer with
      | none => exact .returned related
      | some env =>
        have disarmed : Refines size { state with timer := none } { pair with timer := none } :=
          refines.arm (by simp)
        exact alike 0 _ _ _ _ ⟨disarmed, Nat.zero_le _⟩ ⟨rfl, refines.armed env pending⟩
  exact unframed.mono fun _ _ => And.left

/-- What every step of the pair preserves holds along every run of the cache. -/
theorem preserves_pair {cur old : Contents D K V} {actions : List (Action D K V)}
    {state : State D K V} (run : Run full (opened size cur old) actions state)
    (invariant : List (Action D K V) → Pair D K V → Prop)
    (start : invariant [] (Pair.opened cur old))
    (step : ∀ actions pair action depth next, invariant actions pair →
      (Pair.act full size depth action pair).state? = some next →
      invariant (actions ++ [action]) next) :
    ∃ pair, Refines size state pair ∧ invariant actions pair := by
  refine Runs.preserves run (fun actions state => ∃ pair, Refines size state pair ∧ invariant actions pair)
    ⟨_, opened_refines size cur old, start⟩ ?_
  rintro actions state action after ⟨pair, refines, holds⟩ ⟨depth, ended⟩
  obtain ⟨next, acted, refines'⟩ := (act_refines full refines _ _).of_state? ended
  exact ⟨next, refines', step _ pair _ _ next holds acted⟩

end Runs

end NodeKv.Cache
