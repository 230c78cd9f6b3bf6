import NodeKv.Soundness.Lmdb.Flush
import NodeKv.Proofs.Lmdb.Queue

/-! # The length of the batch queue

Here LMDB refuses exactly the keys whose size it does not support. A queue of other keys is flushed
whenever it reaches the batch size, so it never grows beyond it. A refused key makes every flush
throw; it stays in the queue, and the queue grows with every put from then on.
-/

namespace NodeKv.Lmdb

open Machine

variable {v8 : V8}

section Keys

def BatchOp.key : BatchOp v8 → Bytes
  | put _ key _ => key.bytes
  | del _ key => key.bytes

/-- The key is empty or longer than `mdb_env_get_maxkeysize`. -/
def BatchOp.Refused (limit : ℕ) (op : BatchOp v8) : Prop := op.key = [] ∨ limit < op.key.length

instance (limit : ℕ) (op : BatchOp v8) : Decidable (op.Refused limit) :=
  inferInstanceAs (Decidable (_ ∨ _))

/-- LMDB supports every key. -/
def Clean (limit : ℕ) (ops : List (BatchOp v8)) : Prop := ∀ op ∈ ops, ¬op.Refused limit

private theorem clean_nil (limit : ℕ) : Clean limit ([] : List (BatchOp v8)) := by
  intro op member
  exact nomatch member

/-- The return codes while a queue is flushed: first of `mdb_txn_begin`, then of `mdb_put` for each
operation in turn, and of `mdb_txn_commit`. -/
def keyCheck (limit : ℕ) (ops : List (BatchOp v8)) (native : Native) : Returns := fun call =>
  if call ≤ native.calls then none
  else
    match ops[call - (native.calls + 1)]? with
    | some op => if op.Refused limit then some .badValsize else none
    | none => none

/-- Flushes against an LMDB that refuses nothing but keys. -/
def keyEngine (v8 : V8) (limit : ℕ) : Engine Native (BatchOp v8) Unit := fun _ _ native ops =>
  let (result, native) := attempt (keyCheck limit ops native) ops native
  ⟨result, native, ()⟩

/-- `flushBatchOps` of an environment without a handler. -/
def keyFlush (v8 : V8) (limit : ℕ) (env : ℕ) : Prog Error (Plain v8) :=
  flushBatchOps (keyEngine v8 limit) (fun handler => nomatch handler) env

end Keys

section Attempt

variable {limit : ℕ} {ops : List (BatchOp v8)} {native : Native}

private theorem keyCheck_clean (clean : Clean limit ops) (native : Native) :
    keyCheck limit ops native = silent := by
  funext call
  unfold keyCheck
  split_ifs
  · rfl
  · split
    · next op found => exact if_neg (clean op (List.mem_of_getElem? found))
    · rfl

/-- A put asks for one return code. -/
theorem exec_put_code (returns : Returns) {before : Native} {handle : ℕ} {view : Store}
    {entries : List Entry} (writing : Writing before handle view entries native) {op : BatchOp v8}
    (put : op.isPut = true) :
    (op.exec returns handle native).Meets False
      (fun next => returns native.calls = none ∧ next.calls = native.calls + 1) fun _ _ => True := by
  cases op with
  | del db key => exact nomatch put
  | put db key val =>
    obtain ⟨number, txn⟩ := writing.txn
    simp only [BatchOp.exec, Result.statement, Db.put, Datum.encode_value, writeScope, mdbWrite, txn]
    cases returns native.calls with
    | some rc => exact trivial
    | none => exact ⟨rfl, rfl⟩

/-- The loop throws at a refused key. The codes are those of the operations that are left. -/
theorem exec_refused {returns : Returns} {before : Native} {handle : ℕ} {view : Store}
    {entries : List Entry} (writing : Writing before handle view entries native)
    (puts : ∀ op ∈ ops, op.isPut = true)
    (codes : ∀ index op, ops[index]? = some op → op.Refused limit →
      returns (native.calls + index) ≠ none)
    (refused : ∃ op ∈ ops, op.Refused limit) :
    (Prog.forEach (BatchOp.exec returns handle) ops native).Meets False (fun _ => False)
      fun _ _ => True := by
  induction ops generalizing native view entries with
  | nil =>
    obtain ⟨op, member, -⟩ := refused
    exact nomatch member
  | cons op rest ih =>
    have put := puts op (List.mem_cons_self ..)
    have written := exec_put returns writing put
    have code := exec_put_code returns writing put
    cases ran : op.exec returns handle native with
    | diverged =>
      rw [ran] at written
      exact written.elim
    | threw error next =>
      rw [Prog.forEach_cons, Prog.seq_threw ran]
      exact trivial
    | returned next =>
      rw [ran] at written code
      obtain ⟨accepted, calls⟩ := code
      rw [Prog.forEach_cons, Prog.seq_returned ran]
      refine ih written (fun other member => puts other (List.mem_cons_of_mem _ member)) ?_ ?_
      · intro index other found bad
        rw [calls, Nat.add_assoc, Nat.add_comm 1 index]
        exact codes (index + 1) other found bad
      · obtain ⟨other, member, bad⟩ := refused
        rcases List.mem_cons.mp member with rfl | later
        · exact absurd accepted (codes 0 other rfl bad)
        · exact ⟨other, later, bad⟩

private theorem keyCheck_refused {index : ℕ} {op : BatchOp v8} (found : ops[index]? = some op)
    (refused : op.Refused limit) (native : Native) :
    keyCheck limit ops native (native.calls + 1 + index) ≠ none := by
  have beyond : ¬native.calls + 1 + index ≤ native.calls := by omega
  rw [keyCheck, if_neg beyond, Nat.add_sub_cancel_left, found]
  simp [refused]

private theorem txnCtor_calls {returns : Returns} {handle : ℕ} {after : Native}
    (begun : txnCtor returns false native = (.ok handle, after)) :
    after.calls = native.calls + 1 := by
  simp only [txnCtor, beginWrite, Bool.false_eq_true, ↓reduceIte] at begun
  cases code : returns native.calls with
  | some rc =>
    simp only [code] at begun
    cases begun
  | none =>
    cases locked : native.locked with
    | true =>
      simp only [code, locked, ↓reduceIte] at begun
      cases begun
    | false =>
      simp only [code, locked, Bool.false_eq_true, ↓reduceIte, Prod.mk.injEq] at begun
      rw [← begun.2]
      rfl

/-- A flush commits exactly if LMDB supports all of its keys. -/
theorem attempt_committed_iff (unlocked : native.locked = false)
    (puts : ∀ op ∈ ops, op.isPut = true) :
    (attempt (keyCheck limit ops native) ops native).1 = .committed ↔ Clean limit ops := by
  constructor
  · intro committed
    by_contra unclean
    have refused : ∃ op ∈ ops, op.Refused limit := by
      simpa only [Clean, not_forall, not_not, exists_prop] using unclean
    rcases txnCtor_write (keyCheck limit ops native) unlocked with
      ⟨error, after, begun, -⟩ | ⟨handle, after, begun, writing⟩
    · simp only [attempt, attemptWith, transaction, begun] at committed
      cases committed
    · have thrown := exec_refused writing puts (fun index op found bad => by
        rw [txnCtor_calls begun]
        exact keyCheck_refused found bad native) refused
      cases ran : Prog.forEach (BatchOp.exec (keyCheck limit ops native) handle) ops after with
      | returned next =>
        rw [ran] at thrown
        exact thrown
      | threw error next =>
        simp only [attempt, attemptWith, transaction, begun, Prog.seq_threw ran] at committed
        cases committed
      | diverged =>
        rw [ran] at thrown
        exact thrown
  · intro clean
    rw [keyCheck_clean clean]
    have outcome := attempt_puts silent unlocked puts
    cases ran : attempt silent ops native with
    | mk result after =>
      rw [ran] at outcome
      cases outcome with
      | committed settled => rfl
      | failed reported undone => exact (not_reported_silent reported).elim
      | notBegun reported undone => exact (not_reported_silent reported).elim

end Attempt

section Flush

variable {limit : ℕ} {stores : ℕ → Store} {world : Plain v8}

/-- A flush returns, with an empty queue, exactly if LMDB supports all keys in it. -/
theorem keyFlush_meets (idle : Idle stores world) (env : ℕ) :
    (keyFlush v8 limit env world).Meets False
      (fun next => Idle stores next ∧ next.batchOps = Function.update world.batchOps env [] ∧
        next.batchSize = world.batchSize ∧ Clean limit (world.batchOps env))
      fun _ next => Idle stores next ∧ next.batchOps = world.batchOps ∧
        next.batchSize = world.batchSize ∧ ¬Clean limit (world.batchOps env) := by
  have outcome := attempt_puts (keyCheck limit (world.batchOps env) (world.native env))
    (idle.unlocked env) (idle.puts env)
  have committed_iff : _ ↔ Clean limit (world.batchOps env) :=
    attempt_committed_iff (idle.unlocked env) (idle.puts env)
  cases ran : attempt (keyCheck limit (world.batchOps env) (world.native env))
      (world.batchOps env) (world.native env) with
  | mk result native =>
    rw [ran] at outcome committed_iff
    have attempted : keyEngine v8 limit world.host env (world.native env) (world.batchOps env) =
        ⟨result, native, ()⟩ := by
      simp only [keyEngine, ran]
    refine flushBatchOps_meets attempted ?_ ?_ (fun handler => nomatch handler)
    · intro empty
      refine ⟨idle, ?_, rfl, ?_⟩
      · rw [← empty, Function.update_eq_self]
      · rw [empty]
        exact clean_nil limit
    · cases outcome with
      | committed settled => exact ⟨idle.settled settled, rfl, rfl, committed_iff.mp rfl⟩
      | failed reported undone =>
        exact ⟨(idle.undone undone).1, rfl, rfl, fun clean => nomatch committed_iff.mpr clean⟩
      | notBegun reported undone =>
        exact ⟨(idle.undone undone).1, rfl, rfl, fun clean => nomatch committed_iff.mpr clean⟩

end Flush

/-- The queue is not longer than the batch size. -/
def Bounded (env : ℕ) (world : Plain v8) : Prop :=
  (world.batchSize env).exceeded (world.batchOps env).length = false

/-- The batch size after an action. -/
def Action.resize (env : ℕ) (size : JsNumber) : Action → JsNumber
  | .setBatchSize other num => if other = env then num.min256 else size
  | _ => size

/-- What an action that accepts these operations does to a queue: it keeps them, or everything has
been flushed. A queue that is kept although LMDB supports its keys is not too long. -/
structure Queues (limit env : ℕ) (accepted : List (BatchOp v8)) (size : JsNumber)
    (before after : Plain v8) : Prop where
  size : after.batchSize env = size
  batchOps : (after.batchOps env = before.batchOps env ++ accepted ∧
      (Clean limit (after.batchOps env) → Bounded env before → Bounded env after)) ∨
    (after.batchOps env = [] ∧ Clean limit (before.batchOps env ++ accepted))

section Actions

variable {limit env : ℕ} {stores : ℕ → Store} {accepted : List (BatchOp v8)} {size : JsNumber}
  {before world : Plain v8}

theorem Bounded.congr {next : Plain v8} (bounded : Bounded env world)
    (size : next.batchSize env = world.batchSize env)
    (ops : next.batchOps env = world.batchOps env) : Bounded env next := by
  rwa [Bounded, size, ops]

/-- A flush at the end of an action. -/
theorem Queues.flush (idle : Idle stores world) (target : ℕ) (sized : world.batchSize env = size)
    (queued : world.batchOps env = before.batchOps env ++ accepted)
    (bounded : env ≠ target → Bounded env before → Bounded env world) :
    (keyFlush v8 limit target world).Meets False
      (fun next => Idle stores next ∧ Queues limit env accepted size before next)
      fun _ next => Idle stores next ∧ Queues limit env accepted size before next := by
  refine (keyFlush_meets idle target).mono id ?_ ?_
  · rintro next ⟨idle', ops, sizes, clean⟩
    refine ⟨idle', (congrFun sizes env).trans sized, ?_⟩
    rcases eq_or_ne env target with rfl | ne
    · right
      rw [ops, Function.update_self]
      exact ⟨rfl, queued ▸ clean⟩
    · have same : next.batchOps env = world.batchOps env := by
        rw [ops, Function.update_of_ne ne]
      exact .inl ⟨same.trans queued, fun _ before => (bounded ne before).congr (congrFun sizes env) same⟩
  · rintro error next ⟨idle', ops, sizes, unclean⟩
    refine ⟨idle', (congrFun sizes env).trans sized, .inl ⟨(congrFun ops env).trans queued, ?_⟩⟩
    intro clean short
    rcases eq_or_ne env target with rfl | ne
    · exact absurd (ops ▸ clean) unclean
    · exact (bounded ne short).congr (congrFun sizes env) (congrFun ops env)

private theorem exceeded_of_not_reached {length : ℕ} {size : JsNumber}
    (below : ¬size.reached length = true) :
    size.exceeded length = false := by
  cases size with
  | nan => rfl
  | negInfinity => exact absurd rfl below
  | finite value =>
    simp only [JsNumber.reached, decide_eq_true_eq, not_le] at below
    simp only [JsNumber.exceeded, decide_eq_false_iff_not, not_lt]
    exact below.le
  | posInfinity => rfl

private theorem pushBatch_queues (idle : Idle stores world) (target : ℕ) {op : BatchOp v8}
    (put : op.isPut = true) :
    (pushBatch (keyFlush v8 limit) target op world).Meets False
      (fun next => Idle stores next ∧
        Queues limit env (if target = env then [op] else []) (world.batchSize env) world next)
      fun _ next => Idle stores next ∧
        Queues limit env (if target = env then [op] else []) (world.batchSize env) world next := by
  let pushed := world.setOps target (world.batchOps target ++ [op])
  have idle' : Idle stores pushed := by
    refine idle.setOps ?_
    intro other member
    rcases List.mem_append.mp member with old | new
    · exact idle.puts target other old
    · rwa [List.mem_singleton.mp new]
  have queued : pushed.batchOps env = world.batchOps env ++ if target = env then [op] else [] := by
    rcases eq_or_ne env target with rfl | ne
    · simp [pushed, World.setOps]
    · simp [pushed, World.setOps, ne, ne.symm]
  have others (ne : env ≠ target) (bounded : Bounded env world) : Bounded env pushed :=
    bounded.congr rfl (Function.update_of_ne ne ..)
  generalize (if target = env then [op] else []) = accepted at queued ⊢
  rw [pushBatch]
  split_ifs with full
  · exact Queues.flush idle' target rfl queued others
  · refine ⟨(idle'.same { pushed with timer := some target } rfl rfl).1, rfl,
      .inl ⟨queued, fun _ bounded => ?_⟩⟩
    rcases eq_or_ne env target with rfl | ne
    · exact exceeded_of_not_reached full
    · exact others ne bounded

private theorem setBatchSize_queues (idle : Idle stores world) (target : ℕ) (num : JsNumber) :
    (setBatchSize (keyFlush v8 limit) target num world).Meets False
      (fun next => Idle stores next ∧ Queues limit env []
        (if target = env then num.min256 else world.batchSize env) world next)
      fun _ next => Idle stores next ∧ Queues limit env []
        (if target = env then num.min256 else world.batchSize env) world next := by
  let resized : Plain v8 :=
    { world with batchSize := Function.update world.batchSize target num.min256 }
  have idle' : Idle stores resized := (idle.same resized rfl rfl).1
  have sized : resized.batchSize env = if target = env then num.min256 else world.batchSize env := by
    rcases eq_or_ne env target with rfl | ne
    · rw [if_pos rfl]
      exact Function.update_self ..
    · rw [if_neg ne.symm]
      exact Function.update_of_ne ne ..
  have others (ne : env ≠ target) (bounded : Bounded env world) : Bounded env resized :=
    bounded.congr (Function.update_of_ne ne ..) rfl
  generalize (if target = env then num.min256 else world.batchSize env) = size at sized ⊢
  rw [setBatchSize]
  split_ifs with long
  · exact Queues.flush idle' target sized (List.append_nil _).symm others
  · refine ⟨idle', sized, .inl ⟨(List.append_nil _).symm, fun _ bounded => ?_⟩⟩
    rcases eq_or_ne env target with rfl | ne
    · exact Bool.eq_false_iff.mpr long
    · exact others ne bounded

/-- A call that is rejected leaves the queue as it is. -/
theorem Queues.refl (world : Plain v8) : Queues limit env [] (world.batchSize env) world world :=
  ⟨rfl, .inl ⟨(List.append_nil _).symm, fun _ bounded => bounded⟩⟩

private theorem act_queues (idle : Idle stores world) (env : ℕ) (action : Action) :
    (act (keyFlush v8 limit) action world).Meets False
      (fun next => Idle stores next ∧ Queues limit env (action.accepted v8 env)
        (action.resize env (world.batchSize env)) world next)
      fun _ next => Idle stores next ∧ Queues limit env (action.accepted v8 env)
        (action.resize env (world.batchSize env)) world next := by
  cases action with
  | batchPut target db key val =>
    simp only [act, batchPut, Action.accepted, Action.resize]
    cases db.keyType.check v8 key with
    | error error => exact ⟨idle, .refl world⟩
    | ok key =>
      cases db.valType.check v8 val with
      | error error => exact ⟨idle, .refl world⟩
      | ok val => exact pushBatch_queues idle target rfl
  | setBatchSize target num => exact setBatchSize_queues idle target num
  | flushBatchOps target =>
    exact Queues.flush idle target rfl (List.append_nil _).symm fun _ => id
  | fire =>
    simp only [act, fire]
    cases world.timer with
    | none => exact ⟨idle, .refl world⟩
    | some target =>
      exact Queues.flush (idle.same { world with timer := none } rfl rfl).1 target rfl
        (List.append_nil _).symm fun _ => id

end Actions

section Runs

/-- An integer from one on. -/
def Whole (size : JsNumber) : Prop := ∃ count : ℕ, 1 ≤ count ∧ size = .finite count

/-- A new batch size for the environment is such an integer. -/
def Action.Admissible (env : ℕ) : Action → Prop
  | .setBatchSize other num => other = env → Whole num
  | _ => True

/-- The calls of a script, against an LMDB that refuses nothing but keys. -/
abbrev KeyRun (v8 : V8) (limit : ℕ) := Runs (Prog.Steps (act (keyFlush v8 limit)))

variable {limit env : ℕ} {stores : ℕ → Store} {world next : Plain v8} {action : Action}

theorem Whole.min256 {size : JsNumber} (whole : Whole size) : Whole size.min256 := by
  obtain ⟨count, positive, rfl⟩ := whole
  refine ⟨min count 256, by omega, ?_⟩
  simp [JsNumber.min256]

theorem Whole.resize {size : JsNumber} (whole : Whole size) (admissible : action.Admissible env) :
    Whole (action.resize env size) := by
  cases action with
  | setBatchSize other num =>
    simp only [Action.resize]
    split_ifs with same
    · exact (admissible same).min256
    · exact whole
  | batchPut target db key val => exact whole
  | flushBatchOps target => exact whole
  | fire => exact whole

private theorem act_queues_of_steps (idle : Idle stores world) (env : ℕ)
    (acted : Prog.Steps (act (keyFlush v8 limit)) world action next) :
    Idle stores next ∧ Queues limit env (action.accepted v8 env)
      (action.resize env (world.batchSize env)) world next :=
  (act_queues idle env action).state? acted

/-- The queue holds supported keys and is not too long. -/
structure Healthy (limit env : ℕ) (world : Plain v8) : Prop where
  clean : Clean limit (world.batchOps env)
  bounded : Bounded env world

private theorem bounded_of_empty (whole : Whole (world.batchSize env))
    (empty : world.batchOps env = []) :
    Bounded env world := by
  obtain ⟨count, -, size⟩ := whole
  simp [Bounded, size, empty, JsNumber.exceeded]

/-- Supported keys keep a queue healthy. -/
theorem Queues.healthy {accepted : List (BatchOp v8)} {size : JsNumber}
    (queues : Queues limit env accepted size world next) (healthy : Healthy limit env world)
    (whole : Whole size) (clean : Clean limit accepted) : Healthy limit env next := by
  rcases queues.batchOps with ⟨kept, bounded⟩ | ⟨empty, -⟩
  · have supported : Clean limit (next.batchOps env) := by
      intro op member
      rw [kept] at member
      rcases List.mem_append.mp member with old | new
      · exact healthy.clean op old
      · exact clean op new
    exact ⟨supported, bounded supported healthy.bounded⟩
  · exact ⟨empty ▸ clean_nil limit, bounded_of_empty (queues.size ▸ whole) empty⟩

/-- A refused key stays. -/
theorem Queues.refused {accepted : List (BatchOp v8)} {size : JsNumber}
    (queues : Queues limit env accepted size world next) {op : BatchOp v8}
    (member : op ∈ world.batchOps env ++ accepted) (refused : op.Refused limit) :
    next.batchOps env = world.batchOps env ++ accepted := by
  rcases queues.batchOps with ⟨kept, -⟩ | ⟨-, clean⟩
  · exact kept
  · exact absurd refused (clean op member)

variable {actions : List Action} {start : Plain v8}

theorem KeyRun.healthy (run : KeyRun v8 limit start actions world) (idle : Idle stores start)
    (whole : Whole (start.batchSize env)) (healthy : Healthy limit env start)
    (admissible : ∀ action ∈ actions, action.Admissible env)
    (clean : Clean limit (actions.flatMap (Action.accepted v8 env))) :
    Idle stores world ∧ Whole (world.batchSize env) ∧ Healthy limit env world := by
  refine run.preserves (fun actions world => (∀ action ∈ actions, action.Admissible env) →
    Clean limit (actions.flatMap (Action.accepted v8 env)) →
    Idle stores world ∧ Whole (world.batchSize env) ∧ Healthy limit env world)
    (fun _ _ => ⟨idle, whole, healthy⟩) ?_ admissible clean
  intro actions world action next ih acted admissible clean
  rw [List.flatMap_append, List.flatMap_singleton] at clean
  obtain ⟨idle, whole, healthy⟩ :=
    ih (fun other member => admissible other (List.mem_append_left _ member))
      fun op member => clean op (List.mem_append_left _ member)
  obtain ⟨idle', queues⟩ := act_queues_of_steps idle env acted
  have whole' := whole.resize (admissible action (List.mem_append_right _ (List.mem_singleton_self _)))
  exact ⟨idle', queues.size ▸ whole',
    queues.healthy healthy whole' fun op member => clean op (List.mem_append_right _ member)⟩

/-- What LMDB refuses is in the queue ever after. -/
theorem KeyRun.refused (run : KeyRun v8 limit start actions world) (idle : Idle stores start)
    (whole : Whole (start.batchSize env))
    (admissible : ∀ action ∈ actions, action.Admissible env) :
    Idle stores world ∧ Whole (world.batchSize env) ∧
      ∀ op ∈ actions.flatMap (Action.accepted v8 env), op.Refused limit →
        op ∈ world.batchOps env := by
  refine run.preserves (fun actions world => (∀ action ∈ actions, action.Admissible env) →
    Idle stores world ∧ Whole (world.batchSize env) ∧
      ∀ op ∈ actions.flatMap (Action.accepted v8 env), op.Refused limit → op ∈ world.batchOps env)
    (fun _ => ⟨idle, whole, by simp⟩) ?_ admissible
  intro actions world action next ih acted admissible
  obtain ⟨idle, whole, stays⟩ :=
    ih fun other member => admissible other (List.mem_append_left _ member)
  obtain ⟨idle', queues⟩ := act_queues_of_steps idle env acted
  refine ⟨idle', queues.size ▸ whole.resize
    (admissible action (List.mem_append_right _ (List.mem_singleton_self _))), ?_⟩
  intro op member refused
  rw [List.flatMap_append, List.flatMap_singleton] at member
  have queued : op ∈ world.batchOps env ++ action.accepted v8 env := by
    rcases List.mem_append.mp member with old | new
    · exact List.mem_append_left _ (stays op old refused)
    · exact List.mem_append_right _ new
  rwa [queues.refused queued refused]

/-- Behind a refused key the queue grows with every put. -/
theorem queue_grows (idle : Idle stores world) {op : BatchOp v8} (member : op ∈ world.batchOps env)
    (refused : op.Refused limit) (push : Action) {item : BatchOp v8}
    (pushes : push.accepted v8 env = [item]) (keeps : ∀ size, push.resize env size = size)
    (count : ℕ) :
    ∃ next, KeyRun v8 limit world (List.replicate count push) next ∧ Idle stores next ∧
      next.batchSize env = world.batchSize env ∧ op ∈ next.batchOps env ∧
      (next.batchOps env).length = (world.batchOps env).length + count := by
  induction count with
  | zero => exact ⟨world, .nil, idle, rfl, member, rfl⟩
  | succ count ih =>
    obtain ⟨middle, run, idle', size, member', length⟩ := ih
    have ended : (act (keyFlush v8 limit) push middle).Meets False _ _ :=
      act_queues idle' env push
    obtain ⟨next, acted⟩ := ended.ends
    obtain ⟨idle'', queues⟩ := act_queues_of_steps idle' env acted
    have kept := queues.refused (List.mem_append_left _ member') refused
    refine ⟨next, List.replicate_succ' ▸ .snoc run acted, idle'', ?_, ?_, ?_⟩
    · rw [queues.size, keeps, size]
    · rw [kept]
      exact List.mem_append_left _ member'
    · rw [kept, pushes, List.length_append, length, List.length_singleton, Nat.add_assoc]

/-- A put that LMDB accepts. -/
def plainPut (env : ℕ) : Action := .batchPut env ⟨2, .binary, .binary, false⟩ (.buffer [0]) (.buffer [0])

private theorem accepted_plainPut (v8 : V8) (env : ℕ) :
    ∃ item, (plainPut env).accepted v8 env = [item] ∧ item.key = [0] :=
  ⟨.put ⟨2, .binary, .binary, false⟩ ⟨.buffer [0], .buffer [0], rfl⟩ ⟨.buffer [0], .buffer [0], rfl⟩,
    if_pos rfl, rfl⟩

private theorem clean_plainPuts (supported : 1 ≤ limit) (env count : ℕ) :
    Clean limit ((List.replicate count (plainPut env)).flatMap (Action.accepted v8 env)) := by
  intro op member
  obtain ⟨action, repeated, accepted⟩ := List.mem_flatMap.mp member
  obtain ⟨item, pushes, key⟩ := accepted_plainPut v8 env
  rw [List.eq_of_mem_replicate repeated, pushes, List.mem_singleton] at accepted
  subst accepted
  rintro (empty | long)
  · exact nomatch key.symm.trans empty
  · rw [key, List.length_singleton] at long
    omega

/-- A queue that only ever got supported keys is not longer than the batch size, whatever the calls.
Once a refused key has been accepted, supported puts alone make it longer. -/
theorem batch_queue_bounded_iff (supported : 1 ≤ limit) {sizes : ℕ → JsNumber}
    (whole : Whole (sizes env)) (run : KeyRun v8 limit (opened stores sizes) actions world)
    (admissible : ∀ action ∈ actions, action.Admissible env) :
    (∀ more next, KeyRun v8 limit world more next → (∀ action ∈ more, action.Admissible env) →
      Clean limit (more.flatMap (Action.accepted v8 env)) → Bounded env next) ↔
    Clean limit (actions.flatMap (Action.accepted v8 env)) := by
  have idle : Idle stores (opened stores sizes : Plain v8) := opened_idle stores sizes
  constructor
  · intro bounded op member refused
    obtain ⟨idle, ⟨count, positive, size⟩, stays⟩ := run.refused idle whole admissible
    have queued := stays op member refused
    obtain ⟨item, pushes, -⟩ := accepted_plainPut v8 env
    obtain ⟨next, grown, -, size', -, length⟩ :=
      queue_grows idle queued refused (plainPut env) pushes (fun _ => rfl) count
    have short : Bounded env next := by
      refine bounded _ next grown ?_ (clean_plainPuts supported env count)
      intro action repeated
      rw [List.eq_of_mem_replicate repeated]
      exact trivial
    have nonempty := List.length_pos_of_mem queued
    rw [Bounded, size', size, JsNumber.exceeded, decide_eq_false_iff_not, not_lt, Nat.cast_le] at short
    omega
  · intro clean more next onward admissible' clean'
    have healthy : Healthy limit env (opened stores sizes : Plain v8) :=
      ⟨clean_nil limit, bounded_of_empty whole rfl⟩
    obtain ⟨idle', whole', healthy'⟩ := run.healthy idle whole healthy admissible clean
    exact (onward.healthy idle' whole' healthy' admissible' clean').2.2.bounded

/-- Two puts with a batch size of two. -/
theorem batch_queue_bounded_of_puts : ∃ world : Plain V8.basic,
    KeyRun V8.basic 511 (opened (fun _ _ _ => []) fun _ => .finite 2) [plainPut 0, plainPut 0] world ∧
    Bounded 0 world := by
  have performed : ∃ world, Prog.perform (act (keyFlush V8.basic 511)) [plainPut 0, plainPut 0]
      (opened (fun _ _ _ => []) fun _ => .finite 2) = some world := ⟨_, rfl⟩
  obtain ⟨world, ran⟩ := performed
  have run := Prog.perform_runs (fun _ _ _ => id) .nil ran
  have admissible : ∀ action ∈ [plainPut 0, plainPut 0], action.Admissible 0 := by
    intro action member
    rw [List.eq_of_mem_replicate (n := 2) member]
    exact trivial
  have bounded := (batch_queue_bounded_iff (by decide) ⟨2, by decide, rfl⟩ run admissible).mpr
    (clean_plainPuts (by decide) 0 2)
  exact ⟨world, run, bounded [] world .nil (by simp) (clean_nil 511)⟩

/-- After a put with an empty key, one more put makes the queue longer than the batch size. -/
theorem empty_key_unbounds : ∃ world : Plain V8.basic,
    KeyRun V8.basic 511 (opened (fun _ _ _ => []) fun _ => .finite 1)
      [.batchPut 0 ⟨2, .binary, .binary, false⟩ (.buffer []) (.buffer []), plainPut 0] world ∧
    (world.batchOps 0).length = 2 ∧ world.batchSize 0 = .finite 1 ∧ ¬Bounded 0 world := by
  have performed : ∃ world, Prog.perform (act (keyFlush V8.basic 511))
      [.batchPut 0 ⟨2, .binary, .binary, false⟩ (.buffer []) (.buffer []), plainPut 0]
      (opened (fun _ _ _ => []) fun _ => .finite 1) = some world ∧
      (world.batchOps 0).length = 2 ∧ world.batchSize 0 = .finite 1 := ⟨_, rfl, rfl, rfl⟩
  obtain ⟨world, ran, length, size⟩ := performed
  refine ⟨world, Prog.perform_runs (fun _ _ _ => id) .nil ran, length, size, ?_⟩
  rw [Bounded, length, size]
  decide

end Runs

end NodeKv.Lmdb
