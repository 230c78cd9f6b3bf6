import NodeKv.Soundness.Cache.Termination

/-! # Puts survive a rotation

Without deletes nothing is ever queued on the old environment, and a failed batch of puts is
replayed into the environment just created. If a batch within the batch size always fits there, the
replay cannot fail again: a flush of the current environment returns after at most one rotation,
with the whole batch committed in the environment that is current then. The replay may reach the
batch size at its last put, in which case the flush inside the loop does the work and the explicit
one finds an empty queue.
-/

namespace NodeKv.Cache

open Machine Lmdb

variable {D K V : Type*}

/-- What a cache `put` queues. -/
def BatchOp.IsPut (op : BatchOp D K V) : Prop := ∃ db key val, op = ⟨db, .put key val, some db⟩

/-- A batch of at most `size` puts fits an environment just created. Environments are created by
rotations and a rotation answers a failed transaction, so the transaction that follows a failed one
is the first on a new environment. -/
def FitsNew (full : Full D K V) (size : ℕ) : Prop :=
  ∀ attempt store failed, full attempt store failed = true →
    ∀ ops, ops.length ≤ size → (∀ op ∈ ops, op.IsPut) →
      full (attempt + 1) (fun _ => none) ops = false

theorem BatchOp.IsPut.isDel_exec {ops : List (BatchOp D K V)} (puts : ∀ op ∈ ops, op.IsPut) :
    ∀ update ∈ ops.map BatchOp.exec, update.isDel = false := by
  rw [List.forall_mem_map]
  intro op member
  obtain ⟨db, key, val, rfl⟩ := puts op member
  rfl

namespace Pair

/-- A pair on which only puts are queued, and those on the current environment. -/
structure OnlyPuts (pair : Pair D K V) : Prop where
  cur : ∀ op ∈ pair.cur.queue, op.IsPut
  old : pair.old.queue = []
  gone : ∀ env, pair.gone env = []

theorem OnlyPuts.enqueueCur {pair : Pair D K V} (only : OnlyPuts pair) {op : BatchOp D K V}
    (put : op.IsPut) : OnlyPuts (pair.enqueueCur op) := by
  refine { only with cur := ?_ }
  intro other member
  rcases List.mem_append.mp member with queued | last
  · exact only.cur other queued
  · exact List.mem_singleton.mp last ▸ put

section Replay

variable (size : ℕ) (flush : ℕ → Prog Error (Pair D K V))

private theorem replay_put {op : BatchOp D K V} (put : op.IsPut) (pair : Pair D K V) :
    replayOp (.finite size) flush op pair =
      if size ≤ pair.cur.queue.length + 1 then flush (pair.epoch + 1) (pair.enqueueCur op)
      else .returned { pair.enqueueCur op with timer := some (pair.epoch + 1) } := by
  obtain ⟨db, key, val, rfl⟩ := put
  simp only [replayOp, Pair.put, push_cur, JsNumber.reached_natCast, decide_eq_true_eq]

/-- Replayed puts that stay below the batch size collect in the current queue. -/
theorem replay_puts {ops : List (BatchOp D K V)} (puts : ∀ op ∈ ops, op.IsPut) (pair : Pair D K V)
    (short : pair.cur.queue.length + ops.length < size) :
    ∃ timer, Prog.forEach (replayOp (.finite size) flush) ops pair =
      .returned { pair with cur := ⟨pair.cur.contents, pair.cur.queue ++ ops⟩, timer := timer } := by
  induction ops generalizing pair with
  | nil => exact ⟨pair.timer, by simp⟩
  | cons op ops ih =>
    rw [List.length_cons] at short
    have unreached : ¬size ≤ pair.cur.queue.length + 1 := by omega
    have pushed := replay_put size flush (puts op (List.mem_cons_self ..)) pair
    rw [if_neg unreached] at pushed
    obtain ⟨timer, rest⟩ := ih (fun other member => puts other (List.mem_cons_of_mem _ member))
      { pair.enqueueCur op with timer := some (pair.epoch + 1) }
      (by rw [enqueueCur, List.length_append, List.length_singleton]; omega)
    refine ⟨timer, ?_⟩
    rw [Prog.forEach_cons, Prog.seq_returned pushed, rest]
    simp only [enqueueCur, List.append_assoc, List.singleton_append]

end Replay

variable [DecidableEq D] [DecidableEq K] {full : Full D K V} {size : ℕ}

/-- The replay of a batch into an environment where it fits, with the flush that ends it. -/
theorem replay_fitting (depth : ℕ) {queue : List (BatchOp D K V)} (puts : ∀ op ∈ queue, op.IsPut)
    (nonempty : queue ≠ []) (le : queue.length ≤ size) {pair : Pair D K V}
    (new : pair.cur = .fresh) (fits : full pair.attempts (fun _ => none) queue = false) :
    ∃ timer, Prog.seq
        (Prog.forEach (replayOp (.finite size) (flush full (.finite size) (depth + 1))) queue)
        (flushCur (flush full (.finite size) (depth + 1))) pair =
      .returned { pair.attempted with
        cur := (Generation.mk (fun _ => none) queue).flushed, timer := timer } := by
  have flushed : ∀ timer, flush full (.finite size) (depth + 1) (pair.epoch + 1)
      { pair with cur := ⟨fun _ => none, queue⟩, timer := timer } =
      .returned { pair.attempted with
        cur := (Generation.mk (fun _ => none) queue).flushed, timer := timer } := by
    intro timer
    refine (flush_succ full (.finite size) depth
      { pair with cur := ⟨fun _ => none, queue⟩, timer := timer }).trans ?_
    exact flushCurrent_committed nonempty fits
  rcases le.lt_or_eq with short | reached
  · obtain ⟨timer, replayed⟩ := replay_puts size (flush full (.finite size) (depth + 1)) puts pair
      (by simpa [new, Generation.fresh] using short)
    rw [new] at replayed
    exact ⟨timer, (Prog.seq_returned replayed).trans (flushed timer)⟩
  · -- The last put reaches the batch size, so the loop itself flushes.
    obtain ⟨front, last, rfl⟩ := (List.eq_nil_or_concat' queue).resolve_left nonempty
    rw [List.length_append, List.length_singleton] at reached
    obtain ⟨timer, replayed⟩ := replay_puts size (flush full (.finite size) (depth + 1))
      (fun op member => puts op (List.mem_append_left _ member)) pair
      (by simp [new, Generation.fresh]; omega)
    have triggered := replay_put size (flush full (.finite size) (depth + 1))
      (puts last (by simp))
      { pair with cur := ⟨pair.cur.contents, pair.cur.queue ++ front⟩, timer := timer }
    rw [if_pos (by simp [new, Generation.fresh]; omega)] at triggered
    rw [new] at replayed triggered
    refine ⟨timer, ?_⟩
    rw [Prog.forEach_append, Prog.seq_assoc, Prog.seq_returned replayed, Prog.forEach_singleton,
      Prog.seq_returned (triggered.trans (flushed timer))]
    refine (flush_succ full (.finite size) depth { pair.attempted with
      cur := (Generation.mk (fun _ => none) (front ++ [last])).flushed, timer := timer }).trans ?_
    exact flushCurrent_empty rfl

/-- What a flush of the current environment does to the generations, rotating at most once. -/
structure Survives (before next : Pair D K V) : Prop where
  cur : next.cur.queue = []
  old : next.old.queue = []
  gone : ∀ env, next.gone env = []
  generations :
    (next.epoch = before.epoch ∧ next.rotations = before.rotations ∧
      next.cur.contents = before.cur.settled ∧ next.old.contents = before.old.contents) ∨
    (next.epoch = before.epoch + 1 ∧
      next.rotations = before.rotations ++ [⟨before.cur.contents, before.cur.queue⟩] ∧
      next.cur.contents = applyAll (fun _ => none) (before.cur.queue.map BatchOp.exec) ∧
      next.old.contents = before.cur.contents)

/-- A flush of puts returns, and nothing is lost. -/
theorem flush_puts (fits : FitsNew full size) (depth : ℕ) {pair : Pair D K V}
    (only : OnlyPuts pair) (le : pair.cur.queue.length ≤ size) :
    ∃ next, flush full (.finite size) (depth + 2) (pair.epoch + 1) pair = .returned next ∧
      Survives pair next := by
  rw [flush_succ]
  by_cases empty : pair.cur.queue = []
  · refine ⟨pair, flushCurrent_empty empty, empty, only.old, only.gone, .inl ⟨rfl, rfl, ?_, rfl⟩⟩
    simp [Generation.settled, empty]
  cases overflow : full pair.attempts pair.cur.contents pair.cur.queue with
  | false =>
    exact ⟨_, flushCurrent_committed empty overflow, rfl, only.old, only.gone,
      .inl ⟨rfl, rfl, rfl, rfl⟩⟩
  | true =>
    have again := fits _ _ _ overflow _ le only.cur
    have new : pair.attempted.rotate.cur = .fresh := rfl
    obtain ⟨timer, replayed⟩ := replay_fitting depth only.cur empty le new again
    rw [flushCurrent_full empty overflow, Prog.seq_returned replayed]
    -- Clearing the failed queue now clears that of the old environment.
    refine ⟨{ pair.attempted.rotate.attempted with
      cur := (Generation.mk (fun _ => none) pair.cur.queue).flushed
      old := ⟨pair.cur.contents, []⟩, timer := timer }, ?_, rfl, rfl, ?_, .inr ⟨rfl, rfl, rfl, rfl⟩⟩
    · simp [Prog.update, setQueue, rotate, attempted]
    · intro env
      by_cases closed : env = pair.epoch
      · simp [attempted, rotate, closed, only.old]
      · simp [attempted, rotate, closed, only.gone]

/-- The same at every depth that lets the flush come back. -/
theorem flush_puts_meets (fits : FitsNew full size) (depth : ℕ) {pair : Pair D K V}
    (only : OnlyPuts pair) (le : pair.cur.queue.length ≤ size) :
    (flush full (.finite size) depth (pair.epoch + 1) pair).Meets True (Survives pair)
      fun _ _ => False := by
  by_cases finished : flush full (.finite size) depth (pair.epoch + 1) pair = .diverged
  · rw [finished]
    trivial
  · obtain ⟨next, ended, survives⟩ := flush_puts fits depth only le
    have stable : flush full (.finite size) (depth + 2) (pair.epoch + 1) pair =
        flush full (.finite size) depth (pair.epoch + 1) pair :=
      Prog.nest_stable (flushBody_monotone full _) (Nat.le_add_right depth 2) finished
    rw [← stable, ended]
    exact survives

/-- What holds between the calls of an owner who only puts. -/
structure Tidy (size : ℕ) (pair : Pair D K V) : Prop extends OnlyPuts pair where
  short : pair.cur.queue.length < size

omit [DecidableEq D] [DecidableEq K] in
theorem Tidy.queued {pair : Pair D K V} (tidy : Tidy size pair) {op : BatchOp D K V}
    (put : op.IsPut) :
    OnlyPuts (pair.enqueueCur op) ∧ (pair.enqueueCur op).cur.queue.length ≤ size := by
  refine ⟨tidy.toOnlyPuts.enqueueCur put, ?_⟩
  rw [enqueueCur, List.length_append, List.length_singleton]
  exact tidy.short

theorem Survives.tidy {before next : Pair D K V} (survives : Survives before next)
    (positive : 1 ≤ size) : Tidy size next where
  cur := by simp [survives.cur]
  old := survives.old
  gone := survives.gone
  short := by rw [survives.cur]; exact positive

/-- A flush of any environment, by its owner or by the timer. -/
theorem flush_tidy (positive : 1 ≤ size) (fits : FitsNew full size) (depth env : ℕ)
    {pair : Pair D K V} (tidy : Tidy size pair) :
    (flush full (.finite size) depth env pair).Meets True (Tidy size) fun _ _ => False := by
  have unrolls := flush_unrolls full (.finite size) depth
  by_cases cur : env = pair.epoch + 1
  · subst cur
    exact (flush_puts_meets fits depth tidy.toOnlyPuts tidy.short.le).mono id
      (fun _ survives => survives.tidy positive) (fun _ _ => id)
  by_cases old : env = pair.epoch
  · subst old
    rcases unrolls.old pair with ran | ⟨cut, -⟩
    · rw [ran, flushOld, tidy.old]
      exact tidy
    · rw [cut]
      trivial
  · rcases unrolls.gone pair env cur old with ran | ⟨cut, -⟩
    · rw [ran, flushGone, tidy.gone]
      exact tidy
    · rw [cut]
      trivial

private theorem act_tidy (positive : 1 ≤ size) (fits : FitsNew full size) (depth : ℕ)
    {action : Action D K V} (kept : ∀ db key, action ≠ .del db key) {pair : Pair D K V}
    (tidy : Tidy size pair) :
    (act full (.finite size) depth action pair).Meets True (Tidy size) fun _ _ => False := by
  cases action with
  | put db key val =>
    obtain ⟨only, le⟩ := tidy.queued ⟨db, key, val, rfl⟩
    rw [act, put, push_cur]
    split_ifs with reached
    · exact (flush_puts_meets fits depth only le).mono id
        (fun _ survives => survives.tidy positive) (fun _ _ => id)
    · rw [JsNumber.reached_natCast, decide_eq_true_eq, not_le] at reached
      exact ⟨⟨only.cur, only.old, only.gone⟩, by simpa [enqueueCur] using reached⟩
  | del db key => exact absurd rfl (kept db key)
  | flushBatchOps =>
    exact Prog.seq_meets (flush_tidy positive fits depth _ tidy)
      fun next tidy => flush_tidy positive fits depth _ tidy
  | fire =>
    rw [act, fire]
    cases pair.timer with
    | none => exact tidy
    | some env => exact flush_tidy positive fits depth env ⟨⟨tidy.cur, tidy.old, tidy.gone⟩, tidy.short⟩

end Pair

/-- The states in which a flush of the current environment is called when the owner or the timer
acts in a given state. -/
inductive FlushCall [DecidableEq D] (state : State D K V) : State D K V → Prop
  | manual : FlushCall state state
  | timer : FlushCall state { state with timer := none }
  | pushed (db : D) (key : K) (val : V) :
      FlushCall state ((openDb state.host.curEnv db state).setOps state.host.curEnv
        (state.batchOps state.host.curEnv ++ [⟨db, .put key val, some db⟩]))

variable [DecidableEq D] [DecidableEq K]

/-- A flush that left the environments in their places. -/
structure KeptEnvs (before next : State D K V) : Prop where
  curEnv : next.host.curEnv = before.host.curEnv
  oldEnv : next.host.oldEnv = before.host.oldEnv
  rotations : next.host.rotations = before.host.rotations
  curContents : next.native next.host.curEnv = applyAll (before.native before.host.curEnv)
    ((before.batchOps before.host.curEnv).map BatchOp.exec)
  oldContents : next.native next.host.oldEnv = before.native before.host.oldEnv

/-- A flush that rotated once: the old environment is the one that was current, as it was. -/
structure RotatedOnce (before next : State D K V) : Prop where
  oldEnv : next.host.oldEnv = before.host.curEnv
  rotations : next.host.rotations = before.host.rotations ++
    [⟨before.native before.host.curEnv, before.batchOps before.host.curEnv⟩]
  curContents : next.native next.host.curEnv = applyAll (fun _ => none)
    ((before.batchOps before.host.curEnv).map BatchOp.exec)
  oldContents : next.native next.host.oldEnv = before.native before.host.curEnv

/-- What a flush of the current environment has done once it returns. -/
structure PutsKept (before next : State D K V) : Prop where
  curQueue : next.batchOps next.host.curEnv = []
  oldQueue : next.batchOps next.host.oldEnv = []
  generations : KeptEnvs before next ∨ RotatedOnce before next
  /-- Every key the batch put has the value of its last put. -/
  committed : ∀ op ∈ before.batchOps before.host.curEnv, ∃ val,
    lastOn op.exec.key ((before.batchOps before.host.curEnv).map BatchOp.exec) = some (some val) ∧
      next.native next.host.curEnv op.exec.key = some val

variable {full : Full D K V} {size : ℕ}

theorem PutsKept.of_survives {before next : State D K V} {pair pair' : Pair D K V}
    (refines : Refines (.finite size) before pair) (refines' : Refines (.finite size) next pair')
    (only : pair.OnlyPuts) (survives : pair.Survives pair') : PutsKept before next := by
  have queue : before.batchOps before.host.curEnv = pair.cur.queue := by
    rw [refines.queues, refines.curEnv, Pair.queue_cur]
  have cur : before.native before.host.curEnv = pair.cur.contents :=
    refines.curEnv ▸ refines.curContents
  have old : before.native before.host.oldEnv = pair.old.contents :=
    refines.oldEnv ▸ refines.oldContents
  have cur' : next.native next.host.curEnv = pair'.cur.contents :=
    refines'.curEnv ▸ refines'.curContents
  have old' : next.native next.host.oldEnv = pair'.old.contents :=
    refines'.oldEnv ▸ refines'.oldContents
  refine ⟨?_, ?_, ?_, ?_⟩
  · rw [refines'.queues, refines'.curEnv, Pair.queue_cur, survives.cur]
  · rw [refines'.queues, refines'.oldEnv, Pair.queue_old, survives.old]
  · rcases survives.generations with ⟨epoch, rotations, curKept, oldKept⟩ |
      ⟨epoch, rotations, curNew, oldNew⟩
    · refine .inl ⟨?_, ?_, ?_, ?_, ?_⟩
      · rw [refines'.curEnv, refines.curEnv, epoch]
      · rw [refines'.oldEnv, refines.oldEnv, epoch]
      · rw [refines'.rotations, refines.rotations, rotations]
      · rw [cur', cur, queue, curKept, Generation.settled]
      · rw [old', old, oldKept]
    · refine .inr ⟨?_, ?_, ?_, ?_⟩
      · rw [refines'.oldEnv, refines.curEnv, epoch]
      · rw [refines'.rotations, refines.rotations, rotations, cur, queue]
      · rw [cur', queue, curNew]
      · rw [old', cur, oldNew]
  · intro op member
    rw [queue] at member ⊢
    obtain ⟨val, last⟩ := lastOn_of_puts (BatchOp.IsPut.isDel_exec only.cur)
      (List.mem_map_of_mem member)
    refine ⟨val, last, ?_⟩
    rcases survives.generations with ⟨-, -, curKept, -⟩ | ⟨-, -, curNew, -⟩
    · rw [cur', curKept, Generation.settled, applyAll_apply, last, Option.getD_some]
    · rw [cur', curNew, applyAll_apply, last, Option.getD_some]

omit [DecidableEq K] in
/-- Every call to flush finds a pair on which only puts are queued, no more than fit a batch. -/
theorem FlushCall.refines {state before : State D K V} (call : FlushCall state before)
    {pair : Pair D K V} (refines : Refines (.finite size) state pair) (tidy : pair.Tidy size) :
    ∃ pair', Refines (.finite size) before pair' ∧ pair'.OnlyPuts ∧
      pair'.cur.queue.length ≤ size := by
  cases call with
  | manual => exact ⟨pair, refines, tidy.toOnlyPuts, tidy.short.le⟩
  | timer =>
    exact ⟨{ pair with timer := none }, refines.arm (by simp),
      ⟨tidy.cur, tidy.old, tidy.gone⟩, tidy.short.le⟩
  | pushed db key val =>
    obtain ⟨only, le⟩ := tidy.queued ⟨db, key, val, rfl⟩
    refine ⟨pair.enqueueCur ⟨db, .put key val, some db⟩, ?_, only, le⟩
    have pushed := (refines.openDb (pair.epoch + 1) db).setQueue (pair.epoch + 1)
      (pair.cur.queue ++ [⟨db, .put key val, some db⟩])
    rw [Pair.setQueue, if_pos rfl] at pushed
    rw [refines.queues, refines.curEnv, Pair.queue_cur]
    exact pushed

end NodeKv.Cache
