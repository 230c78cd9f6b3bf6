import NodeKv.Proofs.Cache.Refinement

/-! # What a replay does to the two generations

While a failed queue is replayed, its operations collect in the new environment and each of its
deletes is queued once more behind the failed queue itself, on the environment just rotated out.
`behind` computes that second queue: it is flushed once if it grows to the batch size again, and
this re-entered batch still holds every operation that has just failed.

A queue is `Tight` when only its last operation can have reached the batch size, which is all that
`_pushBatch` ever leaves. A tight queue is replayed without a flush of the new environment before
its last operation, so one level of the recursion has a closed description, `FlushSpec`.
-/

namespace NodeKv.Cache

open Machine Lmdb

variable {D K V : Type*}

/-- No nonempty queue up to this length reaches the batch size. -/
def Unreached (size : JsNumber) (length : ℕ) : Prop := 0 < length → size.reached length = false

theorem Unreached.mono {size : JsNumber} {short long : ℕ} (unreached : Unreached size long)
    (le : short ≤ long) : Unreached size short :=
  fun positive => JsNumber.not_reached_of_le le (unreached (positive.trans_le le))

/-- Only the last operation of the queue can have reached the batch size. -/
def Tight (size : JsNumber) (queue : List (BatchOp D K V)) : Prop :=
  Unreached size (queue.length - 1)

/-- The operation can be replayed, through the cache database that queued it. -/
def Replayable (op : BatchOp D K V) : Prop := op.extra = some op.db

/-- The delete that replaying an operation queues on the old environment. -/
def shadow (op : BatchOp D K V) : Option (BatchOp D K V) :=
  match op.extra, op.call with
  | some db, .del key => some ⟨db, .del key, none⟩
  | _, _ => none

def shadows (ops : List (BatchOp D K V)) : List (BatchOp D K V) := ops.filterMap shadow

/-- The first batch to reach the batch size when operations are pushed behind a queue. -/
def reentered (size : JsNumber) (queue : List (BatchOp D K V)) :
    List (BatchOp D K V) → Option (List (BatchOp D K V))
  | [] => none
  | op :: rest =>
    if size.reached (queue.length + 1) then some (queue ++ [op])
    else reentered size (queue ++ [op]) rest

private theorem shadows_append (front back : List (BatchOp D K V)) :
    shadows (front ++ back) = shadows front ++ shadows back := List.filterMap_append

private theorem shadows_concat (ops : List (BatchOp D K V)) (op : BatchOp D K V) :
    shadows (ops ++ [op]) = shadows ops ++ (shadow op).toList := by
  cases equal : shadow op <;> simp [shadows, equal]

private theorem shadows_length_le (ops : List (BatchOp D K V)) :
    (shadows ops).length ≤ ops.length :=
  List.length_filterMap_le ..

section Reentered

variable {size : JsNumber} {queue : List (BatchOp D K V)}

private theorem reentered_append (size : JsNumber) (queue ops rest : List (BatchOp D K V)) :
    reentered size queue (ops ++ rest) =
      (reentered size queue ops).or (reentered size (queue ++ ops) rest) := by
  induction ops generalizing queue with
  | nil => simp [reentered]
  | cons op ops ih =>
    simp only [List.cons_append, reentered]
    split_ifs with hit
    · rfl
    · rw [ih, List.append_assoc, List.singleton_append]

private theorem reentered_concat (size : JsNumber) (queue ops : List (BatchOp D K V))
    (op : BatchOp D K V) :
    reentered size queue (ops ++ [op]) = (reentered size queue ops).or
      (if size.reached ((queue ++ ops).length + 1) then some (queue ++ ops ++ [op]) else none) := by
  rw [reentered_append]
  rfl

/-- A re-entered batch is the queue and some of the pushed operations. -/
theorem reentered_eq_some {ops batch : List (BatchOp D K V)}
    (hit : reentered size queue ops = some batch) :
    ∃ pushed later, pushed ≠ [] ∧ ops = pushed ++ later ∧ batch = queue ++ pushed := by
  induction ops generalizing queue with
  | nil => contradiction
  | cons op ops ih =>
    simp only [reentered] at hit
    split_ifs at hit with reached
    · exact ⟨[op], ops, List.cons_ne_nil _ _, rfl, (Option.some.inj hit).symm⟩
    · obtain ⟨pushed, later, -, rfl, rfl⟩ := ih hit
      exact ⟨op :: pushed, later, List.cons_ne_nil _ _, rfl, by simp⟩

end Reentered

variable [DecidableEq D] [DecidableEq K]

/-- The rotated-out generation after operations are pushed behind its queue. -/
def behind (size : JsNumber) (store : Contents D K V) (queue ops : List (BatchOp D K V)) :
    Generation D K V :=
  match reentered size queue ops with
  | none => ⟨store, queue ++ ops⟩
  | some batch => ⟨applyAll store (batch.map BatchOp.exec), (queue ++ ops).drop batch.length⟩

section Behind

variable {size : JsNumber} {store : Contents D K V} {queue ops : List (BatchOp D K V)}

private theorem behind_nil : behind size store queue [] = ⟨store, queue⟩ := by
  simp [behind, reentered]

theorem behind_of_none (quiet : reentered size queue ops = none) :
    behind size store queue ops = ⟨store, queue ++ ops⟩ := by
  simp only [behind, quiet]

theorem behind_of_some (store : Contents D K V) {batch : List (BatchOp D K V)}
    (hit : reentered size queue ops = some batch) :
    ∃ pushed later, pushed ≠ [] ∧ ops = pushed ++ later ∧ batch = queue ++ pushed ∧
      behind size store queue ops = ⟨applyAll store (batch.map BatchOp.exec), later⟩ := by
  obtain ⟨pushed, later, nonempty, rfl, rfl⟩ := reentered_eq_some hit
  refine ⟨pushed, later, nonempty, rfl, rfl, ?_⟩
  simp only [behind, hit]
  rw [← List.append_assoc, List.drop_left]

/-- Once a batch has been re-entered, what is pushed later just queues up. -/
theorem behind_append (store : Contents D K V) {batch : List (BatchOp D K V)}
    (hit : reentered size queue ops = some batch) (rest : List (BatchOp D K V)) :
    behind size store queue (ops ++ rest) =
      ⟨(behind size store queue ops).contents, (behind size store queue ops).queue ++ rest⟩ := by
  have later : reentered size queue (ops ++ rest) = some batch := by
    rw [reentered_append, hit, Option.some_or]
  have le : batch.length ≤ (queue ++ ops).length := by
    obtain ⟨pushed, later, -, rfl, rfl⟩ := reentered_eq_some hit
    simp
  simp only [behind, hit, later]
  rw [← List.append_assoc, List.drop_append_of_le_length le]

end Behind

namespace Pair

/-- The operation is queued on the current environment, and nothing else happens yet. -/
def enqueueCur (op : BatchOp D K V) (pair : Pair D K V) : Pair D K V :=
  { pair with cur.queue := pair.cur.queue ++ [op] }

def enqueueOld (op : BatchOp D K V) (pair : Pair D K V) : Pair D K V :=
  { pair with old.queue := pair.old.queue ++ [op] }

section Push

variable (size : JsNumber) (flush : ℕ → Prog Error (Pair D K V)) (pair : Pair D K V)
  (op : BatchOp D K V)

omit [DecidableEq D] [DecidableEq K] in
theorem push_cur :
    push size flush (pair.epoch + 1) op pair =
      if size.reached (pair.cur.queue.length + 1) then
        flush (pair.epoch + 1) (pair.enqueueCur op)
      else .returned { pair.enqueueCur op with timer := some (pair.epoch + 1) } := by
  simp [push, setQueue, queue, enqueueCur]

omit [DecidableEq D] [DecidableEq K] in
theorem push_old :
    push size flush pair.epoch op pair =
      if size.reached (pair.old.queue.length + 1) then
        flush pair.epoch (pair.enqueueOld op)
      else .returned { pair.enqueueOld op with timer := some pair.epoch } := by
  simp [push, setQueue, queue, enqueueOld]

/-- Push the shadow of an operation, if it has one. -/
def pushShadow (env : ℕ) : Prog Error (Pair D K V) :=
  match shadow op with
  | none => .returned
  | some del => push size flush env del

omit [DecidableEq D] [DecidableEq K] in
/-- Replaying is pushing the operation again, and its shadow on the old environment. -/
theorem replayOp_eq (replayable : Replayable op) :
    replayOp size flush op pair =
      Prog.seq (push size flush (pair.epoch + 1) op) (pushShadow size flush op pair.epoch) pair := by
  rcases op with ⟨db, call, extra⟩
  obtain rfl : extra = some db := replayable
  cases call with
  | put key val => exact (congrFun (Prog.seq_return _) pair).symm
  | del key => rfl

end Push

section Flush

variable {full : Full D K V} {size : JsNumber} {flush : ℕ → Prog Error (Pair D K V)}
  {pair : Pair D K V}

theorem flushOld_full (nonempty : pair.old.queue ≠ [])
    (overflow : full pair.attempts pair.old.contents pair.old.queue = true) :
    flushOld full pair =
      .threw (if pair.asserting then .shouldNotHappend else .mdb .mapFull) pair.attempted := by
  simp only [flushOld, List.isEmpty_iff, nonempty, overflow, ↓reduceIte]

theorem flushOld_committed (nonempty : pair.old.queue ≠ [])
    (fits : full pair.attempts pair.old.contents pair.old.queue = false) :
    flushOld full pair = .returned { pair.attempted with old := pair.old.flushed } := by
  simp only [flushOld, List.isEmpty_iff, nonempty, fits, Bool.false_eq_true, ↓reduceIte]

theorem flushCurrent_empty (empty : pair.cur.queue = []) :
    flushCurrent full size flush pair = .returned pair := by
  simp only [flushCurrent, empty, List.isEmpty_nil, ↓reduceIte]

theorem flushCurrent_committed (nonempty : pair.cur.queue ≠ [])
    (fits : full pair.attempts pair.cur.contents pair.cur.queue = false) :
    flushCurrent full size flush pair =
      .returned { pair.attempted with cur := pair.cur.flushed } := by
  simp only [flushCurrent, List.isEmpty_iff, nonempty, fits, Bool.false_eq_true, ↓reduceIte]

theorem flushCurrent_full (nonempty : pair.cur.queue ≠ [])
    (overflow : full pair.attempts pair.cur.contents pair.cur.queue = true) :
    flushCurrent full size flush pair =
      Prog.seq (Prog.seq (Prog.forEach (replayOp size flush) pair.cur.queue) (flushCur flush))
        (Prog.update (setQueue (pair.epoch + 1) [])) pair.attempted.rotate := by
  simp only [flushCurrent, List.isEmpty_iff, nonempty, overflow, ↓reduceIte]
  rfl

end Flush

/-- The callee flushes old, gone and empty environments as the code does, unless the nesting is
cut off. -/
structure Unrolls (full : Full D K V) (stuck : Prop) (flush : ℕ → Prog Error (Pair D K V)) :
    Prop where
  old : ∀ pair, flush pair.epoch pair = flushOld full pair ∨
    flush pair.epoch pair = .diverged ∧ stuck
  gone : ∀ pair env, env ≠ pair.epoch + 1 → env ≠ pair.epoch →
    flush env pair = flushGone env pair ∨ flush env pair = .diverged ∧ stuck
  empty : ∀ pair, pair.cur.queue = [] → flush (pair.epoch + 1) pair = .returned pair ∨
    flush (pair.epoch + 1) pair = .diverged ∧ stuck

private theorem flush_zero_unrolls (full : Full D K V) (size : JsNumber) :
    Unrolls full True (flush full size 0) where
  old := fun _ => .inr ⟨rfl, trivial⟩
  gone := fun _ _ _ _ => .inr ⟨rfl, trivial⟩
  empty := fun _ _ => .inr ⟨rfl, trivial⟩

theorem flush_succ (full : Full D K V) (size : JsNumber) (depth : ℕ) (pair : Pair D K V) :
    flush full size (depth + 1) (pair.epoch + 1) pair =
      flushCurrent full size (flush full size depth) pair := by
  simp [flush, Prog.nest, flushBody]

theorem flush_succ_unrolls (full : Full D K V) (size : JsNumber) (stuck : Prop) (depth : ℕ) :
    Unrolls full stuck (flush full size (depth + 1)) where
  old := fun pair => .inl (by simp [flush, Prog.nest, flushBody])
  gone := fun pair env notCur notOld =>
    .inl (by simp [flush, Prog.nest, flushBody, notCur, notOld])
  empty := fun pair empty => .inl (by rw [flush_succ, flushCurrent_empty empty])

theorem flush_unrolls (full : Full D K V) (size : JsNumber) (depth : ℕ) :
    Unrolls full True (flush full size depth) := by
  cases depth with
  | zero => exact flush_zero_unrolls full size
  | succ depth => exact flush_succ_unrolls full size True depth

/-- In the middle of a replay: the new environment has collected operations, and deletes have been
pushed behind the failed queue. No batch re-entered so far has overflowed. -/
structure Replaying (full : Full D K V) (size : JsNumber) (start : Pair D K V)
    (failed cur : Generation D K V) (dels : List (BatchOp D K V)) (pair : Pair D K V) :
    Prop where
  epoch : pair.epoch = start.epoch
  rotations : pair.rotations = start.rotations
  asserting : pair.asserting = true
  gone : pair.gone = start.gone
  cur : pair.cur = cur
  old : pair.old = behind size failed.contents failed.queue dels
  fits : ∀ batch, reentered size failed.queue dels = some batch →
    ∃ attempt, full attempt failed.contents batch = false

/-- The batch re-entered by pushing the deletes can run out of space. -/
def Overflows (full : Full D K V) (size : JsNumber) (failed : Generation D K V)
    (dels : List (BatchOp D K V)) : Prop :=
  ∃ attempt batch, reentered size failed.queue dels = some batch ∧
    full attempt failed.contents batch = true

omit [DecidableEq D] [DecidableEq K] in
theorem Overflows.append {full : Full D K V} {size : JsNumber} {failed : Generation D K V}
    {dels : List (BatchOp D K V)} (overflows : Overflows full size failed dels)
    (rest : List (BatchOp D K V)) : Overflows full size failed (dels ++ rest) := by
  obtain ⟨attempt, batch, hit, overflow⟩ := overflows
  exact ⟨attempt, batch, by rw [reentered_append, hit, Option.some_or], overflow⟩

/-- The assertion of the rotated-out environment was thrown, since a re-entered batch overflowed. -/
structure Asserted (full : Full D K V) (size : JsNumber) (start : Pair D K V)
    (failed : Generation D K V) (dels : List (BatchOp D K V)) (error : Error) (pair : Pair D K V) :
    Prop where
  error : error = .shouldNotHappend
  rotations : pair.rotations = start.rotations
  overflows : Overflows full size failed dels

namespace Replaying

variable {full : Full D K V} {size : JsNumber} {flush : ℕ → Prog Error (Pair D K V)}
  {start pair : Pair D K V} {failed cur : Generation D K V} {dels : List (BatchOp D K V)}
  {stuck : Prop}

private theorem pushCur (replaying : Replaying full size start failed cur dels pair)
    (op : BatchOp D K V) (short : Unreached size (cur.queue.length + 1))
    {thrown : Error → Pair D K V → Prop} :
    (push size flush (pair.epoch + 1) op pair).Meets stuck
      (Replaying full size start failed ⟨cur.contents, cur.queue ++ [op]⟩ dels) thrown := by
  rw [push_cur, enqueueCur, replaying.cur, short (Nat.succ_pos _)]
  exact { replaying with cur := rfl }

private theorem pushOld (replaying : Replaying full size start failed cur dels pair)
    (unrolls : Unrolls full stuck flush) (short : Unreached size dels.length)
    (del : BatchOp D K V) :
    (push size flush pair.epoch del pair).Meets stuck
      (Replaying full size start failed cur (dels ++ [del]))
      (Asserted full size start failed (dels ++ [del])) := by
  rw [push_old, enqueueOld]
  have old := replaying.old
  have after := reentered_concat size failed.queue dels del
  cases hit : reentered size failed.queue dels with
  | some batch =>
    -- The failed queue has been committed already; what is left are fewer deletes than it had.
    obtain ⟨pushed, later, nonempty, rfl, rfl, equal⟩ := behind_of_some failed.contents hit
    rw [hit, Option.some_or] at after
    rw [equal] at old
    have fewer : later.length + 1 ≤ (pushed ++ later).length := by
      have := List.length_pos_iff.mpr nonempty
      rw [List.length_append]
      omega
    rw [old, short.mono fewer (Nat.succ_pos _)]
    refine { replaying with old := ?_, fits := ?_ }
    · rw [behind_append _ hit, equal]
    · intro batch hit'
      exact replaying.fits batch (hit.trans (after.symm.trans hit'))
  | none =>
    rw [hit, Option.none_or] at after
    rw [behind_of_none hit] at old
    rw [old]
    split_ifs with reached
    · rw [if_pos reached] at after
      rcases unrolls.old { pair with old := ⟨failed.contents, failed.queue ++ dels ++ [del]⟩ } with
        ran | ⟨cut, allowed⟩
      · have nonempty : failed.queue ++ dels ++ [del] ≠ [] := by simp
        rw [ran]
        cases overflow : full pair.attempts failed.contents (failed.queue ++ dels ++ [del]) with
        | true =>
          rw [flushOld_full nonempty overflow]
          exact ⟨if_pos replaying.asserting, replaying.rotations, _, _, after, overflow⟩
        | false =>
          rw [flushOld_committed nonempty overflow]
          refine { replaying with old := ?_, fits := ?_ }
          · simp [behind, after, Generation.flushed, Generation.settled]
          · intro batch hit'
            obtain rfl := Option.some.inj (after.symm.trans hit')
            exact ⟨_, overflow⟩
      · rw [cut]
        exact allowed
    · rw [if_neg reached] at after
      refine { replaying with old := ?_, fits := ?_ }
      · rw [behind_of_none after, List.append_assoc]
      · intro batch hit'
        rw [after] at hit'
        contradiction

theorem pushShadow (replaying : Replaying full size start failed cur dels pair)
    (unrolls : Unrolls full stuck flush) (short : Unreached size dels.length)
    (op : BatchOp D K V) :
    (Pair.pushShadow size flush op pair.epoch pair).Meets stuck
      (Replaying full size start failed cur (dels ++ (shadow op).toList))
      (Asserted full size start failed (dels ++ (shadow op).toList)) := by
  unfold Pair.pushShadow
  cases shadow op with
  | none =>
    rw [Option.toList_none, List.append_nil]
    exact replaying
  | some del => exact replaying.pushOld unrolls short del

theorem replayOp (replaying : Replaying full size start failed cur dels pair)
    (unrolls : Unrolls full stuck flush) {op : BatchOp D K V} (replayable : Replayable op)
    (curShort : Unreached size (cur.queue.length + 1)) (delsShort : Unreached size dels.length) :
    (Pair.replayOp size flush op pair).Meets stuck
      (Replaying full size start failed ⟨cur.contents, cur.queue ++ [op]⟩
        (dels ++ (shadow op).toList))
      (Asserted full size start failed (dels ++ (shadow op).toList)) := by
  rw [replayOp_eq size flush pair op replayable]
  refine Prog.seq_meets (replaying.pushCur op curShort) ?_
  intro next queued
  rw [replaying.epoch, ← queued.epoch]
  exact queued.pushShadow unrolls delsShort op

/-- A queue that stays short is replayed without a flush of the new environment. -/
theorem forEach {done : List (BatchOp D K V)} (unrolls : Unrolls full stuck flush)
    (ops : List (BatchOp D K V)) (replayable : ∀ op ∈ ops, Replayable op)
    (short : Unreached size (done ++ ops).length)
    (replaying : Replaying full size start failed ⟨fun _ => none, done⟩ (shadows done) pair) :
    (Prog.forEach (Pair.replayOp size flush) ops pair).Meets stuck
      (Replaying full size start failed ⟨fun _ => none, done ++ ops⟩ (shadows (done ++ ops)))
      (Asserted full size start failed (shadows (done ++ ops))) := by
  induction ops generalizing done pair with
  | nil =>
    rw [List.append_nil]
    exact replaying
  | cons op ops ih =>
    have split : done ++ op :: ops = done ++ [op] ++ ops := by simp
    have delsShort : (shadows done).length ≤ (done ++ op :: ops).length := by
      have := shadows_length_le done
      rw [List.length_append]
      omega
    have curShort : done.length + 1 ≤ (done ++ op :: ops).length := by simp
    have first := replaying.replayOp unrolls (replayable op (List.mem_cons_self ..))
      (short.mono curShort) (short.mono delsShort)
    rw [← shadows_concat] at first
    refine Prog.seq_meets (first.mono id (fun _ => id) ?_) ?_
    · rintro error next ⟨asserted, same, overflows⟩
      refine ⟨asserted, same, ?_⟩
      rw [split, shadows_append]
      exact overflows.append _
    · intro next moved
      rw [split] at short ⊢
      exact ih (fun other member => replayable other (List.mem_cons_of_mem _ member)) short moved

end Replaying

/-- At most the queue of one closed environment has changed. -/
structure OnlyGone (env : ℕ) (before next : Pair D K V) : Prop where
  epoch : next.epoch = before.epoch
  cur : next.cur = before.cur
  old : next.old = before.old
  asserting : next.asserting = before.asserting
  rotations : next.rotations = before.rotations
  gone : ∀ other ≠ env, next.gone other = before.gone other

omit [DecidableEq D] [DecidableEq K] in
private theorem setQueue_old (pair : Pair D K V) (ops : List (BatchOp D K V)) :
    pair.setQueue pair.epoch ops = { pair with old.queue := ops } := by
  simp [setQueue]

omit [DecidableEq D] [DecidableEq K] in
private theorem setQueue_gone (pair : Pair D K V) {env : ℕ} (gone : env < pair.epoch)
    (ops : List (BatchOp D K V)) : OnlyGone env pair (pair.setQueue env ops) := by
  have notCur : env ≠ pair.epoch + 1 := by omega
  have notOld : env ≠ pair.epoch := by omega
  simp only [setQueue, notCur, notOld, ↓reduceIte]
  exact ⟨rfl, rfl, rfl, rfl, rfl, fun other ne => Function.update_of_ne ne ..⟩

/-- A push on a closed environment throws once its queue reaches the batch size. -/
theorem push_gone {full : Full D K V} {stuck : Prop} {flush : ℕ → Prog Error (Pair D K V)}
    (unrolls : Unrolls full stuck flush) (size : JsNumber) (pair : Pair D K V) {env : ℕ}
    (gone : env < pair.epoch) (op : BatchOp D K V) :
    (push size flush env op pair).Meets stuck
      (fun next => size.reached ((pair.gone env).length + 1) = false ∧ OnlyGone env pair next)
      fun error next => size.reached ((pair.gone env).length + 1) = true ∧
        error = .mdb .einval ∧ OnlyGone env pair next := by
  have same := pair.setQueue_gone gone (pair.queue env ++ [op])
  have queue := (pair.queue_setQueue env (pair.queue env ++ [op]) env).trans
    (Function.update_self ..)
  have length : (pair.queue env ++ [op]).length = (pair.gone env).length + 1 := by
    rw [pair.queue_gone env gone, List.length_append, List.length_singleton]
  unfold push
  simp only [queue, length]
  split_ifs with reached
  · have notCur : env ≠ (pair.setQueue env (pair.queue env ++ [op])).epoch + 1 := by
      rw [same.epoch]
      omega
    have notOld : env ≠ (pair.setQueue env (pair.queue env ++ [op])).epoch := by
      rw [same.epoch]
      omega
    have nonempty : (pair.setQueue env (pair.queue env ++ [op])).gone env ≠ [] := by
      rw [← queue_gone _ env (same.epoch.symm ▸ gone), queue]
      simp
    rcases unrolls.gone _ env notCur notOld with ran | ⟨cut, allowed⟩
    · rw [ran, flushGone, if_neg (by simpa using nonempty)]
      exact ⟨reached, rfl, { same with }⟩
    · rw [cut]
      exact allowed
  · exact ⟨by simpa using reached, { same with }⟩

/-- The queue of the current environment can run out of space. -/
def Overfull (full : Full D K V) (store : Contents D K V) (queue : List (BatchOp D K V)) : Prop :=
  ∃ attempt, full attempt store queue = true

/-- The flush has rotated, once or several times over, and replayed the whole queue. -/
structure Rotated (full : Full D K V) (size : JsNumber) (before next : Pair D K V) : Prop where
  epoch : before.epoch < next.epoch
  asserting : next.asserting = true
  gone : ∀ env ≤ before.epoch, next.gone env = before.queue env
  overfull : Overfull full before.cur.contents before.cur.queue
  cur : next.cur = (Generation.mk (fun _ => none) before.cur.queue).flushed
  committed : ∃ attempt, full attempt (fun _ => none) before.cur.queue = false
  /-- Every rotation after the first found the same queue on an empty environment. -/
  log : ∃ again : ℕ, next.rotations = before.rotations ++
      ⟨before.cur.contents, before.cur.queue⟩ ::
        List.replicate again ⟨fun _ => none, before.cur.queue⟩ ∧
    next.old = ⟨(behind size (if again = 0 then before.cur.contents else fun _ => none)
      before.cur.queue (shadows before.cur.queue)).contents, []⟩ ∧
    (again ≠ 0 → Overfull full (fun _ => none) before.cur.queue) ∧
    ∀ batch, reentered size before.cur.queue (shadows before.cur.queue) = some batch →
      ∃ attempt, full attempt (if again = 0 then before.cur.contents else fun _ => none) batch = false

/-- A replay throws when a delete is pushed on an environment closed by an inner rotation, or when
a re-entered batch overflows. -/
inductive Thrown (full : Full D K V) (size : JsNumber) (before : Pair D K V) :
    Error → Pair D K V → Prop
  | closed {next : Pair D K V} (rotated : Rotated full size before next)
      (again : Overfull full (fun _ => none) before.cur.queue) :
      Thrown full size before (.mdb .einval) next
  | asserted {next : Pair D K V} (store : Contents D K V)
      (overfull : Overfull full before.cur.contents before.cur.queue)
      (found : store = before.cur.contents ∨
        store = (fun _ => none) ∧ Overfull full (fun _ => none) before.cur.queue)
      (logged : ⟨store, before.cur.queue⟩ ∈ next.rotations)
      (overflows : Overflows full size ⟨store, before.cur.queue⟩ (shadows before.cur.queue)) :
      Thrown full size before .shouldNotHappend next

/-- What a flush of the current environment does, if it ends. -/
def FlushSpec (full : Full D K V) (size : JsNumber) (stuck ended : Prop) (before : Pair D K V)
    (outcome : Outcome Error (Pair D K V)) : Prop :=
  outcome.Meets stuck
    (fun next => ended ∧
      (full before.attempts before.cur.contents before.cur.queue = false ∧
          next = { before.attempted with cur := before.cur.flushed } ∨
        Rotated full size before next))
    fun error next => ended ∧ Thrown full size before error next

namespace Rotated

variable {full : Full D K V} {size : JsNumber} {before next : Pair D K V}

theorem congr (rotated : Rotated full size before next) {env : ℕ} {next' : Pair D K V}
    (same : OnlyGone env next next') (later : before.epoch < env) :
    Rotated full size before next' where
  epoch := same.epoch ▸ rotated.epoch
  asserting := same.asserting.trans rotated.asserting
  gone := by
    intro other le
    rw [same.gone other (by omega)]
    exact rotated.gone other le
  overfull := rotated.overfull
  cur := same.cur.trans rotated.cur
  committed := rotated.committed
  log := by
    rw [same.rotations, same.old]
    exact rotated.log

/-- A rotation inside the replay counts for the flush that replays. -/
theorem outer {inner : Pair D K V} (rotated : Rotated full size inner next)
    (overfull : Overfull full before.cur.contents before.cur.queue)
    (epoch : inner.epoch = before.epoch + 1)
    (gone : inner.gone = Function.update before.gone before.epoch before.old.queue)
    (cur : inner.cur = ⟨fun _ => none, before.cur.queue⟩)
    (rotations : inner.rotations = before.rotations ++ [⟨before.cur.contents, before.cur.queue⟩]) :
    Rotated full size before next := by
  obtain ⟨again, log, old, -, fits⟩ := rotated.log
  have innerOverfull := rotated.overfull
  have committed := rotated.committed
  rw [cur] at log old fits innerOverfull committed
  refine ⟨?_, rotated.asserting, ?_, overfull, ?_, committed, again + 1, ?_, ?_, ?_, ?_⟩
  · have later := rotated.epoch
    omega
  · intro env le
    rw [rotated.gone env (by omega), inner.queue_gone env (by omega), gone]
    by_cases same : env = before.epoch
    · rw [same, Function.update_self, before.queue_old]
    · rw [Function.update_of_ne same, before.queue_gone env (by omega)]
  · rw [rotated.cur, cur]
  · rw [log, rotations, List.append_assoc, List.singleton_append, List.replicate_succ]
  · rw [old, ite_self, if_neg (Nat.succ_ne_zero again)]
  · exact fun _ => innerOverfull
  · intro batch hit
    rw [if_neg (Nat.succ_ne_zero again)]
    have fitting := fits batch hit
    rwa [ite_self] at fitting

end Rotated

/-- The deletes a replay has pushed behind the failed queue when it flushes the new environment:
the last operation, if it reaches the batch size, flushes before it pushes its own. -/
def replayedDels (size : JsNumber) (queue : List (BatchOp D K V)) : List (BatchOp D K V) :=
  shadows (if size.reached queue.length then queue.dropLast else queue)

section Level

variable {full : Full D K V} {size : JsNumber} {flush : ℕ → Prog Error (Pair D K V)}
  {pair : Pair D K V} {stuck ended : Prop}

omit [DecidableEq D] [DecidableEq K] in
private theorem rotate_replaying [DecidableEq D] [DecidableEq K] (full : Full D K V)
    (size : JsNumber)
    (pair : Pair D K V) :
    Replaying full size pair.attempted.rotate pair.cur ⟨fun _ => none, []⟩ (shadows [])
      pair.attempted.rotate where
  epoch := rfl
  rotations := rfl
  asserting := rfl
  gone := rfl
  cur := rfl
  old := behind_nil.symm
  fits := fun _ hit => nomatch hit

/-- The new environment has been flushed: it holds the replayed queue, or was rotated out too. -/
def Drained (full : Full D K V) (size : JsNumber) (before : Pair D K V)
    (dels : List (BatchOp D K V)) (pair : Pair D K V) : Prop :=
  Replaying full size before.attempted.rotate before.cur
      (Generation.mk (fun _ => none) before.cur.queue).flushed dels pair ∧
      (∃ attempt, full attempt (fun _ => none) before.cur.queue = false) ∨
    before.epoch + 1 < pair.epoch ∧ Rotated full size before pair ∧
      Overfull full (fun _ => none) before.cur.queue

theorem Asserted.thrown {dels rest : List (BatchOp D K V)} {error : Error} {next : Pair D K V}
    (asserted : Asserted full size pair.attempted.rotate pair.cur dels error next)
    (overfull : Overfull full pair.cur.contents pair.cur.queue)
    (all : shadows pair.cur.queue = dels ++ rest) : Thrown full size pair error next := by
  obtain ⟨rfl, rotations, overflows⟩ := asserted
  refine .asserted pair.cur.contents overfull (.inl rfl) ?_ ?_
  · rw [rotations]
    exact List.mem_append_right _ (List.mem_singleton_self _)
  · rw [all]
    exact overflows.append rest

/-- The inner flush of the replayed queue, seen from the flush that replays. -/
theorem FlushSpec.drained {inner : Pair D K V} {dels : List (BatchOp D K V)}
    {outcome : Outcome Error (Pair D K V)}
    (spec : FlushSpec full size stuck ended inner outcome)
    (overfull : Overfull full pair.cur.contents pair.cur.queue)
    (replaying : Replaying full size pair.attempted.rotate pair.cur
      ⟨fun _ => none, pair.cur.queue⟩ dels inner) :
    outcome.Meets stuck (fun next => ended ∧ Drained full size pair dels next)
      fun error next => ended ∧ Thrown full size pair error next := by
  have seen : ∀ {next : Pair D K V}, Rotated full size inner next →
      Rotated full size pair next ∧ Overfull full (fun _ => none) pair.cur.queue := by
    intro next rotated
    have innerOverfull := rotated.overfull
    rw [replaying.cur] at innerOverfull
    exact ⟨rotated.outer overfull replaying.epoch replaying.gone replaying.cur replaying.rotations,
      innerOverfull⟩
  refine Outcome.Meets.mono spec id ?_ ?_
  · rintro next ⟨ok, ⟨fits, rfl⟩ | rotated⟩
    · rw [replaying.cur] at fits
      refine ⟨ok, .inl ⟨{ replaying with cur := ?_ }, _, fits⟩⟩
      rw [replaying.cur]
    · have later : pair.epoch + 1 < next.epoch := replaying.epoch.symm.trans_lt rotated.epoch
      exact ⟨ok, .inr ⟨later, seen rotated⟩⟩
  · rintro error next ⟨ok, thrown⟩
    refine ⟨ok, ?_⟩
    cases thrown with
    | closed rotated again => exact .closed (seen rotated).1 (seen rotated).2
    | asserted store innerOverfull found logged overflows =>
      rw [replaying.cur] at innerOverfull found logged overflows
      have onEmpty : store = fun _ => none := by
        rcases found with same | ⟨same, -⟩ <;> exact same
      exact .asserted store overfull (.inr ⟨onEmpty, innerOverfull⟩) logged overflows

/-- Clearing the queue of the environment that ran full. -/
theorem Drained.clear {next : Pair D K V}
    (drained : Drained full size pair (shadows pair.cur.queue) next)
    (overfull : Overfull full pair.cur.contents pair.cur.queue) :
    Rotated full size pair (next.setQueue (pair.epoch + 1) []) := by
  rcases drained with ⟨replaying, committed⟩ | ⟨later, rotated, -⟩
  · have epoch : next.epoch = pair.epoch + 1 := replaying.epoch
    rw [← epoch, setQueue_old]
    refine ⟨?_, replaying.asserting, ?_, overfull, replaying.cur, committed, 0,
      replaying.rotations, ?_, fun again => absurd rfl again, replaying.fits⟩
    · exact epoch ▸ Nat.lt_succ_self _
    · intro env le
      rw [replaying.gone]
      change Function.update pair.gone pair.epoch pair.old.queue env = pair.queue env
      by_cases same : env = pair.epoch
      · rw [same, Function.update_self, pair.queue_old]
      · rw [Function.update_of_ne same, pair.queue_gone env (by omega)]
    · simp only [replaying.old, ↓reduceIte]
  · exact rotated.congr (next.setQueue_gone later []) (Nat.lt_succ_self _)

/-- A queue below the batch size is replayed as a whole and then flushed. -/
theorem replay_short (unrolls : Unrolls full stuck flush)
    (replayable : ∀ op ∈ pair.cur.queue, Replayable op)
    (short : Unreached size pair.cur.queue.length)
    (overfull : Overfull full pair.cur.contents pair.cur.queue)
    (asserted : Overflows full size pair.cur (shadows pair.cur.queue) → ended)
    (inner : ∀ inner, Replaying full size pair.attempted.rotate pair.cur
        ⟨fun _ => none, pair.cur.queue⟩ (shadows pair.cur.queue) inner →
      FlushSpec full size stuck ended inner (flush (inner.epoch + 1) inner)) :
    (Prog.seq (Prog.forEach (replayOp size flush) pair.cur.queue) (flushCur flush)
        pair.attempted.rotate).Meets stuck
      (fun next => ended ∧ Drained full size pair (shadows pair.cur.queue) next)
      fun error next => ended ∧ Thrown full size pair error next := by
  have loop := (rotate_replaying full size pair).forEach unrolls pair.cur.queue replayable short
  refine Prog.seq_meets (loop.mono id (fun _ => id) ?_) ?_
  · intro error next thrown
    exact ⟨asserted thrown.overflows, thrown.thrown overfull (List.append_nil _).symm⟩
  · intro next replaying
    exact (inner next replaying).drained overfull replaying

/-- The delete of the last operation, after that operation has flushed the new environment. -/
theorem Drained.pushShadow {next : Pair D K V} {front : List (BatchOp D K V)}
    {last : BatchOp D K V} (drained : Drained full size pair (shadows front) next)
    (split : pair.cur.queue = front ++ [last]) (unrolls : Unrolls full stuck flush)
    (short : Unreached size front.length)
    (overfull : Overfull full pair.cur.contents pair.cur.queue) :
    (Pair.pushShadow size flush last (pair.epoch + 1) next).Meets stuck
      (Drained full size pair (shadows pair.cur.queue)) (Thrown full size pair) := by
  have all : shadows pair.cur.queue = shadows front ++ (shadow last).toList := by
    rw [split, shadows_concat]
  rcases drained with ⟨replaying, committed⟩ | ⟨later, rotated, again⟩
  · have pushed := replaying.pushShadow unrolls (short.mono (shadows_length_le front)) last
    rw [replaying.epoch, ← all] at pushed
    refine pushed.mono id (fun _ queued => .inl ⟨queued, committed⟩) ?_
    intro error thrown asserted
    exact asserted.thrown overfull (List.append_nil _).symm
  · unfold Pair.pushShadow
    cases shadow last with
    | none => exact .inr ⟨later, rotated, again⟩
    | some del =>
      refine (push_gone unrolls size next later del).mono id ?_ ?_
      · rintro pushed ⟨-, same⟩
        exact .inr ⟨same.epoch ▸ later, rotated.congr same (Nat.lt_succ_self _), again⟩
      · rintro error pushed ⟨-, rfl, same⟩
        exact .closed (rotated.congr same (Nat.lt_succ_self _)) again

/-- The last flush of the replay finds the new environment flushed already. -/
theorem Drained.flushCur {next : Pair D K V} {dels : List (BatchOp D K V)}
    (drained : Drained full size pair dels next) (unrolls : Unrolls full stuck flush)
    {thrown : Error → Pair D K V → Prop} :
    (Pair.flushCur flush next).Meets stuck (Drained full size pair dels) thrown := by
  have empty : next.cur.queue = [] := by
    rcases drained with ⟨replaying, -⟩ | ⟨-, rotated, -⟩
    · rw [replaying.cur]; rfl
    · rw [rotated.cur]; rfl
  unfold Pair.flushCur
  rcases unrolls.empty next empty with ran | ⟨cut, allowed⟩
  · rw [ran]
    exact drained
  · rw [cut]
    exact allowed

/-- A queue whose last operation reaches the batch size is flushed by that operation. -/
theorem replay_reached (unrolls : Unrolls full stuck flush)
    (replayable : ∀ op ∈ pair.cur.queue, Replayable op) {front : List (BatchOp D K V)}
    {last : BatchOp D K V} (split : pair.cur.queue = front ++ [last])
    (short : Unreached size front.length) (hit : size.reached pair.cur.queue.length = true)
    (overfull : Overfull full pair.cur.contents pair.cur.queue)
    (asserted : Overflows full size pair.cur (shadows front) → ended)
    (inner : ∀ inner, Replaying full size pair.attempted.rotate pair.cur
        ⟨fun _ => none, pair.cur.queue⟩ (shadows front) inner →
      FlushSpec full size stuck ended inner (flush (inner.epoch + 1) inner)) :
    (Prog.seq (Prog.forEach (replayOp size flush) pair.cur.queue) (flushCur flush)
        pair.attempted.rotate).Meets stuck
      (fun next => ended ∧ Drained full size pair (shadows pair.cur.queue) next)
      fun error next => ended ∧ Thrown full size pair error next := by
  have all : shadows pair.cur.queue = shadows front ++ (shadow last).toList := by
    rw [split, shadows_concat]
  have frontReplayable : ∀ op ∈ front, Replayable op :=
    fun op member => replayable op (split ▸ List.mem_append_left _ member)
  have lastReplayable : Replayable last :=
    replayable last (split ▸ List.mem_append_right _ (List.mem_singleton_self _))
  have loop := (rotate_replaying full size pair).forEach unrolls front frontReplayable short
  have program : Prog.forEach (replayOp size flush) pair.cur.queue =
      Prog.seq (Prog.forEach (replayOp size flush) front) (replayOp size flush last) := by
    rw [split, Prog.forEach_append, Prog.forEach_singleton]
  rw [program, Prog.seq_assoc]
  refine Prog.seq_meets (loop.mono id (fun _ => id) ?_) ?_
  · intro error next thrown
    exact ⟨asserted thrown.overflows, thrown.thrown overfull all⟩
  · intro next replaying
    have triggered : size.reached (next.cur.queue.length + 1) = true := by
      rw [replaying.cur]
      simpa [split] using hit
    have queued : Replaying full size pair.attempted.rotate pair.cur
        ⟨fun _ => none, pair.cur.queue⟩ (shadows front) (next.enqueueCur last) := by
      refine { replaying with cur := ?_ }
      rw [enqueueCur, replaying.cur, split]
      rfl
    have pushed : (push size flush (next.epoch + 1) last next).Meets stuck
        (fun next => ended ∧ Drained full size pair (shadows front) next)
        fun error next => ended ∧ Thrown full size pair error next := by
      rw [push_cur, if_pos triggered]
      exact (inner _ queued).drained overfull queued
    have replayed : (replayOp size flush last next).Meets stuck
        (fun next => ended ∧ Drained full size pair (shadows pair.cur.queue) next)
        fun error next => ended ∧ Thrown full size pair error next := by
      rw [replayOp_eq size flush next last lastReplayable]
      refine Prog.seq_meets pushed ?_
      rintro drained ⟨ok, holds⟩
      rw [replaying.epoch]
      exact (holds.pushShadow split unrolls short overfull).mono id (fun _ => .intro ok)
        (fun _ _ => .intro ok)
    refine Prog.seq_meets replayed ?_
    rintro drained ⟨ok, holds⟩
    exact (holds.flushCur unrolls).mono id (fun _ => .intro ok) (fun _ _ => id)

/-- One level of the recursion: a flush that runs full meets the specification, if the flush it
makes of the replayed queue does. -/
theorem flushCurrent_level (unrolls : Unrolls full stuck flush)
    (replayable : ∀ op ∈ pair.cur.queue, Replayable op) (tight : Tight size pair.cur.queue)
    (nonempty : pair.cur.queue ≠ [])
    (overflow : full pair.attempts pair.cur.contents pair.cur.queue = true)
    (asserted : Overflows full size pair.cur (replayedDels size pair.cur.queue) → ended)
    (inner : ∀ inner, Replaying full size pair.attempted.rotate pair.cur
        ⟨fun _ => none, pair.cur.queue⟩ (replayedDels size pair.cur.queue) inner →
      FlushSpec full size stuck ended inner (flush (inner.epoch + 1) inner)) :
    FlushSpec full size stuck ended pair (flushCurrent full size flush pair) := by
  have replayed : (Prog.seq (Prog.forEach (replayOp size flush) pair.cur.queue) (flushCur flush)
        pair.attempted.rotate).Meets stuck
      (fun next => ended ∧ Drained full size pair (shadows pair.cur.queue) next)
      fun error next => ended ∧ Thrown full size pair error next := by
    unfold replayedDels at asserted inner
    cases hit : size.reached pair.cur.queue.length with
    | false =>
      rw [hit] at asserted inner
      exact replay_short unrolls replayable (fun _ => hit) ⟨_, overflow⟩ asserted inner
    | true =>
      rw [hit] at asserted inner
      have split := (List.dropLast_append_getLast nonempty).symm
      have short : Unreached size pair.cur.queue.dropLast.length := by
        rw [List.length_dropLast]
        exact tight
      exact replay_reached unrolls replayable split short hit ⟨_, overflow⟩ asserted inner
  rw [flushCurrent_full nonempty overflow]
  refine Prog.seq_meets replayed ?_
  rintro next ⟨ok, drained⟩
  exact ⟨ok, .inr (drained.clear ⟨_, overflow⟩)⟩

/-- Every flush of a tight queue, at any depth, meets the specification. -/
theorem flush_spec (full : Full D K V) (size : JsNumber) (depth : ℕ) (pair : Pair D K V)
    (replayable : ∀ op ∈ pair.cur.queue, Replayable op) (tight : Tight size pair.cur.queue)
    (nonempty : pair.cur.queue ≠ []) :
    FlushSpec full size True True pair (Pair.flush full size depth (pair.epoch + 1) pair) := by
  induction depth generalizing pair with
  | zero => trivial
  | succ depth ih =>
    rw [flush_succ]
    cases overflow : full pair.attempts pair.cur.contents pair.cur.queue with
    | false =>
      rw [flushCurrent_committed nonempty overflow]
      exact ⟨trivial, .inl ⟨overflow, rfl⟩⟩
    | true =>
      refine flushCurrent_level (flush_unrolls full size depth) replayable tight nonempty overflow
        (fun _ => trivial) ?_
      intro inner replaying
      refine ih inner ?_ ?_ ?_ <;> rw [replaying.cur]
      · exact replayable
      · exact tight
      · exact nonempty

end Level

end Pair

end NodeKv.Cache
