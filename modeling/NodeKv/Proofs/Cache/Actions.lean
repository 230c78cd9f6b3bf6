import NodeKv.Proofs.Cache.Replay

/-! # The calls an action is made of

Every action of the cache pushes on or flushes the current environment, then the old one. Each of
these calls has one specification here. A call on the current environment keeps the settled
contents of both generations or rotates; a call on the old one always keeps them, even when it
throws; a call on a closed environment changes neither.
-/

namespace NodeKv.Cache

namespace Pair

open Machine Lmdb

variable {D K V : Type*} [DecidableEq D] [DecidableEq K]

/-- What holds of the current queue between calls. -/
structure Ready (size : JsNumber) (pair : Pair D K V) : Prop where
  replayable : ∀ op ∈ pair.cur.queue, Replayable op
  short : Unreached size pair.cur.queue.length

/-- A call on the current environment that did not rotate. -/
structure KeptCur (before next : Pair D K V) : Prop where
  epoch : next.epoch = before.epoch
  old : next.old = before.old
  rotations : next.rotations = before.rotations
  settled : next.cur.settled = before.cur.settled

/-- A call on the old environment. -/
structure KeptOld (before next : Pair D K V) : Prop where
  epoch : next.epoch = before.epoch
  cur : next.cur = before.cur
  rotations : next.rotations = before.rotations
  settled : next.old.settled = before.old.settled
  queue : next.old.queue = before.old.queue ∨ next.old.queue = []

variable {full : Full D K V} {size : JsNumber} {pair : Pair D K V}

omit [DecidableEq D] [DecidableEq K] in
theorem Ready.of_empty (empty : pair.cur.queue = []) : Ready size pair where
  replayable := by simp [empty]
  short := by simp [empty, Unreached]

theorem Rotated.ready {before : Pair D K V} (rotated : Rotated full size before pair) :
    Ready size pair :=
  .of_empty (by rw [rotated.cur]; rfl)

theorem Rotated.old_queue {before : Pair D K V} (rotated : Rotated full size before pair) :
    pair.old.queue = [] := by
  obtain ⟨again, -, old, -⟩ := rotated.log
  rw [old]

/-- A flush of the current environment. -/
theorem flushCur_meets (full : Full D K V) (depth : ℕ) (pair : Pair D K V)
    (replayable : ∀ op ∈ pair.cur.queue, Replayable op) (tight : Tight size pair.cur.queue) :
    (flush full size depth (pair.epoch + 1) pair).Meets True
      (fun next => next.cur.queue = [] ∧ (KeptCur pair next ∨ Rotated full size pair next))
      (Thrown full size pair) := by
  by_cases empty : pair.cur.queue = []
  · rcases (flush_unrolls full size depth).empty pair empty with ran | ⟨cut, -⟩
    · rw [ran]
      exact ⟨empty, .inl ⟨rfl, rfl, rfl, rfl⟩⟩
    · rw [cut]
      trivial
  · refine (flush_spec full size depth pair replayable tight empty).mono id ?_ (fun _ _ => And.right)
    rintro next ⟨-, ⟨-, rfl⟩ | rotated⟩
    · exact ⟨rfl, .inl ⟨rfl, rfl, rfl, rfl⟩⟩
    · exact ⟨by rw [rotated.cur]; rfl, .inr rotated⟩

omit [DecidableEq D] [DecidableEq K] in
theorem Ready.replayable_concat (ready : Ready size pair) (op : BatchOp D K V)
    (replayable : Replayable op) : ∀ other ∈ pair.cur.queue ++ [op], Replayable other := by
  intro other member
  rcases List.mem_append.mp member with before | last
  · exact ready.replayable other before
  · exact List.mem_singleton.mp last ▸ replayable

/-- A push on the current environment. -/
theorem pushCur_meets (full : Full D K V) (depth : ℕ) (ready : Ready size pair)
    (op : BatchOp D K V) (replayable : Replayable op) :
    (push size (flush full size depth) (pair.epoch + 1) op pair).Meets True
      (fun next => Ready size next ∧
        (KeptCur (pair.enqueueCur op) next ∨ Rotated full size (pair.enqueueCur op) next))
      (Thrown full size (pair.enqueueCur op)) := by
  have all := ready.replayable_concat op replayable
  rw [push_cur]
  split_ifs with reached
  · have tight : Tight size (pair.cur.queue ++ [op]) := by
      unfold Tight
      rw [List.length_append, List.length_singleton, Nat.add_sub_cancel]
      exact ready.short
    have flushed := flushCur_meets full depth (pair.enqueueCur op) all tight
    exact flushed.mono id (fun next ended => ⟨.of_empty ended.1, ended.2⟩) (fun _ _ => id)
  · refine ⟨⟨all, fun _ => ?_⟩, .inl ⟨rfl, rfl, rfl, rfl⟩⟩
    simpa [enqueueCur] using reached

/-- A flush of the old environment; it throws only for lack of space. -/
theorem flushOld_meets (full : Full D K V) (depth : ℕ) (pair : Pair D K V) :
    (flush full size depth pair.epoch pair).Meets True
      (fun next => next.old.queue = [] ∧ KeptOld pair next)
      fun _ next => KeptOld pair next ∧
        full pair.attempts pair.old.contents pair.old.queue = true := by
  rcases (flush_unrolls full size depth).old pair with ran | ⟨cut, -⟩
  · rw [ran]
    by_cases empty : pair.old.queue = []
    · simp only [flushOld, empty, List.isEmpty_nil, ↓reduceIte]
      exact ⟨empty, rfl, rfl, rfl, rfl, .inl rfl⟩
    · cases overflow : full pair.attempts pair.old.contents pair.old.queue with
      | true =>
        rw [flushOld_full empty overflow]
        exact ⟨⟨rfl, rfl, rfl, rfl, .inl rfl⟩, rfl⟩
      | false =>
        rw [flushOld_committed empty overflow]
        exact ⟨rfl, rfl, rfl, rfl, rfl, .inr rfl⟩
  · rw [cut]
    trivial

/-- A push on the old environment. -/
theorem pushOld_meets (full : Full D K V) (depth : ℕ) (pair : Pair D K V) (op : BatchOp D K V) :
    (push size (flush full size depth) pair.epoch op pair).Meets True
      (KeptOld (pair.enqueueOld op))
      fun _ next => KeptOld (pair.enqueueOld op) next ∧
        full pair.attempts pair.old.contents (pair.old.queue ++ [op]) = true := by
  rw [push_old]
  split_ifs with reached
  · exact (flushOld_meets full depth (pair.enqueueOld op)).mono id (fun _ => And.right)
      (fun _ _ => id)
  · exact ⟨rfl, rfl, rfl, rfl, .inl rfl⟩

/-- A flush of a closed environment. -/
theorem flushGone_meets (full : Full D K V) (depth : ℕ) (pair : Pair D K V) {env : ℕ}
    (notCur : env ≠ pair.epoch + 1) (notOld : env ≠ pair.epoch) :
    (flush full size depth env pair).Meets True (OnlyGone env pair)
      fun error next => error = .mdb .einval ∧ OnlyGone env pair next := by
  rcases (flush_unrolls full size depth).gone pair env notCur notOld with ran | ⟨cut, -⟩
  · rw [ran, flushGone]
    split_ifs
    · exact ⟨rfl, rfl, rfl, rfl, rfl, fun _ _ => rfl⟩
    · exact ⟨rfl, rfl, rfl, rfl, rfl, rfl, fun _ _ => rfl⟩
  · rw [cut]
    trivial

/-- The record of rotations only grows. -/
def Logs (before next : Pair D K V) : Prop := before.rotations <+: next.rotations

omit [DecidableEq D] [DecidableEq K] in
theorem Logs.trans (first second third : Pair D K V) (left : Logs first second)
    (right : Logs second third) : Logs first third :=
  List.IsPrefix.trans left right

omit [DecidableEq D] [DecidableEq K] in
theorem Logs.of_eq {before next : Pair D K V} (same : next.rotations = before.rotations) :
    Logs before next := by
  rw [Logs, same]

omit [DecidableEq D] [DecidableEq K] in
private theorem push_logs {flush : ℕ → Prog Error (Pair D K V)}
    (kept : ∀ env, Prog.Keeps Logs (flush env)) (env : ℕ) (op : BatchOp D K V) :
    Prog.Keeps Logs (push size flush env op) := by
  intro pair
  have queued : Logs pair (pair.setQueue env (pair.queue env ++ [op])) := .of_eq (by simp)
  unfold push
  simp only
  split_ifs
  · exact (kept env _).mono id (fun _ => queued.trans _ _ _) (fun _ _ => queued.trans _ _ _)
  · exact .of_eq (by simp)

omit [DecidableEq D] [DecidableEq K] in
private theorem replayOp_logs (size : JsNumber) {flush : ℕ → Prog Error (Pair D K V)}
    (kept : ∀ env, Prog.Keeps Logs (flush env)) (op : BatchOp D K V) :
    Prog.Keeps Logs (replayOp size flush op) := by
  intro pair
  rcases op with ⟨db, call, extra⟩
  rcases extra with none | extra
  · exact .of_eq rfl
  · cases call with
    | put key val => exact push_logs kept _ _ pair
    | del key => exact Prog.Keeps.seq Logs.trans (push_logs kept _ _) (push_logs kept _ _) pair

private theorem flush_logs (full : Full D K V) (size : JsNumber) (depth env : ℕ) :
    Prog.Keeps Logs (flush full size depth env) := by
  refine Prog.nest_keeps ?_ depth env
  intro callee kept env pair
  unfold flushBody
  split_ifs
  · unfold flushCurrent
    split_ifs
    · exact .of_eq rfl
    · have started : Logs pair pair.attempted := .of_eq rfl
      have rotated : Prog.Keeps Logs (Prog.update rotate : Prog Error (Pair D K V)) :=
        Prog.Keeps.update fun before => List.prefix_append _ _
      have cleared : Prog.Keeps Logs
          (Prog.update (setQueue (pair.epoch + 1) []) : Prog Error (Pair D K V)) :=
        Prog.Keeps.update fun before => .of_eq (by simp)
      have replayed := Prog.Keeps.forEach (fun _ => .of_eq rfl) Logs.trans
        (replayOp_logs size kept) pair.cur.queue
      have flushed : Prog.Keeps Logs (flushCur callee) := fun before => kept _ before
      have whole := Prog.Keeps.seq Logs.trans (Prog.Keeps.seq Logs.trans rotated
        (Prog.Keeps.seq Logs.trans replayed flushed)) cleared
      exact (whole pair.attempted).mono id (fun _ => started.trans _ _ _)
        (fun _ _ => started.trans _ _ _)
    · exact .of_eq rfl
  · unfold flushOld
    split_ifs <;> exact .of_eq rfl
  · unfold flushGone
    split_ifs <;> exact .of_eq rfl

theorem act_logs (full : Full D K V) (size : JsNumber) (depth : ℕ) (action : Action D K V) :
    Prog.Keeps Logs (act full size depth action) := by
  have kept := flush_logs full size depth
  intro pair
  cases action with
  | put db key val => exact push_logs kept _ _ pair
  | del db key => exact Prog.Keeps.seq Logs.trans (push_logs kept _ _) (push_logs kept _ _) pair
  | flushBatchOps =>
    exact Prog.Keeps.seq Logs.trans (fun before => kept _ before) (fun before => kept _ before) pair
  | fire =>
    simp only [act, fire]
    split
    · exact .of_eq rfl
    · exact kept _ _

end Pair

/-- An invariant that is only kept while the rotations are all of a kind. -/
theorem preserves_while {D K V : Type*} [DecidableEq D] [DecidableEq K] {full : Full D K V}
    {size : JsNumber} {cur old : Contents D K V} {actions : List (Action D K V)}
    {state : State D K V} (run : Run full (opened size cur old) actions state)
    (kind : Rotation D K V → Prop) (invariant : List (Action D K V) → Pair D K V → Prop)
    (start : invariant [] (Pair.opened cur old))
    (step : ∀ actions pair action depth next, invariant actions pair →
      (Pair.act full size depth action pair).state? = some next →
      (∀ rotation ∈ next.rotations, kind rotation) → invariant (actions ++ [action]) next) :
    ∃ pair, Refines size state pair ∧
      ((∀ rotation ∈ pair.rotations, kind rotation) → invariant actions pair) := by
  refine preserves_pair run (fun actions pair =>
    (∀ rotation ∈ pair.rotations, kind rotation) → invariant actions pair) (fun _ => start) ?_
  intro actions pair action depth next holds acted all
  have grown := (Pair.act_logs full size depth action pair).state? acted
  refine step actions pair action depth next (holds ?_) acted all
  intro rotation member
  exact all rotation (grown.subset member)

end NodeKv.Cache
