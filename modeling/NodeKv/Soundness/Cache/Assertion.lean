import NodeKv.Proofs.Cache.Actions

/-! # The handler of a rotated-out environment

`_rotate` replaces the `onfull` of the environment it rotates out by a function that throws
`This should not happend.`. The replay that follows pushes its deletes behind the failed queue,
which that environment still holds, and a size-triggered flush there runs the failed operations
once more. The handler stays unreachable in every run in which each such re-entered batch fits, and
then every rotation replays its queue to the end.
-/

namespace NodeKv.Cache

open Machine Lmdb

variable {D K V : Type*}

/-- The batch that the replay re-enters on the rotated-out environment, if any, fits there. -/
def Rotation.Fits (full : Full D K V) (size : JsNumber) (rotation : Rotation D K V) : Prop :=
  ∀ batch, reentered size rotation.ops (shadows rotation.ops) = some batch →
    ∀ attempt, full attempt rotation.committed batch = false

/-- A batch of deletes alone never runs out of space. -/
def DeletesFit (full : Full D K V) : Prop :=
  ∀ attempt store batch, (∀ op ∈ batch, op.call.isDel = true) → full attempt store batch = false

variable [DecidableEq D] [DecidableEq K]

namespace Pair

/-- Between actions the old queue holds deletes alone. -/
structure Calm (size : JsNumber) (pair : Pair D K V) : Prop extends Ready size pair where
  dels : ∀ op ∈ pair.old.queue, op.call.isDel = true

/-- If there was a rotation, the current environment holds what the last one had to replay. -/
def Replayed (before next : Pair D K V) : Prop :=
  next.rotations = before.rotations ∨
    ∃ rotation, next.rotations.getLast? = some rotation ∧
      next.cur = (Generation.mk (fun _ => none) rotation.ops).flushed

variable {full : Full D K V} {size : JsNumber} {pair next : Pair D K V}

theorem Rotated.replayed (rotated : Rotated full size pair next) : Replayed pair next := by
  obtain ⟨again, log, -⟩ := rotated.log
  refine .inr ?_
  rw [log, rotated.cur, List.getLast?_append_of_ne_nil _ (List.cons_ne_nil _ _)]
  cases again with
  | zero => exact ⟨⟨pair.cur.contents, pair.cur.queue⟩, rfl, rfl⟩
  | succ again =>
    refine ⟨⟨fun _ => none, pair.cur.queue⟩, ?_, rfl⟩
    rw [List.replicate_succ', ← List.cons_append, List.getLast?_concat]

/-- A call on the current environment leaves the deletes of the old queue alone or drops it. -/
theorem calm_of_cur (moved : KeptCur pair next ∨ Rotated full size pair next)
    (ready : Ready size next)
    (dels : ∀ op ∈ pair.old.queue, op.call.isDel = true) :
    Calm size next ∧ Replayed pair next := by
  rcases moved with kept | rotated
  · exact ⟨⟨ready, kept.old ▸ dels⟩, .inl kept.rotations⟩
  · exact ⟨⟨ready, by simp [rotated.old_queue]⟩, rotated.replayed⟩

private theorem calm_of_thrown {error : Error} (thrown : Thrown full size pair error next)
    (fits : ∀ rotation ∈ next.rotations, rotation.Fits full size) :
    error ≠ .shouldNotHappend ∧ Calm size next ∧ Replayed pair next := by
  cases thrown with
  | closed rotated again =>
    exact ⟨by simp, ⟨rotated.ready, by simp [rotated.old_queue]⟩, rotated.replayed⟩
  | asserted store overfull found logged overflows =>
    obtain ⟨attempt, batch, hit, overflow⟩ := overflows
    have fitting := fits _ logged batch hit attempt
    rw [overflow] at fitting
    contradiction

private theorem calm_of_old (kept : KeptOld pair next) (ready : Ready size pair)
    (dels : ∀ op ∈ pair.old.queue, op.call.isDel = true) : Calm size next where
  replayable := kept.cur ▸ ready.replayable
  short := kept.cur ▸ ready.short
  dels := by
    rcases kept.queue with same | empty
    · rw [same]
      exact dels
    · simp [empty]

omit [DecidableEq D] [DecidableEq K] in
private theorem calm_of_gone (calm : Calm size pair) {env : ℕ} (same : OnlyGone env pair next) :
    Calm size next where
  replayable := same.cur ▸ calm.replayable
  short := same.cur ▸ calm.short
  dels := same.old ▸ calm.dels

theorem Replayed.congr {after : Pair D K V} (replayed : Replayed pair next)
    (rotations : after.rotations = next.rotations) (cur : after.cur = next.cur) :
    Replayed pair after := by
  rw [Replayed, rotations, cur]
  exact replayed

omit [DecidableEq D] [DecidableEq K] in
private theorem opened_calm (size : JsNumber) (cur old : Contents D K V) :
    Calm size (opened cur old) where
  toReady := .of_empty rfl
  dels := by simp [opened]

private theorem del_calm (deletesFit : DeletesFit full) (calm : Calm size pair) (depth : ℕ) (db : D)
    (key : K) :
    (del size (flush full size depth) db key pair).Meets True
      (fun next => Calm size next ∧ Replayed pair next)
      fun error next => (∀ rotation ∈ next.rotations, rotation.Fits full size) →
        error ≠ .shouldNotHappend ∧ Calm size next ∧ Replayed pair next := by
  refine Prog.seq_meets
    ((pushCur_meets full depth calm.toReady ⟨db, .del key, some db⟩ rfl).mono id (fun _ => id)
    fun _ _ => calm_of_thrown) ?_
  rintro next ⟨ready, moved⟩
  obtain ⟨nextCalm, replayed⟩ := calm_of_cur moved ready calm.dels
  rcases moved with kept | rotated
  · -- No rotation: the second delete goes behind the deletes of the old queue.
    have dels : ∀ op ∈ next.old.queue ++ [⟨db, .del key, none⟩], op.call.isDel = true := by
      intro op member
      rcases List.mem_append.mp member with before | last
      · exact nextCalm.dels op before
      · rw [List.mem_singleton.mp last]
        rfl
    have epoch : next.epoch = pair.epoch := kept.epoch
    rw [← epoch]
    refine (pushOld_meets full depth next ⟨db, .del key, none⟩).mono id ?_ ?_
    · intro after keptOld
      exact ⟨calm_of_old keptOld { ready with } dels, replayed.congr keptOld.rotations keptOld.cur⟩
    · rintro error after ⟨-, overflow⟩
      rw [deletesFit _ _ _ dels] at overflow
      contradiction
  · refine (push_gone (flush_unrolls full size depth) size next rotated.epoch _).mono id ?_ ?_
    · rintro after ⟨-, same⟩
      exact ⟨calm_of_gone nextCalm same, replayed.congr same.rotations same.cur⟩
    · rintro error after ⟨-, rfl, same⟩ -
      exact ⟨by simp, calm_of_gone nextCalm same, replayed.congr same.rotations same.cur⟩

private theorem flushCur_calm (calm : Calm size pair) (depth : ℕ) :
    (flush full size depth (pair.epoch + 1) pair).Meets True
      (fun next => Calm size next ∧ Replayed pair next)
      fun error next => (∀ rotation ∈ next.rotations, rotation.Fits full size) →
        error ≠ .shouldNotHappend ∧ Calm size next ∧ Replayed pair next :=
  (flushCur_meets full depth pair calm.replayable (calm.short.mono (Nat.sub_le _ _))).mono id
    (fun _ ended => calm_of_cur ended.2 (.of_empty ended.1) calm.dels) fun _ _ => calm_of_thrown

/-- A flush of the old environment does not throw: its queue holds deletes alone. -/
theorem flushOld_calm (deletesFit : DeletesFit full) (calm : Calm size pair) (depth : ℕ) :
    (flush full size depth pair.epoch pair).Meets True
      (fun next => Calm size next ∧ next.rotations = pair.rotations) fun _ _ => False := by
  refine (flushOld_meets full depth pair).mono id ?_ ?_
  · rintro next ⟨-, kept⟩
    exact ⟨calm_of_old kept calm.toReady calm.dels, kept.rotations⟩
  · rintro error next ⟨-, overflow⟩
    rw [deletesFit _ _ _ calm.dels] at overflow
    contradiction

/-- What one action preserves. Only a re-entered batch without room can reach the handler. -/
theorem act_calm (deletesFit : DeletesFit full) (calm : Calm size pair) (depth : ℕ)
    (action : Action D K V) :
    (act full size depth action pair).Meets True
      (fun next => Calm size next ∧ Replayed pair next)
      fun error next => (∀ rotation ∈ next.rotations, rotation.Fits full size) →
        error ≠ .shouldNotHappend ∧ Calm size next ∧ Replayed pair next := by
  cases action with
  | put db key val =>
    refine (pushCur_meets full depth calm.toReady ⟨db, .put key val, some db⟩ rfl).mono id ?_
      fun _ _ => calm_of_thrown
    rintro next ⟨ready, moved⟩
    obtain ⟨nextCalm, replayed⟩ := calm_of_cur moved ready calm.dels
    exact ⟨nextCalm, replayed⟩
  | del db key => exact del_calm deletesFit calm depth db key
  | flushBatchOps =>
    refine Prog.seq_meets
      ((flushOld_calm deletesFit calm depth).mono id (fun _ => id) fun _ _ => False.elim) ?_
    rintro next ⟨nextCalm, same⟩
    have flushed : (flush full size depth (next.epoch + 1) next).Meets _ _ _ :=
      flushCur_calm nextCalm depth
    simp only [Replayed, same] at flushed
    exact flushed
  | fire =>
    simp only [act, fire]
    cases pair.timer with
    | none => exact ⟨calm, .inl rfl⟩
    | some env =>
      have disarmed : Calm size { pair with timer := none } := { calm with }
      by_cases cur : env = pair.epoch + 1
      · subst cur
        exact flushCur_calm disarmed depth
      by_cases old : env = pair.epoch
      · subst old
        exact (flushOld_calm deletesFit disarmed depth).mono id
          (fun _ ended => ⟨ended.1, .inl ended.2⟩) fun _ _ => False.elim
      · refine (flushGone_meets full depth { pair with timer := none } cur old).mono id ?_ ?_
        · intro next same
          exact ⟨calm_of_gone disarmed same, .inl same.rotations⟩
        · rintro error next ⟨rfl, same⟩ -
          exact ⟨by simp, calm_of_gone disarmed same, .inl same.rotations⟩

private theorem calm_of_ended (deletesFit : DeletesFit full) (calm : Calm size pair) {depth : ℕ}
    {action : Action D K V} (ended : (act full size depth action pair).state? = some next)
    (fits : ∀ rotation ∈ next.rotations, rotation.Fits full size) :
    (act full size depth action pair).error? ≠ some .shouldNotHappend ∧ Calm size next ∧
      Replayed pair next := by
  have spec := act_calm deletesFit calm depth action
  generalize act full size depth action pair = outcome at spec ended
  cases outcome with
  | returned reached =>
    obtain rfl := Option.some.inj ended
    exact ⟨by simp [Outcome.error?], spec⟩
  | threw error reached =>
    obtain rfl := Option.some.inj ended
    obtain ⟨other, held⟩ := spec fits
    exact ⟨by simpa [Outcome.error?] using other, held⟩
  | diverged => contradiction

end Pair

omit [DecidableEq K] in
private theorem roomForOne_deletesFit (keys : List K) : DeletesFit (roomForOne keys) := by
  intro attempt store batch dels
  have none : batch.countP (fun op => !op.call.isDel) = 0 := by
    rw [List.countP_eq_zero]
    intro op member
    simp [dels op member]
  simp [roomForOne, none]

/-- Room for one of three entries. -/
def oneOfThree : Full Unit ℕ ℕ := roomForOne [0, 1, 2]

end NodeKv.Cache
