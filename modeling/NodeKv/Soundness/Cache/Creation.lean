import NodeKv.Model.Cache.Creation

/-! # A failed rotation

A rotation that throws has closed the old environment and left the current one in both places, with
the handler that throws. Gets then answer from the current environment alone, and no flush rotates
again, whatever is done with the cache. In a run of a cache, either every rotation has succeeded and
the cache has its two environments, or the last one has failed and there is just one.
-/

namespace NodeKv.Cache

open Machine Lmdb

variable {D K V : Type*}

/-- The part of the state that is changed by rotations only. -/
structure Roles where
  curEnv : ℕ
  oldEnv : ℕ
  next : ℕ
  closed : ℕ → Bool
  onfull : ℕ → Option Onfull
  /-- The number of rotations that were begun. -/
  rotations : ℕ

def State.roles (state : State D K V) : Roles where
  curEnv := state.host.curEnv
  oldEnv := state.host.oldEnv
  next := state.host.next
  closed := state.host.closed
  onfull := state.onfull
  rotations := state.host.rotations.length

namespace Roles

/-- Every rotation has succeeded. -/
structure Paired (roles : Roles) : Prop where
  count : roles.next = roles.rotations + 2
  cur : roles.curEnv + 1 = roles.next
  old : roles.oldEnv + 1 = roles.curEnv
  closed : ∀ env, roles.closed env = true ↔ env < roles.oldEnv
  replay : ∀ env, roles.onfull env = some .replay ↔ env = roles.curEnv

/-- The last rotation has failed. -/
structure Collapsed (roles : Roles) : Prop where
  count : roles.next = roles.rotations + 1
  cur : roles.curEnv + 1 = roles.next
  old : roles.oldEnv = roles.curEnv
  closed : ∀ env, roles.closed env = true ↔ env < roles.oldEnv
  replay : ∀ env, roles.onfull env ≠ some .replay

end Roles

section Rotate

variable {creation : Creation} {state next : State D K V} {error : Error}

private theorem rotateWith_returns (succeeded : creation.error? = none) :
    rotateWith creation state = .returned (rotate state) := by
  rw [rotateWith, Prog.seq_update, openEnvWith, succeeded]
  rfl

private theorem rotateWith_throws (failed : creation.error? = some error) :
    rotateWith creation state = .threw error (retire state) := by
  rw [rotateWith, Prog.seq_update, openEnvWith, failed]

private theorem rotateWith_threw (threw : rotateWith creation state = .threw error next) :
    creation.error? = some error ∧ next = retire state := by
  cases failed : creation.error? with
  | none => exact nomatch (rotateWith_returns failed).symm.trans threw
  | some thrown =>
    obtain ⟨rfl, rfl⟩ := Outcome.threw.inj ((rotateWith_throws failed).symm.trans threw)
    exact ⟨rfl, rfl⟩

private theorem retire_collapsed (paired : state.roles.Paired) :
    (State.roles (retire state)).Collapsed where
  count := by
    have count := paired.count
    simp only [State.roles, retire, List.length_append, List.length_singleton] at count ⊢
    omega
  cur := paired.cur
  old := rfl
  closed := by
    intro env
    have old := paired.old
    have closed := paired.closed env
    simp only [State.roles, retire, Function.update_apply] at old closed ⊢
    split_ifs with same
    · simp only [true_iff]
      omega
    · rw [closed]
      omega
  replay := by
    intro env
    have replay := paired.replay env
    simp only [State.roles, retire, Function.update_apply] at replay ⊢
    split_ifs with same
    · exact nofun
    · exact fun installed => same (replay.mp installed)

/-- The creation of the next environment undoes the collapse. -/
theorem openEnv_paired (collapsed : state.roles.Collapsed) :
    (State.roles (openEnv state)).Paired where
  count := congrArg (· + 1) collapsed.count
  cur := rfl
  old := by
    have old := collapsed.old
    have cur := collapsed.cur
    simp only [State.roles, openEnv] at old cur ⊢
    omega
  closed := collapsed.closed
  replay := by
    intro env
    have replay := collapsed.replay env
    simp only [State.roles, openEnv, Function.update_apply] at replay ⊢
    split_ifs with same
    · simp [same]
    · simp [replay, same]

private theorem rotate_paired (paired : state.roles.Paired) : (State.roles (rotate state)).Paired :=
  openEnv_paired (retire_collapsed paired)

end Rotate

section Calls

variable {invariant : Roles → Prop} {creations : ℕ → Creation}
  {flush : ℕ → Prog Error (State D K V)}

/-- Where a handler rotates, the rotation keeps the invariant, whether it succeeds or fails. -/
def Roles.Kept (D K V : Type*) (invariant : Roles → Prop) : Prop :=
  ∀ (state : State D K V) env, invariant state.roles → state.roles.onfull env = some .replay →
    invariant (State.roles (retire state)) ∧ invariant (State.roles (rotate state))

abbrev Roles.Preserves (invariant : Roles → Prop) : Prog Error (State D K V) → Prop :=
  Prog.Preserves fun state => invariant state.roles

private theorem rotateWith_preserves (rotates : Roles.Kept D K V invariant) {creation : Creation}
    {state : State D K V} {env : ℕ} (holds : invariant state.roles)
    (installed : state.roles.onfull env = some .replay) :
    (rotateWith creation state).Meets True (fun next => invariant next.roles)
      fun _ next => invariant next.roles := by
  obtain ⟨failed, succeeded⟩ := rotates state env holds installed
  cases creates : creation.error? with
  | none =>
    rw [rotateWith_returns creates]
    exact succeeded
  | some error =>
    rw [rotateWith_throws creates]
    exact failed

private theorem pushBatch_preserves (kept : ∀ env, Roles.Preserves invariant (flush env)) (env : ℕ)
    (op : BatchOp D K V) : Roles.Preserves invariant (pushBatch flush env op) := by
  intro state holds
  unfold pushBatch
  simp only
  split_ifs
  · exact kept env _ holds
  · exact holds

variable [DecidableEq D]

private theorem put_preserves (kept : ∀ env, Roles.Preserves invariant (flush env)) (db : D)
    (key : K)
    (val : V) : Roles.Preserves invariant (put flush db key val) :=
  fun _ holds => pushBatch_preserves kept _ _ _ holds

private theorem del_preserves (kept : ∀ env, Roles.Preserves invariant (flush env)) (db : D)
    (key : K) :
    Roles.Preserves invariant (del (V := V) flush db key) := by
  intro state holds
  exact Prog.Preserves.seq (pushBatch_preserves kept _ _) (pushBatch_preserves kept _ _) _ holds

private theorem replayOp_preserves (kept : ∀ env, Roles.Preserves invariant (flush env))
    (op : BatchOp D K V) : Roles.Preserves invariant (replayOp flush op) := by
  unfold replayOp
  split
  · exact fun _ holds => holds
  · exact put_preserves kept _ _ _
  · exact del_preserves kept _ _

private theorem onfullWith_preserves (rotates : Roles.Kept D K V invariant)
    (kept : ∀ env, Roles.Preserves invariant (flush env)) {handler : Onfull} {state : State D K V}
    {env : ℕ} (holds : invariant state.roles) (installed : state.onfull env = some handler)
    (ops : List (BatchOp D K V)) :
    (onfullWith creations flush handler ops state).Meets True (fun next => invariant next.roles)
      fun _ next => invariant next.roles := by
  cases handler with
  | replay =>
    refine Prog.seq_meets (rotateWith_preserves rotates holds installed) ?_
    refine Prog.Preserves.seq (.forEach (replayOp_preserves kept) ops) ?_
    exact fun next => kept _ next
  | shouldNotHappend => exact holds

private theorem actBy_preserves (kept : ∀ env, Roles.Preserves invariant (flush env))
    (action : Action D K V) : Roles.Preserves invariant (actBy flush action) := by
  cases action with
  | put db key val => exact put_preserves kept db key val
  | del db key => exact del_preserves kept db key
  | flushBatchOps =>
    exact Prog.Preserves.seq (fun state => kept _ state) (fun state => kept _ state)
  | fire =>
    intro state holds
    simp only [actBy, fire]
    split
    · exact holds
    · exact kept _ _ holds

end Calls

section Runs

variable [DecidableEq D] [DecidableEq K] {invariant : Roles → Prop} {full : Full D K V}
  {creations : ℕ → Creation}

/-- An attempt leaves the roles alone. -/
theorem roles_after (state : State D K V) (env : ℕ) (ops : List (BatchOp D K V)) :
    let attempt := engine full state.host env (state.native env) ops
    State.roles (state.after env attempt.native attempt.host) = state.roles := by
  simp only [engine]
  split_ifs <;> rfl

private theorem flushBatchOpsWith_preserves (rotates : Roles.Kept D K V invariant) (depth env : ℕ) :
    Roles.Preserves invariant (flushBatchOpsWith full creations depth env) := by
  refine Prog.nest_preserves ?_ depth env
  intro flush kept env state holds
  have attempted : invariant (State.roles (state.after env
      (engine full state.host env (state.native env) (state.batchOps env)).native
      (engine full state.host env (state.native env) (state.batchOps env)).host)) := by
    rw [roles_after]
    exact holds
  generalize ran : engine full state.host env (state.native env) (state.batchOps env) = attempt
    at attempted
  refine flushBatchOps_meets ran (fun _ => holds) ?_ ?_
  · cases attempt.result with
    | committed => exact attempted
    | failed error => exact attempted
    | notBegun error => exact attempted
    | stuck => trivial
  · intro handler installed
    exact onfullWith_preserves rotates kept attempted installed _

theorem StepWith.roles (rotates : Roles.Kept D K V invariant) {state next : State D K V}
    {action : Action D K V} (stepped : StepWith full state action next)
    (holds : invariant state.roles) : invariant next.roles := by
  obtain ⟨depth, creations, left⟩ := stepped
  exact (actBy_preserves (flushBatchOpsWith_preserves rotates depth) action state holds).state? left

/-- A run keeps what rotations keep. -/
theorem roles_of_run (rotates : Roles.Kept D K V invariant) {start state : State D K V}
    {actions : List (Action D K V)} (run : Runs (StepWith full) start actions state)
    (holds : invariant start.roles) : invariant state.roles :=
  run.preserves (fun _ state => invariant state.roles) holds
    fun _ _ _ _ holds stepped => stepped.roles rotates holds

/-- Without a handler that rotates, the roles stay as they are. -/
theorem roles_frozen {start state : State D K V} {actions : List (Action D K V)}
    (asserting : ∀ env, start.onfull env ≠ some .replay)
    (run : Runs (StepWith full) start actions state) : state.roles = start.roles := by
  have rotates : Roles.Kept D K V (· = start.roles) := by
    intro state env same installed
    rw [same] at installed
    exact absurd installed (asserting env)
  exact roles_of_run rotates run rfl

/-- Either every rotation has succeeded, or the last one has failed and was the only one to fail. -/
theorem run_paired_or_collapsed {size : JsNumber} {cur old : Contents D K V}
    {actions : List (Action D K V)} {state : State D K V}
    (run : Runs (StepWith full) (opened size cur old) actions state) :
    state.roles.Paired ∨ state.roles.Collapsed := by
  have rotates : Roles.Kept D K V fun roles => roles.Paired ∨ roles.Collapsed := by
    rintro state env (paired | collapsed) installed
    · exact ⟨.inr (retire_collapsed paired), .inl (rotate_paired paired)⟩
    · exact absurd installed (collapsed.replay env)
  refine roles_of_run rotates run (.inl ⟨rfl, rfl, rfl, ?_, ?_⟩)
  · intro env
    exact ⟨nofun, nofun⟩
  · intro env
    simp only [State.roles, opened]
    split_ifs with same
    · exact ⟨fun _ => same, fun _ => rfl⟩
    · exact ⟨nofun, fun equal => absurd equal same⟩

/-- A full flush of an environment that has been rotated out throws. -/
theorem flushBatchOpsWith_asserts {state : State D K V} {env : ℕ}
    (nonempty : state.batchOps env ≠ [])
    (live : state.host.closed env = false) (installed : state.onfull env = some .shouldNotHappend)
    (overflows : full state.host.attempts (state.native env) (state.batchOps env) = true)
    (depth : ℕ) :
    flushBatchOpsWith full creations (depth + 1) env state = .threw .shouldNotHappend
      { state with host.attempts := state.host.attempts + 1 } := by
  have attempt : engine full state.host env (state.native env) (state.batchOps env) =
      ⟨.failed (.mdb .mapFull), state.native env,
        { state.host with attempts := state.host.attempts + 1 }⟩ := by
    simp [engine, live, overflows]
  show Lmdb.flushBatchOps _ _ env state = _
  rw [flushBatchOps_full nonempty attempt installed, World.after_self]
  rfl

/-- What a call leaves intact for the users of the cache. -/
structure Intact (before after : State D K V) : Prop where
  distinct : after.host.curEnv ≠ after.host.oldEnv
  opened : after.host.closed after.host.curEnv = false ∧ after.host.closed after.host.oldEnv = false
  curContents : after.native after.host.curEnv = before.native before.host.curEnv
  oldContents : after.native after.host.oldEnv = before.native before.host.oldEnv
  curOnfull : after.onfull after.host.curEnv = before.onfull before.host.curEnv
  oldOnfull : after.onfull after.host.oldEnv = before.onfull before.host.oldEnv
  gets : ∀ truthy db key, get truthy after db key = get truthy before db key

/-- What a rotation that throws leaves: one environment in both places, for good. -/
structure Collapses (full : Full D K V) (before after : State D K V) : Prop where
  curEnv : after.host.curEnv = before.host.curEnv
  oldEnv : after.host.oldEnv = before.host.curEnv
  contents : after.native = before.native
  queues : after.batchOps = before.batchOps
  closed : after.host.closed before.host.oldEnv = true
  gets : ∀ truthy db key, get truthy after db key = before.native before.host.curEnv (db, key)
  forGood : ∀ actions later, Runs (StepWith full) after actions later → later.roles = after.roles
  asserts : ∀ actions later, Runs (StepWith full) after actions later →
    later.batchOps later.host.curEnv ≠ [] →
    full later.host.attempts (later.native later.host.curEnv)
      (later.batchOps later.host.curEnv) = true →
    ∀ creations depth, (flushBatchOpsWith full creations (depth + 1) later.host.curEnv later).error? =
      some .shouldNotHappend

omit [DecidableEq D] [DecidableEq K] in
private theorem retire_get (truthy : V → Bool) (state : State D K V) (db : D) (key : K) :
    get truthy (retire state) db key = state.native state.host.curEnv (db, key) := by
  simp only [get, retire]
  cases found : state.native state.host.curEnv (db, key) with
  | none => rfl
  | some val => simp

/-- A rotation that throws leaves the cache intact in no state: from a cache with its two
environments, it leaves one that has a single environment from then on. -/
theorem rotation_intact_iff (full : Full D K V) (creation : Creation) (state : State D K V) :
    ((∀ error next, rotateWith creation state = .threw error next → Intact state next) ↔
      creation.error? = none) ∧
    (state.roles.Paired → ∀ error next, rotateWith creation state = .threw error next →
      Collapses full state next) := by
  constructor
  · constructor
    · intro intact
      cases failed : creation.error? with
      | none => rfl
      | some error => exact absurd rfl (intact error _ (rotateWith_throws failed)).distinct
    · intro succeeded error next threw
      exact nomatch (rotateWith_returns succeeded).symm.trans threw
  · intro paired error next threw
    obtain ⟨-, rfl⟩ := rotateWith_threw threw
    have collapsed := retire_collapsed paired
    constructor
    case curEnv => rfl
    case oldEnv => rfl
    case contents => rfl
    case queues => rfl
    case closed => exact Function.update_self ..
    case gets => exact fun truthy db key => retire_get truthy state db key
    case forGood => exact fun actions later run => roles_frozen collapsed.replay run
    case asserts =>
      intro actions later run nonempty overflows creations depth
      have frozen := roles_frozen collapsed.replay run
      have live : later.roles.closed later.roles.curEnv = false := by
        rw [frozen, Bool.eq_false_iff, ne_eq, collapsed.closed, collapsed.old]
        exact lt_irrefl _
      have installed : later.roles.onfull later.roles.curEnv = some .shouldNotHappend := by
        rw [frozen]
        exact Function.update_self ..
      rw [flushBatchOpsWith_asserts nonempty live installed overflows]
      rfl

/-- `mdb_env_open` finds the disk full. -/
def noSpace : Creation := ⟨none, none, some (.system "No space left on device")⟩

/-- A put that finds the current environment full: its rotation fails, and what only the old
environment had is gone. -/
theorem failed_rotation_drops_old : ∃ state next : State Unit Bool ℕ,
    Runs (StepWith oneEntry) (opened (.finite 1) (fun _ => none) fun _ => some 5)
      [.put () true 1] state ∧
    actBy (flushBatchOpsWith oneEntry (fun _ => noSpace) 2) (.put () false 2) state =
      .threw (.mdb (.system "No space left on device")) next ∧
    get (fun _ => true) state () false = some 5 ∧ get (fun _ => true) next () false = none ∧
    next.host.curEnv = next.host.oldEnv := by
  refine ⟨_, _, .snoc .nil ⟨1, fun _ => noSpace, rfl⟩, rfl, rfl, rfl, rfl⟩

end Runs

end NodeKv.Cache
