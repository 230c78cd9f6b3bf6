import NodeKv.Model.Cache.Close
import NodeKv.Soundness.Lmdb.Closing

/-! # The callback of the cache's close

Closing and syncing an environment are not safe in every order. The cache only ever closes, and each
environment once, so none of its environments is closed twice or synced after it was closed, and
the callback given to the cache is called once: when the second of the two environments has been
closed. A rotation that failed undoes this. It leaves one environment in both places, which is then
closed twice, and the callback is never called.
-/

namespace NodeKv.Cache.Closing

open Machine Lmdb

section Environment

variable {life next : Life} {cb : Option ℕ} {times : ℕ}

/-- An environment that was asked to close so many times, and for nothing else. -/
structure Asked (cb : Option ℕ) (times : ℕ) (life : Life) : Prop where
  works : ∀ function ∈ life.works.map Work.callback, function = .close cb
  waiting : if life.opened then life.works.length = times else life.works.length < times
  called : Life.called life.trace = if life.opened then [] else cb.toList

private theorem fresh_asked (dbs : List ℕ) : Asked none 0 (Life.fresh dbs) :=
  ⟨by simp [Life.fresh], rfl, rfl⟩

/-- An environment in use. -/
theorem Asked.live (asked : Asked cb 0 life) : life.opened = true ∧ life.works = [] := by
  have waiting := asked.waiting
  cases opened : life.opened with
  | false => simp [opened] at waiting
  | true =>
    simp only [opened, ↓reduceIte, List.length_eq_zero_iff] at waiting
    exact ⟨rfl, waiting⟩

/-- Nobody has said yet which callback it will be. -/
theorem Asked.any (asked : Asked cb 0 life) (other : Option ℕ) : Asked other 0 life := by
  obtain ⟨opened, idle⟩ := asked.live
  have called := asked.called
  rw [if_pos opened] at called
  exact ⟨by simp [idle], by simp [opened, idle], by rw [if_pos opened, called]⟩

/-- An open environment after a call of its `close`. -/
def askClose (cb : Option ℕ) (life : Life) : Life :=
  Life.request (.close cb) { life with closedDbis := life.closedDbis ++ life.dbs }

private theorem close_opened (cb : Option ℕ) (opened : life.opened = true) :
    Life.close cb life = .returned (askClose cb life) := by
  rw [Life.close, Prog.seq, Life.forEach_dbClose _ opened]
  exact Life.nativeSync_opened (.close cb) opened

theorem Asked.ask (asked : Asked cb times life) (opened : life.opened = true) :
    Asked cb (times + 1) (askClose cb life) := by
  have waiting := asked.waiting
  have called := asked.called
  rw [if_pos opened] at waiting called
  refine ⟨?_, ?_, ?_⟩
  · intro function mem
    rw [askClose, Life.request, Life.record, List.map_append, List.mem_append] at mem
    rcases mem with old | new
    · exact asked.works function old
    · exact List.mem_singleton.mp new
  · simp [askClose, Life.request, Life.record, opened, waiting]
  · simpa [askClose, Life.request, Life.record, Life.called, opened] using called

/-- A worker goes on with a request. -/
theorem Asked.worked (asked : Asked cb times life) {works : List (Work Callback (Option Rc))}
    (same : works.map Work.callback = life.works.map Work.callback) {event : LifeEvent}
    (quiet : Life.called [event] = []) :
    Asked cb times (Life.record event { life with works := works }) := by
  have length : works.length = life.works.length := by
    simpa using congrArg List.length same
  refine ⟨?_, ?_, ?_⟩
  · rw [Life.record, same]
    exact asked.works
  · rw [Life.record, length]
    exact asked.waiting
  · refine Eq.trans ?_ asked.called
    have appended : Life.called (life.trace ++ [event]) =
        Life.called life.trace ++ Life.called [event] := List.filterMap_append
    rw [Life.record, appended, quiet, List.append_nil]

/-- What is left when a request has been completed. -/
theorem Asked.completed (asked : Asked cb times life) {function : Callback} {rc : Option Rc}
    {id : ℕ} {left : List (Work Callback (Option Rc))}
    (completes : Work.Completes function rc life.works id left) :
    function = .close cb ∧ (∀ function ∈ left.map Work.callback, function = .close cb) ∧
      left.length < life.works.length := by
  have fewer := completes.callbacks.length_eq
  simp only [List.length_map, List.length_cons] at fewer
  refine ⟨asked.works _ (List.mem_map_of_mem completes.mem), ?_, by omega⟩
  intro function mem
  exact asked.works function (completes.callbacks.symm.subset (List.mem_cons_of_mem _ mem))

/-- The function given to `close` is called when the environment is closed, and at no other time. -/
theorem Asked.scheduled (asked : Asked cb times life) {action : Life.Action}
    (scheduled : action.isScheduled = true) (stepped : Life.Step life action next) :
    Asked cb times next ∧ (next.opened = true → life.opened = true) ∧
      rings life next = if life.opened = next.opened then 0 else cb.toList.length := by
  have waiting := asked.waiting
  have called := asked.called
  cases stepped.moves with
  | unasked => cases scheduled
  | refused user _ => cases user.symm.trans scheduled
  | synced _ _ => cases scheduled
  | closes _ _ => cases scheduled
  | started starts =>
    refine ⟨asked.worked starts.callbacks rfl, id, ?_⟩
    simp [rings, Life.record]
  | finished finishes =>
    refine ⟨asked.worked finishes.callbacks rfl, id, ?_⟩
    simp [rings, Life.record]
  | called completes => cases (asked.completed completes).1
  | closed completes opened =>
    obtain ⟨⟨⟩, works, fewer⟩ := asked.completed completes
    rw [if_pos opened] at waiting called
    refine ⟨⟨works, ?_, ?_⟩, fun _ => opened, ?_⟩
    · simp only [Life.shut, Bool.false_eq_true, ↓reduceIte]
      omega
    · cases cb <;> simpa [Life.shut, Life.called] using called
    · cases cb <;> simp [rings, Life.shut, opened]
  | lost completes closed =>
    obtain ⟨-, works, fewer⟩ := asked.completed completes
    rw [if_neg (by simp [closed])] at waiting
    refine ⟨⟨works, ?_, called⟩, fun opened => opened, ?_⟩
    · simp only [closed, Bool.false_eq_true, ↓reduceIte]
      omega
    · simp [rings]

end Environment

namespace State

private theorem lives_setLife {state : State} {env other : ℕ} {life : Life} (property : Life → Prop)
    (changed : other = env → property life) (kept : property (state.lives other)) :
    property ((state.setLife env life).lives other) := by
  simp only [setLife, Function.update_apply]
  split_ifs with same
  · exact changed same
  · exact kept

/-- How many environments of the cache have been closed since `close` was called. -/
def shut (state : State) : ℕ :=
  (if (state.lives state.curEnv).opened then 0 else 1) +
    if state.curEnv = state.oldEnv ∨ (state.lives state.oldEnv).opened then 0 else 1

end State

/-- What holds of the environments of a cache. -/
structure Sound (state : State) : Prop where
  next : state.next = state.curEnv + 1
  old : state.oldEnv + 1 = state.curEnv ∨ state.oldEnv = state.curEnv
  /-- Environments that were rotated out. -/
  gone : ∀ env < state.oldEnv, Asked none 1 (state.lives env)
  unopened : ∀ env, state.next ≤ env → Asked none 0 (state.lives env)
  inUse : state.closed = false → Asked none 0 (state.lives state.curEnv) ∧
    Asked none 0 (state.lives state.oldEnv) ∧ state.calls = none
  closing : state.closed = true → ∃ cb : Option ℕ,
    state.calls = cb.map (fun _ => state.shut) ∧
    Asked cb (if state.curEnv = state.oldEnv then 2 else 1) (state.lives state.curEnv) ∧
    Asked cb (if state.curEnv = state.oldEnv then 2 else 1) (state.lives state.oldEnv)
  succeeded : ∀ env, Life.Succeeded (state.lives env)
  /-- Unless one environment is closed twice. -/
  tidy : state.closed = false ∨ state.curEnv ≠ state.oldEnv → ∀ env, Life.Tidy (state.lives env)

section Steps

variable {state next : State}

theorem start_sound : Sound .start where
  next := rfl
  old := .inl rfl
  gone := by
    intro env before
    cases before
  unopened := fun env _ => fresh_asked []
  inUse := fun _ => ⟨fresh_asked [], fresh_asked [], rfl⟩
  closing := by rintro ⟨⟩
  succeeded := fun _ => (Life.fresh_tidy []).succeeded
  tidy := fun _ _ => Life.fresh_tidy []

private theorem run_close {env : ℕ} (cb : Option ℕ) (opened : (state.lives env).opened = true) :
    State.run env (Life.close cb) state =
      .returned (state.setLife env (askClose cb (state.lives env))) := by
  rw [State.run, Prog.zoom, close_opened cb opened]

/-- An environment in use can be asked to close. -/
theorem tidy_askClose {life : Life} {cb : Option ℕ} (tidy : Life.Tidy life)
    (asked : Asked cb 0 life) : Life.Tidy (askClose cb life) := by
  obtain ⟨opened, idle⟩ := asked.live
  have careful : Life.Careful life (.close cb) := by
    simp [Life.Careful, Life.closing, opened, idle]
  exact tidy.moves careful (.closes cb opened)

theorem Sound.openDb (sound : Sound state) {env dbi : ℕ}
    (stepped : Step state (.openDb env dbi) next) : Sound next := by
  obtain ⟨inUse, -, rfl⟩ := stepped
  have lives (property : Life → Prop)
      (ignores : ∀ life dbs, property life → property { life with dbs := dbs })
      {other : ℕ} (holds : property (state.lives other)) :
      property ((state.setLife env
        { state.lives env with dbs := (state.lives env).dbs ++ [dbi] }).lives other) :=
    State.lives_setLife property (fun same => ignores _ _ (same ▸ holds)) holds
  have asked (cb : Option ℕ) (times : ℕ) (life : Life) (dbs : List ℕ)
      (holds : Asked cb times life) : Asked cb times { life with dbs := dbs } :=
    ⟨holds.works, holds.waiting, holds.called⟩
  refine ⟨sound.next, sound.old, ?_, ?_, ?_, ?_, ?_, ?_⟩
  · exact fun other before => lives _ (asked _ _) (sound.gone other before)
  · exact fun other after => lives _ (asked _ _) (sound.unopened other after)
  · intro _
    obtain ⟨cur, old, none⟩ := sound.inUse inUse
    exact ⟨lives _ (asked _ _) cur, lives _ (asked _ _) old, none⟩
  · intro closed
    cases inUse.symm.trans closed
  · exact fun other => lives Life.Succeeded (fun _ _ succeeded => succeeded) (sound.succeeded other)
  · intro _ other
    refine lives Life.Tidy ?_ (sound.tidy (.inl inUse) other)
    exact fun life dbs tidy =>
      ⟨tidy.orderly, tidy.opened, tidy.settled, tidy.alone, tidy.succeeded⟩

private theorem rotate_returned (created : Bool)
    (opened : (state.lives state.oldEnv).opened = true) :
    Closing.rotate created state = .returned { state with
      lives := Function.update state.lives state.oldEnv (askClose none (state.lives state.oldEnv))
      curEnv := if created then state.next else state.curEnv
      oldEnv := state.curEnv
      next := if created then state.next + 1 else state.next } := by
  rw [Closing.rotate, Prog.seq_returned (run_close none opened)]
  cases created <;> rfl

theorem Sound.rotate (sound : Sound state) {created : Bool}
    (stepped : Step state (.rotate created) next) : Sound next := by
  obtain ⟨inUse, distinct, ended⟩ := stepped
  obtain ⟨cur, old, empty⟩ := sound.inUse inUse
  have count := sound.next
  have before := sound.old
  let lives := Function.update state.lives state.oldEnv (askClose none (state.lives state.oldEnv))
  have others {env : ℕ} (ne : env ≠ state.oldEnv) : lives env = state.lives env :=
    Function.update_of_ne ne ..
  have asked : lives state.oldEnv = askClose none (state.lives state.oldEnv) :=
    Function.update_self ..
  have tidy (env : ℕ) : Life.Tidy (lives env) := by
    have tidy := sound.tidy (.inl inUse)
    rcases eq_or_ne env state.oldEnv with rfl | ne
    · rw [asked]
      exact tidy_askClose (tidy _) old
    · rw [others ne]
      exact tidy env
  have gone (env : ℕ) (lt : env < state.curEnv) : Asked none 1 (lives env) := by
    rcases eq_or_ne env state.oldEnv with rfl | ne
    · rw [asked]
      exact old.ask old.live.1
    · rw [others ne]
      exact sound.gone env (by omega)
  have inUse' : Asked none 0 (lives state.curEnv) := others distinct ▸ cur
  have unopened (env : ℕ) (le : state.next ≤ env) : Asked none 0 (lives env) := by
    rw [others (by omega)]
    exact sound.unopened env le
  rw [rotate_returned created old.live.1] at ended
  cases created with
  | true =>
    obtain rfl := Option.some.inj ended
    refine ⟨rfl, .inl count.symm, gone, ?_, ?_, ?_, fun env => (tidy env).succeeded, ?_⟩
    · exact fun env le => unopened env (Nat.le_of_succ_le le)
    · exact fun _ => ⟨unopened state.next le_rfl, inUse', empty⟩
    · exact fun closed => absurd (inUse.symm.trans closed) (by decide)
    · exact fun _ => tidy
  | false =>
    obtain rfl := Option.some.inj ended
    refine ⟨count, .inr rfl, gone, unopened, fun _ => ⟨inUse', inUse', empty⟩, ?_,
      fun env => (tidy env).succeeded, fun _ => tidy⟩
    exact fun closed => absurd (inUse.symm.trans closed) (by decide)

section Both

variable {given : Option ℕ} {lives : ℕ → Life} {cur old : ℕ}

/-- Two environments have been asked to close, one after the other. -/
def askBoth (given : Option ℕ) (cur old : ℕ) (lives : ℕ → Life) : ℕ → Life :=
  let once := Function.update lives cur (askClose given (lives cur))
  Function.update once old (askClose given (once old))

private theorem askBoth_same :
    askBoth given cur cur lives cur = askClose given (askClose given (lives cur)) := by
  rw [askBoth, Function.update_self, Function.update_self]

private theorem askBoth_cur (distinct : cur ≠ old) :
    askBoth given cur old lives cur = askClose given (lives cur) := by
  rw [askBoth, Function.update_of_ne distinct, Function.update_self]

private theorem askBoth_old (distinct : cur ≠ old) :
    askBoth given cur old lives old = askClose given (lives old) := by
  rw [askBoth, Function.update_self, Function.update_of_ne distinct.symm]

private theorem askBoth_other {env : ℕ} (notCur : env ≠ cur) (notOld : env ≠ old) :
    askBoth given cur old lives env = lives env := by
  rw [askBoth, Function.update_of_ne notOld, Function.update_of_ne notCur]

/-- Each has been asked once, or the one in both places twice. -/
theorem askBoth_asked {env : ℕ} (curAsked : Asked given 0 (lives cur))
    (oldAsked : Asked given 0 (lives old)) (asked : env = cur ∨ env = old) :
    Asked given (if cur = old then 2 else 1) (askBoth given cur old lives env) ∧
      (askBoth given cur old lives env).opened = true := by
  rcases eq_or_ne cur old with rfl | distinct
  · obtain rfl := asked.elim id id
    have once := curAsked.ask curAsked.live.1
    rw [askBoth_same, if_pos rfl]
    exact ⟨once.ask curAsked.live.1, curAsked.live.1⟩
  · rw [if_neg distinct]
    rcases asked with rfl | rfl
    · rw [askBoth_cur distinct]
      exact ⟨curAsked.ask curAsked.live.1, curAsked.live.1⟩
    · rw [askBoth_old distinct]
      exact ⟨oldAsked.ask oldAsked.live.1, oldAsked.live.1⟩

private theorem askClose_succeeded {life : Life} (succeeded : Life.Succeeded life) :
    Life.Succeeded (askClose given life) :=
  succeeded.request (.close given) _

private theorem askBoth_succeeded (succeeded : ∀ env, Life.Succeeded (lives env)) (env : ℕ) :
    Life.Succeeded (askBoth given cur old lives env) := by
  have once (env : ℕ) :
      Life.Succeeded (Function.update lives cur (askClose given (lives cur)) env) := by
    rcases eq_or_ne env cur with rfl | other
    · rw [Function.update_self]
      exact askClose_succeeded (succeeded _)
    · rw [Function.update_of_ne other]
      exact succeeded env
  rcases eq_or_ne env old with rfl | other
  · rw [askBoth, Function.update_self]
    exact askClose_succeeded (once _)
  · rw [askBoth, Function.update_of_ne other]
    exact once env

private theorem askBoth_tidy (distinct : cur ≠ old) (curAsked : Asked given 0 (lives cur))
    (oldAsked : Asked given 0 (lives old)) (tidy : ∀ env, Life.Tidy (lives env)) (env : ℕ) :
    Life.Tidy (askBoth given cur old lives env) := by
  rcases eq_or_ne env cur with rfl | notCur
  · rw [askBoth_cur distinct]
    exact tidy_askClose (tidy _) curAsked
  rcases eq_or_ne env old with rfl | notOld
  · rw [askBoth_old distinct]
    exact tidy_askClose (tidy _) oldAsked
  · rw [askBoth_other notCur notOld]
    exact tidy env

end Both

private theorem close_returned (cb : Bool) (cur : (state.lives state.curEnv).opened = true)
    (old : (state.lives state.oldEnv).opened = true) :
    Closing.close cb state = .returned { state with
      lives := askBoth (if cb then some 0 else none) state.curEnv state.oldEnv state.lives
      closed := true
      calls := if cb then some 0 else none } := by
  have opened : ((state.setLife state.curEnv (askClose (if cb then some 0 else none)
      (state.lives state.curEnv))).lives state.oldEnv).opened = true :=
    State.lives_setLife (·.opened = true) (fun _ => cur) old
  rw [Closing.close, Prog.seq_returned (run_close _ cur), Prog.seq_returned (run_close _ opened)]
  rfl

theorem Sound.close (sound : Sound state) {cb : Bool} (stepped : Step state (.close cb) next) :
    Sound next := by
  obtain ⟨inUse, ended⟩ := stepped
  obtain ⟨cur, old, -⟩ := sound.inUse inUse
  have count := sound.next
  have before := sound.old
  rw [close_returned cb cur.live.1 old.live.1] at ended
  obtain rfl := Option.some.inj ended
  have asked (env : ℕ) (used : env = state.curEnv ∨ env = state.oldEnv) :=
    askBoth_asked (cur.any (if cb then some 0 else none)) (old.any _) used
  have others {env times : ℕ} (notCur : env ≠ state.curEnv) (notOld : env ≠ state.oldEnv)
      (asked : Asked none times (state.lives env)) : Asked none times
        (askBoth (if cb then some 0 else none) state.curEnv state.oldEnv state.lives env) := by
    rwa [askBoth_other notCur notOld]
  refine ⟨count, before, ?_, ?_, by rintro ⟨⟩, ?_, askBoth_succeeded sound.succeeded, ?_⟩
  · intro env (lt : env < state.oldEnv)
    exact others (by omega) (by omega) (sound.gone env lt)
  · intro env (le : state.next ≤ env)
    exact others (by omega) (by omega) (sound.unopened env le)
  · refine fun _ => ⟨_, ?_, (asked _ (.inl rfl)).1, (asked _ (.inr rfl)).1⟩
    rw [State.shut, if_pos (asked _ (.inl rfl)).2, if_pos (Or.inr (asked _ (.inr rfl)).2)]
    cases cb <;> rfl
  · rintro (⟨⟨⟩⟩ | distinct)
    exact askBoth_tidy distinct (cur.any _) (old.any _) (sound.tidy (.inl inUse))

/-- What an environment has been asked for, whichever it is. -/
theorem Sound.asked (sound : Sound state) (env : ℕ) : ∃ cb times, Asked cb times (state.lives env) ∧
    (env ≠ state.curEnv → env ≠ state.oldEnv → cb = none) := by
  have count := sound.next
  have before := sound.old
  by_cases used : env = state.curEnv ∨ env = state.oldEnv
  · cases closed : state.closed with
    | false =>
      obtain ⟨cur, old, -⟩ := sound.inUse closed
      refine ⟨none, 0, ?_, fun _ _ => rfl⟩
      rcases used with rfl | rfl
      · exact cur
      · exact old
    | true =>
      obtain ⟨cb, -, cur, old⟩ := sound.closing closed
      refine ⟨cb, if state.curEnv = state.oldEnv then 2 else 1, ?_,
        fun notCur notOld => (used.elim notCur notOld).elim⟩
      rcases used with rfl | rfl
      · exact cur
      · exact old
  · push Not at used
    rcases lt_or_ge env state.oldEnv with lt | ge
    · exact ⟨none, 1, sound.gone env lt, fun _ _ => rfl⟩
    · exact ⟨none, 0, sound.unopened env (by omega), fun _ _ => rfl⟩

/-- What the threads do is careful where syncs succeed. -/
theorem careful_of_scheduled {life : Life} {action : Life.Action}
    (scheduled : action.isScheduled = true) (fine : ∀ id rc, action = .finish id rc → rc = none) :
    Life.Careful life action := by
  cases action with
  | sync cb => cases scheduled
  | close cb => cases scheduled
  | start id => trivial
  | finish id rc => exact fine id rc rfl
  | complete id => trivial

theorem State.shut_le (state : State) : state.shut ≤ 2 := by
  rw [State.shut]
  split_ifs <;> omega

theorem State.shut_setLife {env : ℕ} {life : Life} (used : env = state.curEnv ∨ env = state.oldEnv)
    (opened : life.opened = true → (state.lives env).opened = true) :
    (state.setLife env life).shut =
      state.shut + if (state.lives env).opened = life.opened then 0 else 1 := by
  rcases eq_or_ne state.curEnv state.oldEnv with same | distinct
  · obtain rfl : env = state.oldEnv := used.elim (·.trans same) id
    cases before : (state.lives state.oldEnv).opened <;> cases after : life.opened <;>
      simp_all [State.shut, State.setLife]
  · rcases used with rfl | rfl
    · cases before : (state.lives state.curEnv).opened <;> cases after : life.opened <;>
        simp_all [State.shut, State.setLife, distinct.symm, Nat.add_comm]
    · cases before : (state.lives state.oldEnv).opened <;> cases after : life.opened <;>
        simp_all [State.shut, State.setLife]

theorem State.shut_setLife_other {env : ℕ} {life : Life} (notCur : env ≠ state.curEnv)
    (notOld : env ≠ state.oldEnv) : (state.setLife env life).shut = state.shut := by
  simp [State.shut, State.setLife, Function.update_of_ne notCur.symm,
    Function.update_of_ne notOld.symm]

/-- A step of an environment of the cache counts if it closes the environment. -/
theorem Asked.counted {cb : Option ℕ} {env times : ℕ} (asked : Asked cb times (state.lives env))
    (used : env = state.curEnv ∨ env = state.oldEnv)
    (calls : state.calls = cb.map fun _ => state.shut) {action : Life.Action}
    {life : Life} (scheduled : action.isScheduled = true)
    (stepped : Life.Step (state.lives env) action life) :
    state.calls.map (· + rings (state.lives env) life) =
      cb.map fun _ => (state.setLife env life).shut := by
  obtain ⟨-, opened, rung⟩ := asked.scheduled scheduled stepped
  rw [State.shut_setLife used opened, rung, calls]
  cases cb <;> rfl

/-- One that was given no callback does not. -/
theorem Asked.silent {life next : Life} {times : ℕ} (asked : Asked none times life)
    {action : Life.Action} (scheduled : action.isScheduled = true)
    (stepped : Life.Step life action next) (calls : Option ℕ) :
    calls.map (· + rings life next) = calls := by
  have silent : rings life next = 0 := by
    rw [(asked.scheduled scheduled stepped).2.2]
    split_ifs <;> rfl
  cases calls <;> simp [silent]

theorem Sound.pool (sound : Sound state) {env : ℕ} {action : Life.Action}
    (fine : (Action.pool env action).Succeeds) (stepped : Step state (.pool env action) next) :
    Sound next := by
  obtain ⟨scheduled, life, stepped, rfl⟩ := stepped
  have kept (other : ℕ) (cb : Option ℕ) (times : ℕ) (asked : Asked cb times (state.lives other)) :
      Asked cb times ((state.setLife env life).lives other) := by
    refine State.lives_setLife _ ?_ asked
    rintro rfl
    exact (asked.scheduled scheduled stepped).1
  have finished (id : ℕ) (rc : Option Rc) (finish : action = .finish id rc) : rc = none := by
    rw [finish] at fine
    exact fine
  refine ⟨sound.next, sound.old, ?_, ?_, ?_, ?_, ?_, ?_⟩
  · exact fun other lt => kept other _ _ (sound.gone other lt)
  · exact fun other le => kept other _ _ (sound.unopened other le)
  · intro inUse
    obtain ⟨cur, old, none⟩ := sound.inUse inUse
    refine ⟨kept _ _ _ cur, kept _ _ _ old, ?_⟩
    rw [none]
    rfl
  · intro closed
    obtain ⟨cb, calls, cur, old⟩ := sound.closing closed
    refine ⟨cb, ?_, kept _ _ _ cur, kept _ _ _ old⟩
    by_cases used : env = state.curEnv ∨ env = state.oldEnv
    · have asked : Asked cb (if state.curEnv = state.oldEnv then 2 else 1) (state.lives env) := by
        rcases used with rfl | rfl
        · exact cur
        · exact old
      exact asked.counted used calls scheduled stepped
    · -- An environment that was rotated out was given no callback.
      push Not at used
      obtain ⟨cb', times, asked, quiet⟩ := sound.asked env
      obtain rfl := quiet used.1 used.2
      have unchanged : (state.setLife env life).shut = state.shut :=
        State.shut_setLife_other used.1 used.2
      exact (asked.silent scheduled stepped state.calls).trans (unchanged ▸ calls)
  · intro other
    refine State.lives_setLife _ ?_ (sound.succeeded other)
    rintro rfl
    exact (sound.succeeded _).moves finished stepped.moves
  · intro apart other
    refine State.lives_setLife _ ?_ (sound.tidy apart other)
    rintro rfl
    exact (sound.tidy apart _).moves (careful_of_scheduled scheduled finished) stepped.moves

theorem Sound.step (sound : Sound state) {action : Action} (fine : action.Succeeds)
    (stepped : Step state action next) : Sound next := by
  cases action with
  | openDb env dbi => exact sound.openDb stepped
  | rotate created => exact sound.rotate stepped
  | close cb => exact sound.close stepped
  | pool env action => exact sound.pool fine stepped

/-- What the calls of a run say about its end. -/
structure Told (actions : List Action) (state : State) : Prop where
  /-- One environment in both places comes of a rotation that failed. -/
  failed : state.curEnv = state.oldEnv ↔ .rotate false ∈ actions
  counting : state.calls.isSome = true ↔ .close true ∈ actions
  closed : state.closed = true ↔ ∃ cb, .close cb ∈ actions

theorem Told.quiet {actions : List Action} (told : Told actions state) {action : Action}
    (places : next.curEnv = state.curEnv ∧ next.oldEnv = state.oldEnv)
    (same : next.calls.isSome = state.calls.isSome ∧ next.closed = state.closed)
    (quiet : (∀ created, action ≠ .rotate created) ∧ ∀ cb, action ≠ .close cb) :
    Told (actions ++ [action]) next := by
  refine ⟨?_, ?_, ?_⟩
  · rw [places.1, places.2, told.failed, List.mem_append, List.mem_singleton,
      or_iff_left (quiet.1 false).symm]
  · rw [same.1, told.counting, List.mem_append, List.mem_singleton, or_iff_left (quiet.2 true).symm]
  · rw [same.2, told.closed]
    refine exists_congr fun cb => ?_
    rw [List.mem_append, List.mem_singleton, or_iff_left (quiet.2 cb).symm]

theorem Told.rotate {actions : List Action} (told : Told actions state) (sound : Sound state)
    {created : Bool} (stepped : Step state (.rotate created) next) :
    Told (actions ++ [.rotate created]) next := by
  obtain ⟨inUse, distinct, ended⟩ := stepped
  have count := sound.next
  rw [rotate_returned created (sound.inUse inUse).2.1.live.1] at ended
  obtain rfl := Option.some.inj ended
  refine ⟨?_, by simpa using told.counting, by simpa using told.closed⟩
  cases created with
  | true =>
    have apart : state.next ≠ state.curEnv := by omega
    simpa [apart, distinct] using told.failed
  | false => simp

theorem Told.close {actions : List Action} (told : Told actions state) (sound : Sound state)
    {cb : Bool} (stepped : Step state (.close cb) next) : Told (actions ++ [.close cb]) next := by
  obtain ⟨inUse, ended⟩ := stepped
  obtain ⟨cur, old, empty⟩ := sound.inUse inUse
  have counting := told.counting
  rw [empty] at counting
  rw [close_returned cb cur.live.1 old.live.1] at ended
  obtain rfl := Option.some.inj ended
  refine ⟨by simpa using told.failed, ?_, by simp⟩
  cases cb with
  | true => simp
  | false => simpa using counting

theorem Told.step {actions : List Action} (told : Told actions state) (sound : Sound state)
    {action : Action} (stepped : Step state action next) : Told (actions ++ [action]) next := by
  cases action with
  | openDb env dbi =>
    obtain ⟨-, -, rfl⟩ := stepped
    exact told.quiet ⟨rfl, rfl⟩ ⟨rfl, rfl⟩ ⟨by rintro _ ⟨⟩, by rintro _ ⟨⟩⟩
  | rotate created => exact told.rotate sound stepped
  | close cb => exact told.close sound stepped
  | pool env action =>
    obtain ⟨-, life, -, rfl⟩ := stepped
    exact told.quiet ⟨rfl, rfl⟩ ⟨Option.isSome_map, rfl⟩ ⟨by rintro _ ⟨⟩, by rintro _ ⟨⟩⟩

theorem runs_sound {actions : List Action}
    (run : Runs (Guarded (fun _ => Action.Succeeds) Step) .start actions state) :
    Sound state ∧ Told actions state := by
  refine run.preserves (fun actions state => Sound state ∧ Told actions state) ⟨start_sound, ?_⟩ ?_
  · exact ⟨by simp [State.start], by simp [State.start], by simp [State.start]⟩
  · rintro actions state action next ⟨sound, told⟩ ⟨fine, stepped⟩
    exact ⟨sound.step fine stepped, told.step sound stepped⟩

end Steps

section Results

variable {state : State}

theorem State.shut_eq_two : state.shut = 2 ↔ state.curEnv ≠ state.oldEnv ∧
    (state.lives state.curEnv).opened = false ∧ (state.lives state.oldEnv).opened = false := by
  rcases eq_or_ne state.curEnv state.oldEnv with same | distinct
  · have most : (if (state.lives state.curEnv).opened then 0 else 1) ≤ 1 := by split_ifs <;> decide
    simp only [State.shut, same, true_or, ↓reduceIte, ne_eq, not_true_eq_false, false_and,
      iff_false]
    rw [same] at most
    omega
  · cases cur : (state.lives state.curEnv).opened <;>
      cases old : (state.lives state.oldEnv).opened <;>
      simp [State.shut, cur, old, distinct]

/-- The callback is called when both environments have been closed. -/
theorem Sound.calledBack (sound : Sound state) {after : ℕ → Bool}
    (second : ∀ call, after call = true ↔ 2 ≤ call) (given : state.calls.isSome = true) :
    state.calledBack after = if state.shut = 2 then 1 else 0 := by
  have first : after 1 = false := by simp [← Bool.not_eq_true, second]
  have next : after 2 = true := by simp [second]
  cases closed : state.closed with
  | false => simp [(sound.inUse closed).2.2] at given
  | true =>
    obtain ⟨cb, calls, -⟩ := sound.closing closed
    cases cb with
    | none => simp [calls] at given
    | some cb =>
      have most := state.shut_le
      rw [State.calledBack, calls]
      interval_cases state.shut <;> simp [List.range_succ, first, next]

theorem Asked.closed_of_idle {cb : Option ℕ} {times : ℕ} {life : Life} (asked : Asked cb times life)
    (pos : 0 < times) (idle : life.works = []) : life.opened = false := by
  have waiting := asked.waiting
  rw [idle] at waiting
  cases opened : life.opened with
  | false => rfl
  | true =>
    rw [if_pos opened, List.length_nil] at waiting
    omega

/-- When `close` has been called and nothing is under way, every environment is closed. -/
theorem Sound.closed_of_idle (sound : Sound state) (closed : state.closed = true)
    (idle : ∀ env, (state.lives env).works = []) {env : ℕ} (made : env < state.next) :
    (state.lives env).opened = false := by
  have count := sound.next
  have before := sound.old
  obtain ⟨cb, -, cur, old⟩ := sound.closing closed
  have pos : 0 < if state.curEnv = state.oldEnv then 2 else 1 := by split_ifs <;> decide
  rcases lt_trichotomy env state.oldEnv with gone | rfl | later
  · exact (sound.gone env gone).closed_of_idle Nat.one_pos (idle env)
  · exact old.closed_of_idle pos (idle _)
  · obtain rfl : env = state.curEnv := by omega
    exact cur.closed_of_idle pos (idle _)

theorem Sound.progress (sound : Sound state) {env : ℕ} (waiting : (state.lives env).works ≠ []) :
    ∃ action next, (Action.pool env action).Succeeds ∧ Step state (.pool env action) next := by
  obtain ⟨action, life, scheduled, careful, stepped⟩ := (sound.succeeded env).progress waiting
  refine ⟨action, _, ?_, scheduled, life, stepped, rfl⟩
  cases action with
  | finish id rc => exact careful
  | _ => trivial

private theorem pool_remaining {env : ℕ} {action : Life.Action} {next : State}
    (stepped : Step state (.pool env action) next) :
    Work.remaining (next.lives env).works < Work.remaining (state.lives env).works ∧
      ∀ other, other ≠ env → next.lives other = state.lives other := by
  obtain ⟨scheduled, life, stepped, rfl⟩ := stepped
  refine ⟨?_, fun other ne => Function.update_of_ne ne ..⟩
  have here : (state.setLife env life).lives env = life := Function.update_self ..
  simpa only [here] using Life.scheduled_remaining scheduled stepped

/-- Where no sync fails, and unless a rotation has failed, no environment of the cache is closed
twice, or before the syncs that were queued on it, whatever the threads do. If the function that
`_.after(2, cb)` makes passes on its calls from the second on, then the callback given to `close` is
called once, when both environments have been closed, and never if a rotation has failed. What is
under way comes to an end: the threads can go on while work is left on an environment, have less of
it after each step, and when nothing is left, every environment that was ever opened is closed. -/
theorem cache_close_calls_back {after : ℕ → Bool} (second : ∀ call, after call = true ↔ 2 ≤ call)
    {actions : List Action}
    (run : Runs (Guarded (fun _ => Action.Succeeds) Step) .start actions state) :
    (.rotate false ∉ actions → ∀ env, Governed Life.Orderly (state.lives env).trace) ∧
    (.close true ∈ actions → state.calledBack after =
      if .rotate false ∉ actions ∧ (state.lives state.curEnv).opened = false ∧
        (state.lives state.oldEnv).opened = false then 1 else 0) ∧
    (∀ env, (state.lives env).works ≠ [] →
      ∃ action next, (Action.pool env action).Succeeds ∧ Step state (.pool env action) next) ∧
    (∀ env action next, Step state (.pool env action) next →
      Work.remaining (next.lives env).works < Work.remaining (state.lives env).works ∧
        ∀ other, other ≠ env → next.lives other = state.lives other) ∧
    ((∃ cb, .close cb ∈ actions) → (∀ env, (state.lives env).works = []) →
      ∀ env < state.next, (state.lives env).opened = false) := by
  obtain ⟨sound, told⟩ := runs_sound run
  refine ⟨?_, ?_, fun _ => sound.progress, fun _ _ _ => pool_remaining, ?_⟩
  · exact fun fine env => (sound.tidy (.inr (told.failed.not.mpr fine)) env).orderly
  · intro given
    rw [sound.calledBack second (told.counting.mpr given)]
    simp only [State.shut_eq_two, ne_eq, told.failed]
  · exact fun given idle env => sound.closed_of_idle (told.closed.mpr given) idle

/-- A rotation, then `close`, with the three closings mixed. -/
theorem cache_close_calls_back_after_rotation :
    ∃ state, Runs (Guarded (fun _ => Action.Succeeds) Step) .start
        [.openDb 1 7, .rotate true, .close true, .pool 1 (.start 0), .pool 0 (.start 0),
          .pool 2 (.start 0), .pool 1 (.finish 0 none), .pool 1 (.complete 0),
          .pool 2 (.finish 0 none), .pool 0 (.finish 0 none), .pool 2 (.complete 0)] state ∧
      state.calledBack (2 ≤ ·) = 1 ∧ (state.lives 0).opened = true ∧
      Governed Life.Orderly (state.lives 1).trace ∧
      ∃ action next, Step state (.pool 0 action) next := by
  have run : Runs (Guarded (fun _ => Action.Succeeds) Step) .start
      [.openDb 1 7, .rotate true, .close true, .pool 1 (.start 0), .pool 0 (.start 0),
        .pool 2 (.start 0), .pool 1 (.finish 0 none), .pool 1 (.complete 0),
        .pool 2 (.finish 0 none), .pool 0 (.finish 0 none), .pool 2 (.complete 0)] _ :=
    .snoc (.snoc (.snoc (.snoc (.snoc (.snoc (.snoc (.snoc (.snoc (.snoc (.snoc .nil
      ⟨trivial, rfl, .inl rfl, rfl⟩) ⟨trivial, rfl, by decide, rfl⟩) ⟨trivial, rfl, rfl⟩)
      ⟨trivial, rfl, _, ⟨_, .intro [] [] 0 _, rfl⟩, rfl⟩)
      ⟨trivial, rfl, _, ⟨_, .intro [] [] 0 _, rfl⟩, rfl⟩)
      ⟨trivial, rfl, _, ⟨_, .intro [] [] 0 _, rfl⟩, rfl⟩)
      ⟨rfl, rfl, _, ⟨_, .intro [] [] 0 _, rfl⟩, rfl⟩)
      ⟨trivial, rfl, _, ⟨_, _, _, .intro [] [] 0, rfl⟩, rfl⟩)
      ⟨rfl, rfl, _, ⟨_, .intro [] [] 0 _, rfl⟩, rfl⟩)
      ⟨rfl, rfl, _, ⟨_, .intro [] [] 0 _, rfl⟩, rfl⟩)
      ⟨trivial, rfl, _, ⟨_, _, _, .intro [] [] 0, rfl⟩, rfl⟩
  obtain ⟨orderly, called, progress, -⟩ :=
    cache_close_calls_back (fun _ => decide_eq_true_iff) run
  obtain ⟨action, next, -, stepped⟩ := progress 0 (by rintro ⟨⟩)
  exact ⟨_, run, (called (by decide)).trans (if_pos ⟨by decide, rfl, rfl⟩), rfl,
    orderly (by decide) 1, action, next, stepped⟩

end Results

end NodeKv.Cache.Closing
