import NodeKv.Model.Lmdb.Life

/-! # The steps of an environment's life

Every step is of one of eight kinds. Once `close` has been called the environment stays in
closing, and before that nothing of it is closed.
-/

namespace NodeKv.Lmdb

open Machine

namespace Life

/-- A request to the thread pool. -/
def request (function : Callback) (life : Life) : Life :=
  record (.queued life.count) { life with
    works := life.works ++ [⟨life.count, function, .queued⟩]
    count := life.count + 1 }

/-- The environment is closed, and the callback of the user called. -/
def shut (cb : Option ℕ) (life : Life) : Life :=
  { life with
    opened := false
    trace := life.trace ++ [.closed] ++ cb.toList.map .called }

/-- What a step can do. -/
inductive Moves (life : Life) : Action → Life → Prop
  /-- A sync without a callback. -/
  | unasked : Moves life (.sync none) life
  /-- The environment is closed already. -/
  | refused {action : Action} (user : action.isScheduled = false) (closed : life.opened = false) :
      Moves life action life
  | synced (cb : ℕ) (opened : life.opened = true) :
      Moves life (.sync (some cb)) (life.request (.user cb))
  | closes (cb : Option ℕ) (opened : life.opened = true) :
      Moves life (.close cb)
        (request (.close cb) { life with closedDbis := life.closedDbis ++ life.dbs })
  | started {id : ℕ} {works : List (Work Callback (Option Rc))}
      (starts : Work.Starts life.works id works) :
      Moves life (.start id) (record (.started id) { life with works := works })
  | finished {id : ℕ} {rc : Option Rc} {works : List (Work Callback (Option Rc))}
      (finishes : Work.Finishes rc life.works id works) :
      Moves life (.finish id rc) (record (.finished id) { life with works := works })
  | called {id cb : ℕ} {works : List (Work Callback (Option Rc))}
      (completes : Work.Completes (.user cb) none life.works id works) :
      Moves life (.complete id) (record (.called cb) { life with works := works })
  | closed {id : ℕ} {cb : Option ℕ} {works : List (Work Callback (Option Rc))}
      (completes : Work.Completes (.close cb) none life.works id works)
      (opened : life.opened = true) :
      Moves life (.complete id) (shut cb { life with works := works })
  /-- A second close has nothing left to close; its callback is lost. -/
  | lost {id : ℕ} {cb : Option ℕ} {works : List (Work Callback (Option Rc))}
      (completes : Work.Completes (.close cb) none life.works id works)
      (closed : life.opened = false) :
      Moves life (.complete id) { life with works := works }

variable {life next : Life} {action : Action}

theorem nativeSync_opened (function : Callback) (opened : life.opened = true) :
    nativeSync function life = .returned (life.request function) := by
  rw [nativeSync, if_pos opened, request]

private theorem nativeSync_closed (function : Callback) (closed : life.opened = false) :
    nativeSync function life = .threw .envClosed life := by
  simp [nativeSync, closed]

theorem forEach_dbClose (dbs : List ℕ) (opened : life.opened = true) :
    Prog.forEach dbClose dbs life =
      .returned { life with closedDbis := life.closedDbis ++ dbs } := by
  induction dbs generalizing life with
  | nil => simp
  | cons dbi rest ih =>
    rw [Prog.forEach_cons, Prog.seq_returned (by rw [dbClose, if_pos opened]),
      List.append_cons _ dbi rest]
    apply ih
    exact opened

private theorem sync_moves {cb : Option ℕ} (ran : (sync cb life).state? = some next) :
    Moves life (.sync cb) next := by
  cases cb with
  | none =>
    obtain rfl := Option.some.inj ran
    exact .unasked
  | some cb =>
    cases opened : life.opened with
    | true =>
      rw [sync, nativeSync_opened _ opened] at ran
      obtain rfl := Option.some.inj ran
      exact .synced cb opened
    | false =>
      rw [sync, nativeSync_closed _ opened] at ran
      obtain rfl := Option.some.inj ran
      exact .refused rfl opened

private theorem close_moves {cb : Option ℕ} (ran : (close cb life).state? = some next) :
    Moves life (.close cb) next := by
  cases opened : life.opened with
  | true =>
    rw [close, Prog.seq_returned (forEach_dbClose _ opened), nativeSync, if_pos opened] at ran
    obtain rfl := Option.some.inj ran
    exact .closes cb opened
  | false =>
    cases dbs : life.dbs with
    | nil =>
      rw [close, dbs, Prog.seq_returned (Prog.forEach_nil ..), nativeSync_closed _ opened] at ran
      obtain rfl := Option.some.inj ran
      exact .refused rfl opened
    | cons dbi rest =>
      -- The first `mdb_dbi_close` ends the process.
      have crashed : Prog.forEach dbClose life.dbs life = .diverged := by
        rw [dbs, Prog.forEach_cons, Prog.seq_diverged]
        simp [dbClose, opened]
      rw [close, Prog.seq_diverged crashed] at ran
      exact nomatch ran

private theorem complete_moves {id : ℕ} {function : Callback}
    {works : List (Work Callback (Option Rc))}
    (completes : Work.Completes function none life.works id works)
    (ran : (callback function { life with works := works }).state? = some next) :
    Moves life (.complete id) next := by
  cases function with
  | user cb =>
    obtain rfl := Option.some.inj ran
    exact .called completes
  | close cb =>
    cases opened : life.opened with
    | true =>
      have shutting : (callback (.close cb) { life with works := works }) =
          .returned (shut cb { life with works := works }) := by
        cases cb <;> simp [callback, Prog.seq, nativeClose, opened, shut, record, Prog.update]
      rw [shutting] at ran
      obtain rfl := Option.some.inj ran
      exact .closed completes opened
    | false =>
      have thrown : (callback (.close cb) { life with works := works }) =
          .threw .envClosed { life with works := works } := by
        cases cb <;> simp [callback, Prog.seq, nativeClose, opened]
      rw [thrown] at ran
      obtain rfl := Option.some.inj ran
      exact .lost completes opened

theorem Step.moves (stepped : Step life action next) : Moves life action next := by
  cases action with
  | sync cb => exact sync_moves stepped
  | close cb => exact close_moves stepped
  | start id =>
    obtain ⟨works, starts, rfl⟩ := stepped
    exact .started starts
  | finish id rc =>
    obtain ⟨works, finishes, rfl⟩ := stepped
    exact .finished finishes
  | complete id =>
    obtain ⟨function, rc, works, completes, ran⟩ := stepped
    cases rc with
    | none => exact complete_moves completes ran
    | some rc => cases ran

theorem closing_of_closed (closed : life.opened = false) : life.closing = true := by
  simp [closing, closed]

private theorem closing_eq (life : Life) :
    life.closing = (!life.opened || (life.works.map Work.callback).any Callback.isClose) := by
  rw [closing, List.any_map]
  rfl

/-- Work that goes on leaves the environment closing or not. -/
theorem closing_of_callbacks {works : List (Work Callback (Option Rc))}
    (callbacks : works.map Work.callback = life.works.map Work.callback) :
    ({ life with works := works } : Life).closing = life.closing := by
  rw [closing_eq, closing_eq, callbacks]

/-- A close that has been called is under way until the environment is closed for good. -/
theorem Moves.closing (moves : Moves life action next) (already : life.closing = true) :
    next.closing = true := by
  cases moves with
  | unasked => exact already
  | refused user closed => exact already
  | synced cb opened =>
    simp only [Life.closing, request, record, List.any_append, ← Bool.or_assoc] at already ⊢
    rw [already, Bool.true_or]
  | closes cb opened => simp [Life.closing, request, record, Callback.isClose]
  | started starts => exact (closing_of_callbacks starts.callbacks).trans already
  | finished finishes => exact (closing_of_callbacks finishes.callbacks).trans already
  | called completes =>
    rw [closing_eq] at already ⊢
    rwa [completes.callbacks.any_eq, List.any_cons, Callback.isClose, Bool.false_or] at already
  | closed completes opened => exact closing_of_closed rfl
  | lost completes closed => exact closing_of_closed closed

theorem closing_of_completes {id : ℕ} {cb : Option ℕ} {rc : Option Rc}
    {works : List (Work Callback (Option Rc))}
    (completes : Work.Completes (.close cb) rc life.works id works) : life.closing = true := by
  rw [closing_eq, completes.callbacks.any_eq, List.any_cons, Callback.isClose, Bool.true_or,
    Bool.or_true]

/-- A callback of the user is called without setting the environment closing. -/
theorem closing_of_called {id cb : ℕ} {rc : Option Rc} {works : List (Work Callback (Option Rc))}
    (completes : Work.Completes (.user cb) rc life.works id works)
    (closing : ({ life with works := works } : Life).closing = true) : life.closing = true := by
  rw [closing_eq] at closing ⊢
  rwa [completes.callbacks.any_eq, List.any_cons, Callback.isClose, Bool.false_or]

/-- Nothing but a call of `close` sets an environment closing. -/
theorem Moves.closing_cases (moves : Moves life action next) (closing : next.closing = true) :
    life.closing = true ∨ ∃ cb, action = .close cb := by
  cases moves with
  | unasked => exact .inl closing
  | refused user closed => exact .inl closing
  | synced cb opened =>
    refine .inl ?_
    simpa [Life.closing, request, record, Callback.isClose] using closing
  | closes cb opened => exact .inr ⟨cb, rfl⟩
  | started starts => exact .inl ((closing_of_callbacks starts.callbacks).symm.trans closing)
  | finished finishes => exact .inl ((closing_of_callbacks finishes.callbacks).symm.trans closing)
  | called completes => exact .inl (closing_of_called completes closing)
  | closed completes opened => exact .inl (closing_of_completes completes)
  | lost completes closed => exact .inl (closing_of_completes completes)

/-- Handles are closed only by `close`. -/
theorem Moves.closedDbis (moves : Moves life action next)
    (sound : life.closing = false → life.closedDbis = []) (untouched : next.closing = false) :
    next.closedDbis = [] := by
  have before : life.closing = false := by
    cases closing : life.closing with
    | false => rfl
    | true => exact nomatch (moves.closing closing).symm.trans untouched
  cases moves with
  | closes cb opened => simp [Life.closing, request, record, Callback.isClose] at untouched
  | unasked => exact sound before
  | refused user closed => exact sound before
  | synced cb opened => exact sound before
  | started starts => exact sound before
  | finished finishes => exact sound before
  | called completes => exact sound before
  | closed completes opened => exact sound before
  | lost completes closed => exact sound before

/-- No sync has failed of those whose callbacks are due. -/
def Succeeded (life : Life) : Prop :=
  ∀ work ∈ life.works, ∀ rc, work.stage = .finished rc → rc = none

theorem Succeeded.request (succeeded : Succeeded life) (function : Callback) (closedDbis : List ℕ) :
    Succeeded (Life.request function { life with closedDbis := closedDbis }) := by
  intro work member rc finished
  rcases List.mem_append.mp member with old | new
  · exact succeeded work old rc finished
  · rw [List.mem_singleton.mp new] at finished
    cases finished

theorem Succeeded.moves (succeeded : Succeeded life)
    (fine : ∀ id rc, action = .finish id rc → rc = none) (moves : Moves life action next) :
    Succeeded next := by
  cases moves with
  | unasked => exact succeeded
  | refused user closed => exact succeeded
  | synced cb opened => exact succeeded.request (.user cb) life.closedDbis
  | closes cb opened => exact succeeded.request (.close cb) _
  | started starts =>
    exact fun work member rc finished =>
      succeeded work (starts.mem_of_finished member finished) rc finished
  | finished finishes =>
    intro work member rc finished
    rcases finishes.mem_of_finished member finished with old | rfl
    · exact succeeded work old rc finished
    · exact fine _ _ rfl
  | called completes => exact fun work member => succeeded work (completes.subset member)
  | closed completes opened => exact fun work member => succeeded work (completes.subset member)
  | lost completes closed => exact fun work member => succeeded work (completes.subset member)

theorem Moves.closing_of_close {cb : Option ℕ} (moves : Moves life (.close cb) next) :
    next.closing = true := by
  cases moves with
  | refused user closed => exact closing_of_closed closed
  | closes cb opened => simp [Life.closing, request, record, Callback.isClose]

end Life

end NodeKv.Lmdb
