import NodeKv.Proofs.Lmdb.Life

/-! # Sync and close in any order

Each sync captures the environment's pointer, and `close` frees it in the callback of a sync of its
own, without looking for others. So the order of the workers matters, and a second `close` loses
its callback. Sync and close are safe, however the threads are scheduled, where the syncs succeed
and `close` is called once, when every sync asked for before has called back, with no call after it.
-/

namespace NodeKv.Lmdb

open Machine

/-- The callback of the user behind a native callback. -/
def Callback.cb? : Callback → Option ℕ
  | user cb => some cb
  | close cb => cb

namespace Life

/-- What may happen to an `MDB_env` after this past. -/
def Orderly (past : List LifeEvent) : LifeEvent → Prop
  | .closed => .closed ∉ past ∧ ∀ id, .queued id ∈ past → .finished id ∈ past
  | .started _ => .closed ∉ past
  | _ => True

/-- The callbacks that have been called, in order. -/
def called (trace : List LifeEvent) : List ℕ :=
  trace.filterMap fun
    | .called cb => some cb
    | _ => none

/-- The callbacks that are still to be called. -/
def pending (works : List (Work Callback (Option Rc))) : List ℕ :=
  (works.map Work.callback).filterMap Callback.cb?

/-- The condition on the calls, and that syncs succeed. The scheduling is free. -/
def Careful (life : Life) : Action → Prop
  | .sync _ => life.closing = false
  | .close _ => life.closing = false ∧ life.works = []
  | .finish _ rc => rc = none
  | _ => True

/-- What holds along careful runs. -/
structure Tidy (life : Life) : Prop where
  orderly : Governed Orderly life.trace
  opened : life.opened = true → .closed ∉ life.trace
  /-- A request is unfinished, or its end is on record. -/
  settled : ∀ id, .queued id ∈ life.trace → .finished id ∈ life.trace ∨ Work.Unfinished life.works id
  /-- A close is under way on its own, and nothing is after it. -/
  alone : life.closing = true → life.works.length = if life.opened then 1 else 0
  succeeded : Succeeded life

variable {life next : Life} {action : Action}

private theorem opened_of_not_closing (careful : life.closing = false) : life.opened = true := by
  cases opened : life.opened with
  | true => rfl
  | false => cases careful.symm.trans (closing_of_closed opened)

/-- Calls are made on an open environment. -/
theorem Careful.opened (careful : Careful life action) (user : action.isScheduled = false) :
    life.opened = true := by
  cases action with
  | sync cb => exact opened_of_not_closing careful
  | close cb => exact opened_of_not_closing careful.1
  | start id => cases user
  | finish id rc => cases user
  | complete id => cases user

theorem Careful.fine (careful : Careful life action) (id : ℕ) (rc : Option Rc)
    (finish : action = .finish id rc) : rc = none := by
  rw [finish] at careful
  exact careful

/-- A closed environment has no work left. -/
theorem Tidy.works_of_closed (tidy : Tidy life) (closed : life.opened = false) :
    life.works = [] := by
  have none := tidy.alone (closing_of_closed closed)
  rw [closed] at none
  exact List.length_eq_zero_iff.mp none

theorem Tidy.opened_of_mem (tidy : Tidy life) {work : Work Callback (Option Rc)}
    (member : work ∈ life.works) : life.opened = true := by
  cases opened : life.opened with
  | true => rfl
  | false =>
    rw [tidy.works_of_closed opened] at member
    cases member

/-- The close that is completed is all the work there is. -/
theorem Tidy.alone_of_completes (tidy : Tidy life) {id : ℕ} {cb : Option ℕ} {rc : Option Rc}
    {works : List (Work Callback (Option Rc))}
    (completes : Work.Completes (.close cb) rc life.works id works) :
    life.works = [⟨id, .close cb, .finished rc⟩] ∧ works = [] := by
  have single := tidy.alone (closing_of_completes completes)
  rw [tidy.opened_of_mem completes.mem] at single
  exact completes.of_length_one single

/-- A request leaves its mark. -/
theorem Tidy.request (tidy : Tidy life) (closedDbis : List ℕ) {function : Callback}
    (idle : life.closing = false) (alone : function.isClose = true → life.works = []) :
    Tidy (Life.request function { life with closedDbis := closedDbis }) := by
  have opened := opened_of_not_closing idle
  refine ⟨tidy.orderly.snoc trivial, ?_, ?_, ?_, tidy.succeeded.request function closedDbis⟩
  · intro _ member
    simp only [Life.request, record, List.mem_append, List.mem_singleton, reduceCtorEq,
      or_false] at member
    exact tidy.opened opened member
  · intro id member
    simp only [Life.request, record, List.mem_append, List.mem_singleton,
      LifeEvent.queued.injEq] at member ⊢
    rcases member with old | rfl
    · rcases tidy.settled id old with done | ⟨work, waiting, same, unfinished⟩
      · exact .inl (.inl done)
      · exact .inr ⟨work, List.mem_append_left _ waiting, same, unfinished⟩
    · exact .inr ⟨⟨life.count, function, .queued⟩, by simp, rfl, rfl⟩
  · intro closing
    have asked : function.isClose = true := by
      simp only [Life.closing, Life.request, record, List.any_append, List.any_cons, List.any_nil,
        Bool.or_false, ← Bool.or_assoc] at closing idle
      rwa [idle, Bool.false_or] at closing
    simp [Life.request, record, opened, alone asked]

/-- A step of the threads on one piece of work, which neither queues nor closes. -/
theorem Tidy.scheduled (tidy : Tidy life) {works : List (Work Callback (Option Rc))}
    {event : LifeEvent} (allowed : Orderly life.trace event) (closed : event ≠ .closed)
    (queued : ∀ id, event ≠ .queued id)
    (unfinished : ∀ id, Work.Unfinished life.works id →
      event = .finished id ∨ Work.Unfinished works id)
    (alone : ({ life with works := works } : Life).closing = true →
      works.length = if life.opened then 1 else 0)
    (succeeded : Succeeded { life with works := works }) :
    Tidy (record event { life with works := works }) := by
  refine ⟨tidy.orderly.snoc allowed, ?_, ?_, alone, succeeded⟩
  · intro opened member
    rcases List.mem_append.mp member with old | new
    · exact tidy.opened opened old
    · exact closed (List.mem_singleton.mp new).symm
  · intro id member
    rcases List.mem_append.mp member with old | new
    · rcases tidy.settled id old with done | waiting
      · exact .inl (List.mem_append_left _ done)
      · rcases unfinished id waiting with rfl | still
        · exact .inl (List.mem_append_right _ (List.mem_singleton_self _))
        · exact .inr still
    · exact absurd (List.mem_singleton.mp new).symm (queued id)

/-- The environment is closed when nothing else is under way. -/
theorem Tidy.shut (tidy : Tidy life) {id : ℕ} {cb : Option ℕ}
    {works : List (Work Callback (Option Rc))}
    (completes : Work.Completes (.close cb) none life.works id works) :
    Tidy (Life.shut cb { life with works := works }) := by
  obtain ⟨only, rfl⟩ := tidy.alone_of_completes completes
  have done (id : ℕ) (queued : .queued id ∈ life.trace) : .finished id ∈ life.trace := by
    rcases tidy.settled id queued with done | ⟨work, member, -, waiting⟩
    · exact done
    · rw [only, List.mem_singleton] at member
      rw [member] at waiting
      cases waiting
  have closed : Governed Orderly (life.trace ++ [.closed]) :=
    tidy.orderly.snoc ⟨tidy.opened (tidy.opened_of_mem completes.mem), done⟩
  refine ⟨?_, by rintro ⟨⟩, ?_, fun _ => rfl, by rintro work ⟨⟩⟩
  · cases cb with
    | none => simpa [Life.shut] using closed
    | some cb => exact closed.snoc trivial
  · intro id member
    refine .inl ?_
    have queued : .queued id ∈ life.trace := by
      cases cb <;> simpa [Life.shut] using member
    simp [Life.shut, done id queued]

theorem Tidy.moves (tidy : Tidy life) (careful : Careful life action)
    (moves : Moves life action next) : Tidy next := by
  have succeeded := tidy.succeeded.moves careful.fine moves
  cases moves with
  | unasked => exact tidy
  | refused user closed => cases closed.symm.trans (careful.opened user)
  | synced cb opened => exact tidy.request life.closedDbis careful (by rintro ⟨⟩)
  | closes cb opened => exact tidy.request _ careful.1 fun _ => careful.2
  | started starts =>
    obtain ⟨function, queued⟩ := starts.mem
    have opened := tidy.opened_of_mem queued
    refine tidy.scheduled (tidy.opened opened) (by rintro ⟨⟩) (by rintro _ ⟨⟩) ?_ ?_ succeeded
    · exact fun _ waiting => .inr (starts.unfinished waiting)
    · rw [closing_of_callbacks starts.callbacks, starts.length_eq]
      exact tidy.alone
  | finished finishes =>
    refine tidy.scheduled trivial (by rintro ⟨⟩) (by rintro _ ⟨⟩) ?_ ?_ succeeded
    · intro id waiting
      rcases finishes.unfinished waiting with rfl | still
      · exact .inl rfl
      · exact .inr still
    · rw [closing_of_callbacks finishes.callbacks, finishes.length_eq]
      exact tidy.alone
  | called completes =>
    refine tidy.scheduled trivial (by rintro ⟨⟩) (by rintro _ ⟨⟩) ?_ ?_ succeeded
    · exact fun _ waiting => .inr (completes.unfinished waiting)
    · intro closing
      have opened := tidy.opened_of_mem completes.mem
      have single := tidy.alone (closing_of_called completes closing)
      rw [opened] at single
      -- With a close under way the work taken out would have been the close.
      rw [Life.closing, opened, (completes.of_length_one single).2] at closing
      cases closing
  | closed completes opened => exact tidy.shut completes
  | lost completes closed => cases closed.symm.trans (tidy.opened_of_mem completes.mem)

/-- Requests add the callback they were passed, completions call it. -/
theorem Tidy.callbacks (tidy : Tidy life) (careful : Careful life action)
    (moves : Moves life action next) :
    (called next.trace ++ pending next.works).Perm
      (called life.trace ++ pending life.works ++ action.passed) := by
  have completed {function : Callback} {rc : Option Rc} {id : ℕ}
      {works : List (Work Callback (Option Rc))}
      (completes : Work.Completes function rc life.works id works) :
      (called life.trace ++ (function.cb?.toList ++ pending works)).Perm
        (called life.trace ++ pending life.works) := by
    have taken := (completes.callbacks.filterMap Callback.cb?).symm
    rw [List.filterMap_cons] at taken
    refine List.Perm.append_left _ ?_
    cases cb : function.cb? <;> simpa [pending, cb] using taken
  cases moves with
  | unasked => simp [Action.passed]
  | refused user closed => exact nomatch closed.symm.trans (careful.opened user)
  | synced cb opened =>
    simp [Life.request, record, called, pending, Action.passed, Callback.cb?]
  | closes cb opened =>
    cases cb <;>
      simp [Life.request, record, called, pending, Action.passed, Callback.cb?, List.filterMap_cons]
  | started starts =>
    simp [record, called, pending, starts.callbacks, Action.passed]
  | finished finishes =>
    simp [record, called, pending, finishes.callbacks, Action.passed]
  | called completes =>
    simpa [record, called, Action.passed, Callback.cb?] using completed completes
  | @closed id cb works completes opened =>
    cases cb <;> simpa [Life.shut, called, Action.passed, Callback.cb?] using completed completes
  | lost completes closed => exact nomatch closed.symm.trans (tidy.opened_of_mem completes.mem)

theorem fresh_tidy (dbs : List ℕ) : Tidy (fresh dbs) :=
  ⟨.nil, by rintro _ ⟨⟩, by rintro _ ⟨⟩, by rintro ⟨⟩, by rintro _ ⟨⟩⟩

private theorem callback_ends (function : Callback) (life : Life) :
    ∃ next, (callback function life).state? = some next := by
  cases function with
  | user cb => exact ⟨_, rfl⟩
  | close cb =>
    cases opened : life.opened <;> cases cb <;>
      simp [callback, Prog.seq, nativeClose, opened, Prog.update]

/-- While work is left, the threads can go on. -/
theorem Succeeded.progress (succeeded : Succeeded life) (waiting : life.works ≠ []) :
    ∃ action next, action.isScheduled = true ∧ Guarded Careful Step life action next := by
  rcases Work.progress waiting with ⟨id, works, starts⟩ | finishes |
    ⟨-, function, rc, id, works, completes⟩
  · exact ⟨.start id, _, rfl, trivial, works, starts, rfl⟩
  · obtain ⟨id, works, finishes⟩ := finishes none
    exact ⟨.finish id none, _, rfl, rfl, works, finishes, rfl⟩
  · obtain rfl := succeeded _ completes.mem rc rfl
    obtain ⟨next, ended⟩ := callback_ends function { life with works := works }
    exact ⟨.complete id, next, rfl, trivial, function, none, works, completes, ended⟩

/-- Whatever the threads do, less work is left. -/
theorem scheduled_remaining (scheduled : action.isScheduled = true)
    (stepped : Step life action next) :
    Work.remaining next.works < Work.remaining life.works := by
  cases stepped.moves with
  | unasked => exact nomatch scheduled
  | refused user closed => exact nomatch user.symm.trans scheduled
  | synced cb opened => exact nomatch scheduled
  | closes cb opened => exact nomatch scheduled
  | started starts => exact starts.remaining_lt
  | finished finishes => exact finishes.remaining_lt
  | called completes => exact completes.remaining_lt
  | closed completes opened => exact completes.remaining_lt
  | lost completes closed => exact completes.remaining_lt

/-- In careful runs the environment is closed once at most, after all syncs that were queued, and no
sync starts later. Each callback has been called once or is still due, and what is due gets done:
the threads can go on while work is left, and have less of it after each step. -/
theorem sync_and_close_orderly {dbs : List ℕ} {actions : List Action} {life : Life}
    (run : Runs (Guarded Careful Step) (fresh dbs) actions life) :
    Governed Orderly life.trace ∧
    (called life.trace ++ pending life.works).Perm (actions.flatMap Action.passed) ∧
    (life.works ≠ [] →
      ∃ action next, action.isScheduled = true ∧ Guarded Careful Step life action next) ∧
    ∀ action next, action.isScheduled = true → Step life action next →
      Work.remaining next.works < Work.remaining life.works := by
  have kept := run.preserves (fun actions life => Tidy life ∧
    (called life.trace ++ pending life.works).Perm (actions.flatMap Action.passed))
    ⟨fresh_tidy dbs, .nil⟩ ?_
  · exact ⟨kept.1.orderly, kept.2, kept.1.succeeded.progress, fun _ _ => scheduled_remaining⟩
  · rintro actions state action next ⟨tidy, accounted⟩ ⟨careful, stepped⟩
    refine ⟨tidy.moves careful stepped.moves, ?_⟩
    rw [List.flatMap_append, List.flatMap_singleton]
    exact (tidy.callbacks careful stepped.moves).trans (accounted.append_right _)

/-- Two syncs, whose workers finish the other way round, and a close once both have called back. -/
theorem sync_and_close_orderly_in_turn :
    ∃ life, Runs (Guarded Careful Step) (fresh [2])
        [.sync (some 0), .sync (some 1), .start 0, .start 1, .finish 1 none, .complete 1,
          .finish 0 none, .complete 0, .close (some 2), .start 2, .finish 2 none, .complete 2]
        life ∧
      life.opened = false ∧ life.works = [] ∧ Governed Orderly life.trace ∧
      (called life.trace).Perm [0, 1, 2] := by
  have synced : Runs (Guarded Careful Step) (fresh [2])
      [.sync (some 0), .sync (some 1), .start 0, .start 1, .finish 1 none, .complete 1,
        .finish 0 none, .complete 0]
      ⟨true, [2], [], [], 2, [.queued 0, .queued 1, .started 0, .started 1, .finished 1, .called 1,
        .finished 0, .called 0]⟩ :=
    .snoc (.snoc (.snoc (.snoc (.snoc (.snoc (.snoc (.snoc .nil
      ⟨rfl, rfl⟩) ⟨rfl, rfl⟩)
      ⟨trivial, _, .intro [] _ 0 _, rfl⟩) ⟨trivial, _, .intro [_] [] 1 _, rfl⟩)
      ⟨rfl, _, .intro [_] [] 1 _, rfl⟩) ⟨trivial, _, _, _, .intro [_] [] 1, rfl⟩)
      ⟨rfl, _, .intro [] [] 0 _, rfl⟩) ⟨trivial, _, _, _, .intro [] [] 0, rfl⟩
  have run : Runs (Guarded Careful Step) (fresh [2])
      (_ ++ [.close (some 2), .start 2, .finish 2 none, .complete 2]) _ :=
    synced.append (.snoc (.snoc (.snoc (.snoc .nil ⟨⟨rfl, rfl⟩, rfl⟩)
      ⟨trivial, _, .intro [] [] 2 _, rfl⟩) ⟨rfl, _, .intro [] [] 2 _, rfl⟩)
      ⟨trivial, _, _, _, .intro [] [] 2, rfl⟩)
  obtain ⟨orderly, accounted, -⟩ := sync_and_close_orderly run
  exact ⟨_, run, rfl, rfl, orderly, accounted⟩

/-- A close whose own sync overtakes an earlier one closes the environment under it, and of two
closes only the first one's callback is called. -/
theorem close_overtakes_sync :
    (∃ life, Runs Step (fresh [2])
        [.sync (some 0), .close (some 1), .start 0, .start 1, .finish 1 none, .complete 1] life ∧
      Work.Unfinished life.works 0 ∧ ¬Governed Orderly life.trace) ∧
    ∃ life, Runs Step (fresh [2])
        [.close (some 0), .close (some 1), .start 0, .start 1, .finish 0 none, .finish 1 none,
          .complete 0, .complete 1] life ∧
      life.works = [] ∧ called life.trace = [0] := by
  refine ⟨⟨_, .snoc (.snoc (.snoc (.snoc (.snoc (.snoc .nil rfl) rfl)
      ⟨_, .intro [] _ 0 _, rfl⟩) ⟨_, .intro [_] [] 1 _, rfl⟩) ⟨_, .intro [_] [] 1 _, rfl⟩)
      ⟨_, _, _, .intro [_] [] 1, rfl⟩, ⟨_, List.mem_singleton_self _, rfl, rfl⟩, ?_⟩,
    _, .snoc (.snoc (.snoc (.snoc (.snoc (.snoc (.snoc (.snoc .nil rfl) rfl)
      ⟨_, .intro [] _ 0 _, rfl⟩) ⟨_, .intro [_] [] 1 _, rfl⟩)
      ⟨_, .intro [] _ 0 _, rfl⟩) ⟨_, .intro [_] [] 1 _, rfl⟩)
      ⟨_, _, _, .intro [] _ 0, rfl⟩) ⟨_, _, _, .intro [] [] 1, rfl⟩, rfl, rfl⟩
  intro orderly
  -- The sync numbered 0 was queued before the environment was closed, and never finished.
  have finished := (orderly [.queued 0, .queued 1, .started 0, .started 1, .finished 1] .closed
    [.called 1] rfl).2 0 (by decide)
  revert finished
  decide

end Life

end NodeKv.Lmdb
