import NodeKv.Soundness.Cache.Freshness
import NodeKv.Soundness.Cache.Restarts

/-! # What the cache answers across restarts

A restart forgets what is still queued, because `close` commits nothing. If the cache is only closed
with nothing queued, and its rotations were harmless, then no life of it answers with anything but
what the last call on a key has put there, whichever life the call was made in. A rotation or a
removal of stale directories may drop a value, so the answer may always be null.
-/

namespace NodeKv.Cache

open Machine Directories

variable {D K V : Type*}

/-- The calls made on open caches, in the order of their lives. -/
def Stored.calls (actions : List (Stored.Action D K V)) : List (Cache.Action D K V) :=
  actions.filterMap fun
    | .act action => some action
    | _ => none

theorem Stored.calls_append (actions more : List (Stored.Action D K V)) :
    Stored.calls (actions ++ more) = Stored.calls actions ++ Stored.calls more :=
  List.filterMap_append

variable [DecidableEq D] [DecidableEq K]

/-- Nothing is queued, and no rotation so far has lost a delete. -/
structure Settled (full : Full D K V) (size : JsNumber) (state : State D K V) : Prop where
  cur : state.batchOps state.host.curEnv = []
  old : state.batchOps state.host.oldEnv = []
  harmless : ∀ rotation ∈ state.host.rotations, rotation.Harmless full size

/-- A cache is closed when it is settled. -/
def Stored.ClosesSettled (full : Full D K V) (size : JsNumber) (stored : Stored D K V)
    (action : Stored.Action D K V) : Prop :=
  action = .close → ∀ opened, stored.cache = some opened → Settled full size opened.state

/-- What a cache without directories shows is what the calls so far have left there. -/
inductive StaysFresh (full : Full D K V) (size : JsNumber) (initial : Contents D K V)
    (calls : List (Update (D × K) V)) : Durable D K V → Prop
  | closed {cur old : Contents D K V}
      (fresh : ∀ key val, (cur key).or (old key) = some val → applyAll initial calls key = some val) :
      StaysFresh full size initial calls (.closed cur old)
  | running {state : State D K V} {pair : Pair D K V} (refines : Refines size state pair)
      (fresh : Pair.FreshAfter full size initial calls pair) :
      StaysFresh full size initial calls (.running state)

section Steps

variable {full : Full D K V} {size : JsNumber} {initial : Contents D K V}

theorem Settled.drained {state : State D K V} {pair : Pair D K V}
    (settled : Settled full size state) (refines : Refines size state pair) :
    pair.cur.queue = [] ∧ pair.old.queue = [] := by
  constructor
  · rw [← Pair.queue_cur, ← refines.queues, ← refines.curEnv, settled.cur]
  · rw [← Pair.queue_old, ← refines.queues, ← refines.oldEnv, settled.old]

/-- What is visible in a settled cache is what its environments hold. -/
theorem Settled.visible {state : State D K V} {pair : Pair D K V}
    (settled : Settled full size state)
    (refines : Refines size state pair) (key : D × K) :
    (state.native state.host.curEnv key).or (state.native state.host.oldEnv key) =
      pair.visible key := by
  obtain ⟨cur, old⟩ := settled.drained refines
  simp [Pair.visible, Generation.settled, cur, old, refines.curEnv, refines.oldEnv,
    refines.curContents, refines.oldContents]

theorem StaysFresh.step {actions : List (Stored.Action D K V)} {durable next : Durable D K V}
    (fresh : StaysFresh full size initial (history (Stored.calls actions)) durable)
    {action : Stored.Action D K V} (stepped : Durable.Step full size durable action next)
    (settled : action = .close → ∀ state, durable.state? = some state → Settled full size state) :
    StaysFresh full size initial (history (Stored.calls (actions ++ [action]))) next := by
  have quiet (other : Stored.Action D K V) (none : Stored.calls [other] = []) :
      Stored.calls (actions ++ [other]) = Stored.calls actions := by
    rw [Stored.calls_append, none, List.append_nil]
  cases stepped with
  | construct cur old =>
    cases fresh with
    | closed fresh =>
      refine .running (opened_refines size cur old) fun _ => ⟨(Pair.opened_fresh size cur old).1, ?_⟩
      rw [quiet _ rfl]
      exact fresh
  | @act state next action stepped =>
    cases fresh with
    | running refines fresh =>
      obtain ⟨depth, ended⟩ := stepped
      obtain ⟨pair', acted, refines'⟩ := (act_refines full refines depth action).of_state? ended
      have grown := (Pair.act_logs full size depth action _).state? acted
      refine .running refines' fun harmless => ?_
      obtain ⟨ready, fresh⟩ := fresh fun rotation member => harmless rotation (grown.subset member)
      rw [Stored.calls_append]
      exact (Pair.act_fresh full ready fresh depth action).state? acted harmless
  | rmStale =>
    rw [quiet _ rfl]
    exact fresh
  | close state =>
    cases fresh with
    | @running _ pair refines fresh =>
      have calm := settled rfl state rfl
      obtain ⟨-, fresh⟩ := fresh fun rotation member =>
        calm.harmless rotation (refines.rotations.symm ▸ member)
      refine .closed fun key val seen => ?_
      rw [quiet _ rfl]
      rw [calm.visible refines] at seen
      exact fresh key val seen

end Steps

end NodeKv.Cache
