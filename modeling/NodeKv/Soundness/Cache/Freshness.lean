import NodeKv.Proofs.Cache.Actions

/-! # Freshness of cached values

A cache may forget, but it must not answer with a value that was deleted or overwritten. What a
`get` can see, once the queues are carried out, is `visible`; it must agree with the history of
calls wherever it is not null. A rotation breaks this when it clears the queue it has just failed
on: the deletes pushed behind that queue go with it, and a key they were to remove lives on in the
rotated-out environment. Rotations that leave no such key behind keep the cache fresh.
-/

namespace NodeKv.Cache

open Machine Lmdb

variable {D K V : Type*} [DecidableEq D] [DecidableEq K]

/-- Either the deletes of the queue re-enter it in a batch that fits, and so are committed, or they
concern no key that the environment has committed. -/
def Rotation.Harmless (full : Full D K V) (size : JsNumber) (rotation : Rotation D K V) : Prop :=
  match reentered size rotation.ops (shadows rotation.ops) with
  | some batch => ∀ attempt, full attempt rotation.committed batch = false
  | none => ∀ key, lastOn key (rotation.ops.map BatchOp.exec) = some none →
      rotation.committed key = none

theorem Rotation.Harmless.not_overflows {full : Full D K V} {size : JsNumber}
    {store : Contents D K V} {ops : List (BatchOp D K V)}
    (harmless : Rotation.Harmless full size ⟨store, ops⟩) :
    ¬Pair.Overflows full size ⟨store, ops⟩ (shadows ops) := by
  rintro ⟨attempt, batch, hit, overflow⟩
  simp only [Rotation.Harmless, hit] at harmless
  rw [harmless attempt] at overflow
  contradiction

/-- The deletes behind a queue touch only keys that the queue touches itself. -/
theorem lastOn_shadows {ops pushed later : List (BatchOp D K V)}
    (replayable : ∀ op ∈ ops, Replayable op) (split : shadows ops = pushed ++ later) {key : D × K}
    (untouched : lastOn key (ops.map BatchOp.exec) = none) :
    lastOn key (pushed.map BatchOp.exec) = none := by
  rw [lastOn_eq_none, List.forall_mem_map] at untouched ⊢
  intro del member
  have shadowed : del ∈ shadows ops := split ▸ List.mem_append_left _ member
  obtain ⟨op, queued, equal⟩ := List.mem_filterMap.mp shadowed
  have other := untouched op queued
  rcases op with ⟨db, call, extra⟩
  obtain rfl : extra = some db := replayable _ queued
  cases call with
  | put key val => exact nomatch equal
  | del key =>
    obtain rfl := Option.some.inj equal
    exact other

omit [DecidableEq D] [DecidableEq K] in
private theorem shadows_dels {ops pushed later : List (BatchOp D K V)}
    (split : shadows ops = pushed ++ later) :
    ∀ update ∈ pushed.map BatchOp.exec, update.isDel = true := by
  rw [List.forall_mem_map]
  intro del member
  have shadowed : del ∈ shadows ops := split ▸ List.mem_append_left _ member
  obtain ⟨⟨db, call, extra⟩, -, equal⟩ := List.mem_filterMap.mp shadowed
  rcases extra with none | extra
  · exact nomatch equal
  · cases call with
    | put key val => exact nomatch equal
    | del key =>
      obtain rfl := Option.some.inj equal
      rfl

theorem Generation.settled_apply (gen : Generation D K V) (key : D × K) :
    gen.settled key =
      (lastOn key (gen.queue.map BatchOp.exec)).getD (gen.contents key) :=
  applyAll_apply ..

section Behind

variable {full : Full D K V} {size : JsNumber} {store : Contents D K V}
  {ops : List (BatchOp D K V)} {key : D × K}

/-- A key the queue deletes last is not left behind in the rotated-out environment. -/
theorem behind_deleted (harmless : Rotation.Harmless full size ⟨store, ops⟩)
    (deleted : lastOn key (ops.map BatchOp.exec) = some none) :
    (behind size store ops (shadows ops)).contents key = none := by
  cases hit : reentered size ops (shadows ops) with
  | none =>
    simp only [Rotation.Harmless, hit] at harmless
    rw [behind_of_none hit]
    exact harmless key deleted
  | some batch =>
    obtain ⟨pushed, later, -, split, rfl, equal⟩ := behind_of_some store hit
    rw [equal]
    change applyAll store _ key = none
    rw [applyAll_apply, List.map_append, lastOn_append, deleted]
    rcases lastOn_of_dels (shadows_dels split) key with none | again
    · rw [none]; rfl
    · rw [again]; rfl

/-- A key the queue does not touch keeps its value in the rotated-out environment. -/
theorem behind_untouched (replayable : ∀ op ∈ ops, Replayable op)
    (untouched : lastOn key (ops.map BatchOp.exec) = none) :
    (behind size store ops (shadows ops)).contents key = store key := by
  cases hit : reentered size ops (shadows ops) with
  | none => rw [behind_of_none hit]
  | some batch =>
    obtain ⟨pushed, later, -, split, rfl, equal⟩ := behind_of_some store hit
    rw [equal]
    change applyAll store _ key = store key
    rw [applyAll_apply, List.map_append, lastOn_append, untouched,
      lastOn_shadows replayable split untouched]
    rfl

end Behind

namespace Pair

/-- What a `get` sees once both queues are carried out. -/
def visible (pair : Pair D K V) (key : D × K) : Option V :=
  (pair.cur.settled key).or (pair.old.settled key)

/-- What is visible is what the calls so far have left there. -/
def Fresh (initial : Contents D K V) (calls : List (Update (D × K) V)) (pair : Pair D K V) : Prop :=
  ∀ key val, pair.visible key = some val → applyAll initial calls key = some val

/-- The same of the current generation alone. -/
def CurFresh (initial : Contents D K V) (calls : List (Update (D × K) V)) (pair : Pair D K V) :
    Prop :=
  ∀ key val, pair.cur.settled key = some val → applyAll initial calls key = some val

/-- The state between actions, provided that the rotations so far were harmless. -/
def FreshAfter (full : Full D K V) (size : JsNumber) (initial : Contents D K V)
    (calls : List (Update (D × K) V)) (pair : Pair D K V) : Prop :=
  (∀ rotation ∈ pair.rotations, rotation.Harmless full size) →
    Ready size pair ∧ Fresh initial calls pair

variable {full : Full D K V} {size : JsNumber} {pair next : Pair D K V}

/-- After harmless rotations nothing is visible that the current environment was not to hold. -/
theorem Rotated.visible_of_harmless (rotated : Rotated full size pair next)
    (replayable : ∀ op ∈ pair.cur.queue, Replayable op)
    (harmless : ∀ rotation ∈ next.rotations, rotation.Harmless full size) {key : D × K} {val : V}
    (seen : next.visible key = some val) : pair.cur.settled key = some val := by
  obtain ⟨again, log, old, -⟩ := rotated.log
  have last : Rotation.Harmless full size
      ⟨if again = 0 then pair.cur.contents else fun _ => none, pair.cur.queue⟩ := by
    apply harmless
    rw [log]
    refine List.mem_append_right _ ?_
    split_ifs with once
    · exact List.mem_cons_self ..
    · exact List.mem_cons_of_mem _ (List.mem_replicate.mpr ⟨once, rfl⟩)
  have current : next.cur.settled key =
      (lastOn key (pair.cur.queue.map BatchOp.exec)).getD none := by
    rw [rotated.cur]
    exact (Generation.mk (fun _ => none) pair.cur.queue).settled_apply key
  have rest : next.old.settled key = _ := congrFun (congrArg Generation.settled old) key
  rw [Pair.visible, current, rest] at seen
  rw [Generation.settled_apply]
  cases touched : lastOn key (pair.cur.queue.map BatchOp.exec) with
  | none =>
    -- The key is seen in the rotated-out environment, which must be the one that ran full first.
    rw [touched] at seen
    change (behind _ _ _ _).contents key = some val at seen
    rw [behind_untouched replayable touched] at seen
    split_ifs at seen with once
    exact seen
  | some written =>
    cases written with
    | none =>
      rw [touched] at seen
      change (behind _ _ _ _).contents key = some val at seen
      rw [behind_deleted last touched] at seen
      contradiction
    | some put =>
      rw [touched] at seen
      exact seen

private theorem enqueueCur_settled (op : BatchOp D K V) :
    (pair.enqueueCur op).cur.settled = op.exec.apply pair.cur.settled := by
  simp only [Generation.settled, enqueueCur, List.map_append, List.map_singleton, applyAll_concat]

private theorem enqueueOld_settled (op : BatchOp D K V) :
    (pair.enqueueOld op).old.settled = op.exec.apply pair.old.settled := by
  simp only [Generation.settled, enqueueOld, List.map_append, List.map_singleton, applyAll_concat]

section Fresh

variable {initial : Contents D K V} {calls : List (Update (D × K) V)}

theorem Fresh.congr (fresh : Fresh initial calls pair) (cur : next.cur.settled = pair.cur.settled)
    (old : next.old.settled = pair.old.settled) : Fresh initial calls next := by
  intro key val seen
  rw [visible, cur, old] at seen
  exact fresh key val seen

theorem Fresh.curFresh (fresh : Fresh initial calls pair) : CurFresh initial calls pair := by
  intro key val held
  exact fresh key val (by rw [visible, held, Option.some_or])

theorem CurFresh.enqueue (fresh : CurFresh initial calls pair) (op : BatchOp D K V) :
    CurFresh initial (calls ++ [op.exec]) (pair.enqueueCur op) := by
  intro key val held
  rw [enqueueCur_settled] at held
  rw [applyAll_concat]
  by_cases same : key = op.exec.key
  · rwa [same, Update.apply_self] at held ⊢
  · rw [Update.apply_of_ne _ same] at held ⊢
    exact fresh key val held

/-- After a rotation only the current generation of before matters. -/
theorem CurFresh.rotated (fresh : CurFresh initial calls pair)
    (rotated : Rotated full size pair next)
    (replayable : ∀ op ∈ pair.cur.queue, Replayable op) :
    FreshAfter full size initial calls next := by
  intro harmless
  refine ⟨rotated.ready, ?_⟩
  intro key val seen
  exact fresh key val (rotated.visible_of_harmless replayable harmless seen)

theorem CurFresh.thrown (fresh : CurFresh initial calls pair)
    (replayable : ∀ op ∈ pair.cur.queue, Replayable op) {error : Error}
    (thrown : Thrown full size pair error next) : FreshAfter full size initial calls next := by
  cases thrown with
  | closed rotated again => exact fresh.rotated rotated replayable
  | asserted store overfull found logged overflows =>
    intro harmless
    exact absurd overflows (harmless _ logged).not_overflows

/-- A call that took effect on the current generation, and on the old one if it is a delete. -/
theorem Fresh.called (fresh : Fresh initial calls pair) {update : Update (D × K) V}
    (cur : next.cur.settled = update.apply pair.cur.settled)
    (old : update.isDel = false ∧ next.old.settled = pair.old.settled ∨
      next.old.settled = update.apply pair.old.settled) :
    Fresh initial (calls ++ [update]) next := by
  intro key val seen
  rw [visible, cur] at seen
  rw [applyAll_concat]
  by_cases same : key = update.key
  · subst same
    rw [Update.apply_self] at seen ⊢
    cases update with
    | put key put => exact seen
    | del key =>
      rcases old with ⟨isPut, -⟩ | deleted
      · exact nomatch isPut
      · rw [deleted, Update.apply_self] at seen
        exact nomatch seen
  · rw [Update.apply_of_ne _ same] at seen ⊢
    refine fresh key val ?_
    rcases old with ⟨-, kept⟩ | deleted
    · rwa [kept] at seen
    · rwa [deleted, Update.apply_of_ne _ same] at seen

theorem FreshAfter.same (after : FreshAfter full size initial calls pair)
    {env : ℕ} (same : OnlyGone env pair next) : FreshAfter full size initial calls next := by
  intro harmless
  obtain ⟨ready, fresh⟩ := after (same.rotations ▸ harmless)
  refine ⟨⟨same.cur ▸ ready.replayable, same.cur ▸ ready.short⟩, ?_⟩
  exact fresh.congr (congrArg _ same.cur) (congrArg _ same.old)

private theorem flushCur_fresh (ready : Ready size pair) (fresh : Fresh initial calls pair)
    (depth : ℕ) :
    (flush full size depth (pair.epoch + 1) pair).Meets True
      (FreshAfter full size initial calls) fun _ => FreshAfter full size initial calls := by
  refine (flushCur_meets full depth pair ready.replayable (ready.short.mono (Nat.sub_le _ _))).mono
    id ?_ (fun _ _ => fresh.curFresh.thrown ready.replayable)
  rintro next ⟨empty, kept | rotated⟩
  · exact fun _ => ⟨.of_empty empty, fresh.congr kept.settled (congrArg _ kept.old)⟩
  · exact fresh.curFresh.rotated rotated ready.replayable

private theorem flushOld_fresh (ready : Ready size pair) (fresh : Fresh initial calls pair)
    (depth : ℕ) :
    (flush full size depth pair.epoch pair).Meets True
      (fun next => Ready size next ∧ Fresh initial calls next)
      fun _ next => Ready size next ∧ Fresh initial calls next := by
  have kept : ∀ {next : Pair D K V}, KeptOld pair next →
      Ready size next ∧ Fresh initial calls next := by
    intro next kept
    refine ⟨⟨kept.cur ▸ ready.replayable, kept.cur ▸ ready.short⟩, ?_⟩
    exact fresh.congr (congrArg _ kept.cur) kept.settled
  exact (flushOld_meets full depth pair).mono id (fun _ ended => kept ended.2)
    (fun _ _ ended => kept ended.1)

private theorem put_fresh (ready : Ready size pair) (fresh : Fresh initial calls pair) (depth : ℕ)
    (db : D)
    (key : K) (val : V) :
    (put size (flush full size depth) db key val pair).Meets True
      (FreshAfter full size initial (calls ++ [.put (db, key) val]))
      fun _ => FreshAfter full size initial (calls ++ [.put (db, key) val]) := by
  have queued := fresh.curFresh.enqueue ⟨db, .put key val, some db⟩
  have all := ready.replayable_concat ⟨db, .put key val, some db⟩ rfl
  refine (pushCur_meets full depth ready ⟨db, .put key val, some db⟩ rfl).mono id ?_
    (fun _ _ => queued.thrown all)
  rintro next ⟨nextReady, kept | rotated⟩
  · refine fun _ => ⟨nextReady, fresh.called ?_ (.inl ⟨rfl, congrArg _ kept.old⟩)⟩
    rw [kept.settled, enqueueCur_settled]
    rfl
  · exact queued.rotated rotated all

private theorem del_fresh (ready : Ready size pair) (fresh : Fresh initial calls pair) (depth : ℕ)
    (db : D)
    (key : K) :
    (del size (flush full size depth) db key pair).Meets True
      (FreshAfter full size initial (calls ++ [.del (db, key)]))
      fun _ => FreshAfter full size initial (calls ++ [.del (db, key)]) := by
  have queued := fresh.curFresh.enqueue ⟨db, .del key, some db⟩
  have all := ready.replayable_concat ⟨db, .del key, some db⟩ rfl
  refine Prog.seq_meets ((pushCur_meets full depth ready ⟨db, .del key, some db⟩ rfl).mono id
    (fun _ => id) (fun _ _ => queued.thrown all)) ?_
  rintro next ⟨nextReady, kept | rotated⟩
  · have pushed : ∀ {after : Pair D K V}, KeptOld (next.enqueueOld ⟨db, .del key, none⟩) after →
        FreshAfter full size initial (calls ++ [.del (db, key)]) after := by
      intro after keptOld _
      refine ⟨⟨keptOld.cur ▸ nextReady.replayable, keptOld.cur ▸ nextReady.short⟩, ?_⟩
      refine fresh.called ?_ (.inr ?_)
      · rw [keptOld.cur]
        change next.cur.settled = _
        rw [kept.settled, enqueueCur_settled]
        rfl
      · rw [keptOld.settled, enqueueOld_settled, kept.old]
        rfl
    have epoch : next.epoch = pair.epoch := kept.epoch
    rw [← epoch]
    exact (pushOld_meets full depth next ⟨db, .del key, none⟩).mono id (fun _ => pushed)
      (fun _ _ ended => pushed ended.1)
  · have after : FreshAfter full size initial _ next := queued.rotated rotated all
    exact (push_gone (flush_unrolls full size depth) size next rotated.epoch _).mono id
      (fun _ ended => after.same ended.2) (fun _ _ ended => after.same ended.2.2)

/-- What one action preserves, whether it returns or throws. -/
theorem act_fresh (full : Full D K V) {actions : List (Action D K V)} (ready : Ready size pair)
    (fresh : Fresh initial (history actions) pair) (depth : ℕ) (action : Action D K V) :
    (act full size depth action pair).Meets True
      (FreshAfter full size initial (history (actions ++ [action])))
      fun _ => FreshAfter full size initial (history (actions ++ [action])) := by
  rw [history_append]
  cases action with
  | put db key val => exact put_fresh ready fresh depth db key val
  | del db key => exact del_fresh ready fresh depth db key
  | flushBatchOps =>
    rw [history, history, List.append_nil]
    refine Prog.seq_meets ((flushOld_fresh ready fresh depth).mono id (fun _ => id)
      (fun _ _ ended _ => ended)) ?_
    rintro next ⟨nextReady, nextFresh⟩
    exact flushCur_fresh nextReady nextFresh depth
  | fire =>
    rw [history, history, List.append_nil]
    simp only [act, fire]
    cases pair.timer with
    | none => exact fun _ => ⟨ready, fresh⟩
    | some env =>
      have disarmed : Ready size { pair with timer := none } := { ready with }
      have same : FreshAfter full size initial (history actions) { pair with timer := none } :=
        fun _ => ⟨disarmed, fresh⟩
      by_cases cur : env = pair.epoch + 1
      · subst cur
        exact flushCur_fresh disarmed fresh depth
      by_cases old : env = pair.epoch
      · subst old
        exact (flushOld_fresh disarmed fresh depth).mono id (fun _ ended _ => ended)
          (fun _ _ ended _ => ended)
      · exact (flushGone_meets full depth { pair with timer := none } cur old).mono id
          (fun _ => same.same) (fun _ _ ended => same.same ended.2)

/-- A cache flush that returns leaves both queues empty. -/
theorem flushBatchOps_drains (full : Full D K V) (ready : Ready size pair) (depth : ℕ) :
    (act full size depth .flushBatchOps pair).Meets True
      (fun next => next.cur.queue = [] ∧ next.old.queue = []) fun _ _ => True := by
  refine Prog.seq_meets ((flushOld_meets full depth pair).mono id (fun _ => id)
    (fun _ _ _ => trivial)) ?_
  rintro next ⟨empty, kept⟩
  have replayable : ∀ op ∈ next.cur.queue, Replayable op := kept.cur ▸ ready.replayable
  have tight : Tight size next.cur.queue := by
    rw [Tight, kept.cur]
    exact ready.short.mono (Nat.sub_le _ _)
  refine (flushCur_meets full depth next replayable tight).mono id ?_ (fun _ _ _ => trivial)
  rintro after ⟨drained, same | rotated⟩
  · exact ⟨drained, same.old ▸ empty⟩
  · exact ⟨drained, rotated.old_queue⟩

end Fresh

theorem opened_fresh (size : JsNumber) (cur old : Contents D K V) :
    Ready size (opened cur old) ∧ Fresh (fun key => (cur key).or (old key)) [] (opened cur old) :=
  ⟨.of_empty rfl, fun _ _ seen => seen⟩

end Pair

/-- A get on drained queues reads what is visible. -/
theorem get_eq_visible {size : JsNumber} {state : State D K V} {pair : Pair D K V}
    (refines : Refines size state pair) (drained : pair.cur.queue = [] ∧ pair.old.queue = [])
    {truthy : V → Bool} (truthful : ∀ val, truthy val = true) (db : D) (key : K) :
    get truthy state db key = pair.visible (db, key) := by
  have cur : pair.cur.settled = pair.cur.contents := by simp [Generation.settled, drained.1]
  have old : pair.old.settled = pair.old.contents := by simp [Generation.settled, drained.2]
  simp only [get, Pair.visible, refines.curEnv, refines.oldEnv, refines.curContents,
    refines.oldContents, truthful, cur, old, ↓reduceIte]
  cases pair.cur.contents (db, key) <;> rfl

end NodeKv.Cache
