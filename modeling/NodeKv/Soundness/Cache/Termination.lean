import NodeKv.Proofs.Cache.Actions

/-! # Termination of a flush

With a fixed capacity rule a flush of the current environment is a deterministic recursion:
overflow, rotate, replay, flush again. It fails to end exactly when some batch of the replay
overflows the environment it is flushed on, and then overflows the empty environment it is replayed
into, for this second overflow repeats itself forever. Only the assertion of a rotated-out
environment can still break such a cycle, by throwing out of it.
-/

namespace NodeKv.Cache

open Machine Lmdb

variable {D K V : Type*}

/-- Whether a batch on top of given contents exceeds the map size. -/
abbrev Capacity (D K V : Type*) := Contents D K V → List (BatchOp D K V) → Bool

/-- The batch overflows, and its replay gets as far as flushing it on the next environment. -/
def ComesBack (cap : Capacity D K V) (size : JsNumber) (store : Contents D K V)
    (queue : List (BatchOp D K V)) : Prop :=
  cap store queue = true ∧
    ∀ batch, reentered size queue (Pair.replayedDels size queue) = some batch →
      cap store batch = false

/-- The batch comes back from where it is, and from the empty environment ever after. -/
def Spins (cap : Capacity D K V) (size : JsNumber) (gen : Generation D K V) : Prop :=
  ComesBack cap size gen.contents gen.queue ∧ ComesBack cap size (fun _ => none) gen.queue

/-- The batch overflows where it is, but its replay fits the empty environment and returns. -/
def Recovers (cap : Capacity D K V) (size : JsNumber) (gen : Generation D K V) : Prop :=
  cap (fun _ => none) gen.queue = false ∧
    ∀ batch, reentered size gen.queue (shadows gen.queue) = some batch →
      cap gen.contents batch = false

theorem ComesBack.not_overflows {cap : Capacity D K V} {size : JsNumber}
    {store : Contents D K V} {queue : List (BatchOp D K V)}
    (back : ComesBack cap size store queue) :
    ¬Pair.Overflows (fun _ => cap) size ⟨store, queue⟩ (Pair.replayedDels size queue) := by
  rintro ⟨attempt, batch, hit, overflow⟩
  have fits : cap store batch = false := back.2 batch hit
  exact absurd (fits.symm.trans overflow) Bool.false_ne_true

variable [DecidableEq D] [DecidableEq K]

/-- The old generation after an operation has pushed its delete there, unless that throws. -/
def pushedShadow (cap : Capacity D K V) (size : JsNumber) (old : Generation D K V)
    (op : BatchOp D K V) : Option (Generation D K V) :=
  match shadow op with
  | none => some old
  | some del =>
    if size.reached (old.queue.length + 1) then
      if cap old.contents (old.queue ++ [del]) then none
      else some (Generation.mk old.contents (old.queue ++ [del])).flushed
    else some ⟨old.contents, old.queue ++ [del]⟩

/-- The new generation after an operation that does not overflow it. -/
def collected (size : JsNumber) (cur : Generation D K V) (op : BatchOp D K V) :
    Generation D K V :=
  if size.reached (cur.queue.length + 1) then
    (Generation.mk cur.contents (cur.queue ++ [op])).flushed
  else ⟨cur.contents, cur.queue ++ [op]⟩

/-- The replay of the operations, over the two generations it has reached, comes to a batch that
spins before anything throws. -/
def Livelocks (cap : Capacity D K V) (size : JsNumber) :
    Generation D K V → Generation D K V → List (BatchOp D K V) → Prop
  | cur, _, [] => cur.queue ≠ [] ∧ Spins cap size cur
  | cur, old, op :: rest =>
    let queued : Generation D K V := ⟨cur.contents, cur.queue ++ [op]⟩
    if size.reached queued.queue.length ∧ cap queued.contents queued.queue then
      -- A second rotation in the middle of the replay closes the environment of the first one.
      Spins cap size queued ∨
        Recovers cap size queued ∧
        (shadow op ≠ none → size.reached (old.queue.length + 1) = false) ∧
        Livelocks cap size (Generation.mk (fun _ => none) queued.queue).flushed
          ⟨(behind size queued.contents queued.queue (shadows queued.queue)).contents, []⟩ rest
    else
      match pushedShadow cap size old op with
      | none => False
      | some old => Livelocks cap size (collected size cur op) old rest

/-- A flush of a queue on given contents never ends. -/
def Livelock (cap : Capacity D K V) (size : JsNumber) (store : Contents D K V)
    (queue : List (BatchOp D K V)) : Prop :=
  queue ≠ [] ∧ cap store queue = true ∧ Livelocks cap size .fresh ⟨store, queue⟩ queue

section Livelocks

variable {cap : Capacity D K V} {size : JsNumber} {cur old : Generation D K V}
  {op : BatchOp D K V} {rest : List (BatchOp D K V)}

private theorem livelocks_quiet (quiet : size.reached (cur.queue.length + 1) = true →
      cap cur.contents (cur.queue ++ [op]) = false) :
    Livelocks cap size cur old (op :: rest) ↔ ∃ old', pushedShadow cap size old op = some old' ∧
      Livelocks cap size (collected size cur op) old' rest := by
  have fits : ¬(size.reached (cur.queue.length + 1) = true ∧
      cap cur.contents (cur.queue ++ [op]) = true) := by
    rintro ⟨reached, overflow⟩
    exact absurd ((quiet reached).symm.trans overflow) Bool.false_ne_true
  simp only [Livelocks, List.length_append, List.length_singleton, fits, ↓reduceIte]
  cases pushedShadow cap size old op <;> simp

private theorem livelocks_overflow (reached : size.reached (cur.queue.length + 1) = true)
    (overflow : cap cur.contents (cur.queue ++ [op]) = true) :
    Livelocks cap size cur old (op :: rest) ↔
      Spins cap size ⟨cur.contents, cur.queue ++ [op]⟩ ∨
        Recovers cap size ⟨cur.contents, cur.queue ++ [op]⟩ ∧
        (shadow op ≠ none → size.reached (old.queue.length + 1) = false) ∧
        Livelocks cap size (Generation.mk (fun _ => none) (cur.queue ++ [op])).flushed
          ⟨(behind size cur.contents (cur.queue ++ [op]) (shadows (cur.queue ++ [op]))).contents, []⟩
          rest := by
  simp only [Livelocks, List.length_append, List.length_singleton, reached, overflow, and_self,
    ↓reduceIte]

private theorem collected_replayable (ready : ∀ other ∈ cur.queue, Replayable other)
    (replayable : Replayable op) : ∀ other ∈ (collected size cur op).queue, Replayable other := by
  unfold collected
  split_ifs
  · simp [Generation.flushed]
  · intro other member
    rcases List.mem_append.mp member with before | last
    · exact ready other before
    · exact List.mem_singleton.mp last ▸ replayable

private theorem collected_short : Unreached size (collected size cur op).queue.length := by
  unfold collected
  split_ifs with reached
  · simp [Generation.flushed, Unreached]
  · intro
    simpa using reached

end Livelocks

namespace Pair

variable {cap : Capacity D K V} {size : JsNumber} {pair : Pair D K V}

theorem FlushSpec.mono {full : Full D K V} {stuck stuck' ended ended' : Prop}
    {outcome : Outcome Error (Pair D K V)} (spec : FlushSpec full size stuck ended pair outcome)
    (stuckMono : stuck → stuck') (endedMono : ended → ended') :
    FlushSpec full size stuck' ended' pair outcome :=
  Outcome.Meets.mono spec stuckMono (fun _ held => ⟨endedMono held.1, held.2⟩)
    fun _ _ held => ⟨endedMono held.1, held.2⟩

/-- A tight queue that comes back from its environment, seen one level down. -/
theorem flush_spins_level {flush : ℕ → Prog Error (Pair D K V)}
    (unrolls : Unrolls (fun _ => cap) True flush)
    (replayable : ∀ op ∈ pair.cur.queue, Replayable op) (tight : Tight size pair.cur.queue)
    (nonempty : pair.cur.queue ≠ [])
    (back : ComesBack cap size pair.cur.contents pair.cur.queue)
    (inner : ∀ inner : Pair D K V, inner.cur = ⟨fun _ => none, pair.cur.queue⟩ →
      FlushSpec (fun _ => cap) size True False inner (flush (inner.epoch + 1) inner)) :
    FlushSpec (fun _ => cap) size True False pair (flushCurrent (fun _ => cap) size flush pair) :=
  flushCurrent_level unrolls replayable tight nonempty back.1 back.not_overflows
    fun next replaying => inner next replaying.cur

private theorem flush_spins_empty (depth : ℕ) (pair : Pair D K V)
    (replayable : ∀ op ∈ pair.cur.queue, Replayable op) (tight : Tight size pair.cur.queue)
    (nonempty : pair.cur.queue ≠ []) (fresh : pair.cur.contents = fun _ => none)
    (back : ComesBack cap size (fun _ => none) pair.cur.queue) :
    FlushSpec (fun _ => cap) size True False pair
      (flush (fun _ => cap) size depth (pair.epoch + 1) pair) := by
  induction depth generalizing pair with
  | zero => trivial
  | succ depth ih =>
    rw [flush_succ]
    refine flush_spins_level (flush_unrolls _ size depth) replayable tight nonempty (fresh ▸ back) ?_
    intro inner cur
    refine ih inner ?_ ?_ ?_ ?_ ?_ <;> rw [cur]
    · exact replayable
    · exact tight
    · exact nonempty
    · exact back

/-- A few levels down it is decided whether the flush of a tight queue ends. -/
theorem flush_exact (cap : Capacity D K V) (size : JsNumber) (depth : ℕ) (pair : Pair D K V)
    (replayable : ∀ op ∈ pair.cur.queue, Replayable op) (tight : Tight size pair.cur.queue)
    (nonempty : pair.cur.queue ≠ []) :
    FlushSpec (fun _ => cap) size (Spins cap size pair.cur) (¬Spins cap size pair.cur) pair
      (flush (fun _ => cap) size (depth + 3) (pair.epoch + 1) pair) := by
  by_cases spins : Spins cap size pair.cur
  · rw [flush_succ]
    refine (flush_spins_level (flush_unrolls _ size _) replayable tight nonempty spins.1
      ?_).mono (fun _ => spins) False.elim
    intro inner cur
    refine flush_spins_empty _ inner ?_ ?_ ?_ ?_ ?_ <;> rw [cur]
    · exact replayable
    · exact tight
    · exact nonempty
    · exact spins.2
  · suffices ends : FlushSpec (fun _ => cap) size False True pair
        (flush (fun _ => cap) size (depth + 3) (pair.epoch + 1) pair) from
      ends.mono False.elim fun _ => spins
    rw [flush_succ]
    cases overflow : cap pair.cur.contents pair.cur.queue with
    | false =>
      rw [flushCurrent_committed nonempty overflow]
      exact ⟨trivial, .inl ⟨overflow, rfl⟩⟩
    | true =>
      refine flushCurrent_level (flush_succ_unrolls _ size False _) replayable tight nonempty
        overflow (fun _ => trivial) ?_
      intro inner replaying
      have back : ComesBack cap size pair.cur.contents pair.cur.queue :=
        ⟨overflow, fun batch hit => (replaying.fits batch hit).choose_spec⟩
      have innerNonempty : inner.cur.queue ≠ [] := by rwa [replaying.cur]
      rw [flush_succ]
      cases again : cap inner.cur.contents inner.cur.queue with
      | false =>
        rw [flushCurrent_committed innerNonempty again]
        exact ⟨trivial, .inl ⟨again, rfl⟩⟩
      | true =>
        -- The third flush of the queue is never reached: the replay before it must have thrown.
        refine flushCurrent_level (flush_succ_unrolls _ size False _) ?_ ?_ innerNonempty again
          (fun _ => trivial) ?_
        · rwa [replaying.cur]
        · rwa [replaying.cur]
        · intro last reached
          rw [replaying.cur] at again reached
          exact absurd ⟨back, again, fun batch hit => (reached.fits batch hit).choose_spec⟩ spins

/-- The pair has reached the two generations in the course of a replay. -/
structure At (cur old : Generation D K V) (pair : Pair D K V) : Prop where
  cur : pair.cur = cur
  old : pair.old = old
  asserting : pair.asserting = true

private theorem pushShadow_exact {cur old : Generation D K V} (depth : ℕ) (pair : Pair D K V)
    (here : At cur old pair) (op : BatchOp D K V) :
    (pushShadow size (flush (fun _ => cap) size (depth + 1)) op pair.epoch pair).Meets False
      (fun next => ∃ old', pushedShadow cap size old op = some old' ∧ At cur old' next)
      fun _ _ => pushedShadow cap size old op = none := by
  obtain ⟨rfl, rfl, asserting⟩ := here
  unfold pushShadow pushedShadow
  cases shadow op with
  | none => exact ⟨pair.old, rfl, rfl, rfl, asserting⟩
  | some del =>
    have nonempty : (pair.enqueueOld del).old.queue ≠ [] := by simp [enqueueOld]
    have ran := ((flush_succ_unrolls (fun _ => cap) size False depth).old
      (pair.enqueueOld del)).resolve_right And.right
    simp only
    rw [push_old]
    split_ifs with reached overflow
    · change (flush _ _ _ (pair.enqueueOld del).epoch (pair.enqueueOld del)).Meets _ _ _
      rw [ran, flushOld_full nonempty overflow]
      rfl
    · change (flush _ _ _ (pair.enqueueOld del).epoch (pair.enqueueOld del)).Meets _ _ _
      rw [ran, flushOld_committed nonempty (Bool.eq_false_iff.mpr overflow)]
      exact ⟨_, rfl, rfl, rfl, asserting⟩
    · exact ⟨_, rfl, rfl, rfl, asserting⟩

/-- A replayed operation that does not overflow the new environment. -/
theorem replayOp_quiet {cur old : Generation D K V} (depth : ℕ) (here : At cur old pair)
    {op : BatchOp D K V} (replayable : Replayable op)
    (quiet : size.reached (cur.queue.length + 1) = true →
      cap cur.contents (cur.queue ++ [op]) = false) :
    (replayOp size (flush (fun _ => cap) size (depth + 1)) op pair).Meets False
      (fun next => ∃ old', pushedShadow cap size old op = some old' ∧
        At (collected size cur op) old' next)
      fun _ _ => pushedShadow cap size old op = none := by
  obtain ⟨rfl, rfl, asserting⟩ := here
  rw [replayOp_eq _ _ pair op replayable, Prog.seq, push_cur, collected]
  split_ifs with reached
  · have nonempty : (pair.enqueueCur op).cur.queue ≠ [] := by simp [enqueueCur]
    have ran : flush (fun _ => cap) size (depth + 1) (pair.epoch + 1) (pair.enqueueCur op) =
        .returned { (pair.enqueueCur op).attempted with cur := (pair.enqueueCur op).cur.flushed } := by
      change flush _ _ _ ((pair.enqueueCur op).epoch + 1) _ = _
      rw [flush_succ, flushCurrent_committed nonempty (quiet reached)]
    rw [ran]
    exact pushShadow_exact depth { (pair.enqueueCur op).attempted with
      cur := (pair.enqueueCur op).cur.flushed } ⟨rfl, rfl, asserting⟩ op
  · exact pushShadow_exact depth { pair.enqueueCur op with timer := some (pair.epoch + 1) }
      ⟨rfl, rfl, asserting⟩ op

/-- Under a fixed capacity a flush that rotates and ends has recovered at once. -/
theorem Rotated.recovers {next : Pair D K V} (rotated : Rotated (fun _ => cap) size pair next) :
    Recovers cap size pair.cur ∧ next.old = ⟨(behind size pair.cur.contents pair.cur.queue
      (shadows pair.cur.queue)).contents, []⟩ := by
  obtain ⟨_, committed⟩ := rotated.committed
  obtain ⟨again, -, old, more, fits⟩ := rotated.log
  have once : again = 0 := by
    by_contra other
    obtain ⟨_, overflow⟩ := more other
    exact absurd (committed.symm.trans overflow) Bool.false_ne_true
  rw [if_pos once] at old
  refine ⟨⟨committed, ?_⟩, old⟩
  intro batch hit
  have fitting := (fits batch hit).choose_spec
  rwa [if_pos once] at fitting

theorem Thrown.not_recovers {error : Error} {next : Pair D K V}
    (thrown : Thrown (fun _ => cap) size pair error next) : ¬Recovers cap size pair.cur := by
  rintro ⟨committed, fits⟩
  cases thrown with
  | closed rotated again =>
    obtain ⟨_, overflow⟩ := again
    exact absurd (committed.symm.trans overflow) Bool.false_ne_true
  | asserted store overfull found logged overflows =>
    rcases found with rfl | ⟨-, _, overflow⟩
    · obtain ⟨_, batch, hit, overflow⟩ := overflows
      exact absurd ((fits batch hit).symm.trans overflow) Bool.false_ne_true
    · exact absurd (committed.symm.trans overflow) Bool.false_ne_true

/-- A replayed operation whose batch overflows the new environment. -/
theorem replayOp_overflow {cur old : Generation D K V} (depth : ℕ) (here : At cur old pair)
    (ready : ∀ op ∈ cur.queue, Replayable op) (short : Unreached size cur.queue.length)
    {op : BatchOp D K V} (replayable : Replayable op)
    (reached : size.reached (cur.queue.length + 1) = true)
    (overflow : cap cur.contents (cur.queue ++ [op]) = true) :
    (replayOp size (flush (fun _ => cap) size (depth + 3)) op pair).Meets
      (Spins cap size ⟨cur.contents, cur.queue ++ [op]⟩)
      (fun next => ¬Spins cap size ⟨cur.contents, cur.queue ++ [op]⟩ ∧
        Recovers cap size ⟨cur.contents, cur.queue ++ [op]⟩ ∧
        (shadow op ≠ none → size.reached (old.queue.length + 1) = false) ∧
        At (Generation.mk (fun _ => none) (cur.queue ++ [op])).flushed
          ⟨(behind size cur.contents (cur.queue ++ [op]) (shadows (cur.queue ++ [op]))).contents, []⟩
          next)
      fun _ _ => ¬Spins cap size ⟨cur.contents, cur.queue ++ [op]⟩ ∧
        ¬(Recovers cap size ⟨cur.contents, cur.queue ++ [op]⟩ ∧
          (shadow op ≠ none → size.reached (old.queue.length + 1) = false)) := by
  obtain ⟨rfl, rfl, -⟩ := here
  have all : ∀ other ∈ pair.cur.queue ++ [op], Replayable other :=
    Ready.replayable_concat (⟨ready, short⟩ : Ready size pair) op replayable
  have tight : Tight size (pair.cur.queue ++ [op]) := by
    rw [Tight, List.length_append, List.length_singleton, Nat.add_sub_cancel]
    exact short
  have spec := flush_exact cap size depth (pair.enqueueCur op) all tight (by simp [enqueueCur])
  rw [replayOp_eq _ _ pair op replayable]
  have pushed : (push size (flush (fun _ => cap) size (depth + 3)) (pair.epoch + 1) op pair).Meets
      (Spins cap size ⟨pair.cur.contents, pair.cur.queue ++ [op]⟩)
      (fun next => ¬Spins cap size ⟨pair.cur.contents, pair.cur.queue ++ [op]⟩ ∧
        Rotated (fun _ => cap) size (pair.enqueueCur op) next)
      fun _ _ => ¬Spins cap size ⟨pair.cur.contents, pair.cur.queue ++ [op]⟩ ∧
        ¬(Recovers cap size ⟨pair.cur.contents, pair.cur.queue ++ [op]⟩ ∧
          (shadow op ≠ none → size.reached (pair.old.queue.length + 1) = false)) := by
    rw [push_cur, if_pos reached]
    refine Outcome.Meets.mono spec id ?_ ?_
    · rintro next ⟨ends, ⟨fits, -⟩ | rotated⟩
      · exact absurd (fits.symm.trans overflow) Bool.false_ne_true
      · exact ⟨ends, rotated⟩
    · rintro error next ⟨ends, thrown⟩
      exact ⟨ends, fun both => thrown.not_recovers both.1⟩
  refine Prog.seq_meets pushed ?_
  rintro next ⟨ends, rotated⟩
  obtain ⟨recovers, old⟩ := rotated.recovers
  have here : At (Generation.mk (fun _ => none) (pair.cur.queue ++ [op])).flushed
      ⟨(behind size pair.cur.contents (pair.cur.queue ++ [op])
        (shadows (pair.cur.queue ++ [op]))).contents, []⟩ next :=
    ⟨rotated.cur, old, rotated.asserting⟩
  have gone : next.gone pair.epoch = pair.old.queue :=
    (rotated.gone pair.epoch le_rfl).trans (pair.enqueueCur op).queue_old
  have later : pair.epoch < next.epoch := rotated.epoch
  unfold pushShadow
  cases shadow op with
  | none => exact ⟨ends, recovers, fun some => absurd rfl some, here⟩
  | some del =>
    refine (push_gone (flush_succ_unrolls _ size _ _) size next later del).mono id ?_ ?_
    · rintro after ⟨quiet, same⟩
      rw [gone] at quiet
      exact ⟨ends, recovers, fun _ => quiet, same.cur.trans here.cur, same.old.trans here.old,
        same.asserting.trans here.asserting⟩
    · rintro error after ⟨closed, -⟩
      rw [gone] at closed
      exact ⟨ends, fun both => absurd ((both.2 (by simp)).symm.trans closed) Bool.false_ne_true⟩

/-- The replay of any operations, from any two generations, goes on forever if and only if it
livelocks. -/
theorem replay_exact (cap : Capacity D K V) (size : JsNumber) (depth : ℕ)
    (ops : List (BatchOp D K V))
    (replayable : ∀ op ∈ ops, Replayable op) {cur old : Generation D K V} {pair : Pair D K V}
    (here : At cur old pair) (ready : ∀ op ∈ cur.queue, Replayable op)
    (short : Unreached size cur.queue.length) :
    (Prog.seq (Prog.forEach (replayOp size (flush (fun _ => cap) size (depth + 3))) ops)
        (flushCur (flush (fun _ => cap) size (depth + 3))) pair).Meets
      (Livelocks cap size cur old ops) (fun _ => ¬Livelocks cap size cur old ops)
      fun _ _ => ¬Livelocks cap size cur old ops := by
  induction ops generalizing cur old pair with
  | nil =>
    obtain ⟨rfl, rfl, -⟩ := here
    change (flush _ _ _ (pair.epoch + 1) pair).Meets _ _ _
    by_cases empty : pair.cur.queue = []
    · rw [flush_succ, flushCurrent_empty empty]
      exact fun spins => spins.1 empty
    · exact Outcome.Meets.mono
        (flush_exact cap size depth pair ready (short.mono (Nat.sub_le _ _)) empty)
        (fun spins => ⟨empty, spins⟩) (fun _ ends spins => ends.1 spins.2)
        (fun _ _ ends spins => ends.1 spins.2)
  | cons op rest ih =>
    have opReplayable := replayable op (List.mem_cons_self ..)
    have restReplayable : ∀ other ∈ rest, Replayable other :=
      fun other member => replayable other (List.mem_cons_of_mem _ member)
    have split : Prog.forEach (replayOp size (flush (fun _ => cap) size (depth + 3))) (op :: rest) =
        Prog.seq (replayOp size (flush (fun _ => cap) size (depth + 3)) op)
          (Prog.forEach (replayOp size (flush (fun _ => cap) size (depth + 3))) rest) := rfl
    rw [split, Prog.seq_assoc]
    by_cases quiet : size.reached (cur.queue.length + 1) = true →
        cap cur.contents (cur.queue ++ [op]) = false
    · simp only [livelocks_quiet quiet]
      refine Prog.seq_meets ((replayOp_quiet _ here opReplayable quiet).mono False.elim
        (fun _ => id) ?_) ?_
      · rintro error next thrown ⟨old', pushed, -⟩
        rw [thrown] at pushed
        contradiction
      · rintro next ⟨old', pushed, there⟩
        have after := ih restReplayable there (collected_replayable ready opReplayable)
          collected_short
        refine after.of_iff ⟨fun held => ⟨old', pushed, held⟩, ?_⟩
        rintro ⟨old'', pushed', held⟩
        obtain rfl := Option.some.inj (pushed.symm.trans pushed')
        exact held
    · obtain ⟨reached, overflow⟩ := Classical.not_imp.mp quiet
      have overflow : cap cur.contents (cur.queue ++ [op]) = true := by simpa using overflow
      simp only [livelocks_overflow reached overflow]
      refine Prog.seq_meets ((replayOp_overflow depth here ready short opReplayable reached
        overflow).mono .inl (fun _ => id) ?_) ?_
      · rintro error next ⟨ends, thrown⟩ (spins | ⟨recovers, quiet, -⟩)
        · exact ends spins
        · exact thrown ⟨recovers, quiet⟩
      · rintro next ⟨ends, recovers, quiet, there⟩
        have after := ih restReplayable there (by simp [Generation.flushed])
          (by simp [Generation.flushed, Unreached])
        refine after.of_iff ⟨fun held => .inr ⟨recovers, quiet, held⟩, ?_⟩
        rintro (spins | ⟨-, -, held⟩)
        · exact absurd spins ends
        · exact held

/-- Whether the flush of any queue goes on forever is decided a few levels down. -/
theorem flush_diverged_iff (cap : Capacity D K V) (size : JsNumber) (depth : ℕ) (pair : Pair D K V)
    (replayable : ∀ op ∈ pair.cur.queue, Replayable op) :
    flush (fun _ => cap) size (depth + 4) (pair.epoch + 1) pair = .diverged ↔
      Livelock cap size pair.cur.contents pair.cur.queue := by
  have exactly : (flush (fun _ => cap) size (depth + 4) (pair.epoch + 1) pair).Meets
      (Livelock cap size pair.cur.contents pair.cur.queue)
      (fun _ => ¬Livelock cap size pair.cur.contents pair.cur.queue)
      fun _ _ => ¬Livelock cap size pair.cur.contents pair.cur.queue := by
    rw [flush_succ]
    by_cases empty : pair.cur.queue = []
    · rw [flushCurrent_empty empty]
      exact fun livelock => livelock.1 empty
    cases overflow : cap pair.cur.contents pair.cur.queue with
    | false =>
      rw [flushCurrent_committed empty overflow]
      exact fun livelock => absurd (overflow.symm.trans livelock.2.1) Bool.false_ne_true
    | true =>
      rw [flushCurrent_full empty overflow]
      have here : At .fresh pair.cur pair.attempted.rotate := ⟨rfl, rfl, rfl⟩
      have replayed := replay_exact cap size depth pair.cur.queue replayable here
        (by simp [Generation.fresh]) (by simp [Generation.fresh, Unreached])
      have escapes : ¬Livelocks cap size .fresh pair.cur pair.cur.queue →
          ¬Livelock cap size pair.cur.contents pair.cur.queue :=
        fun ends livelock => ends livelock.2.2
      refine Prog.seq_meets (replayed.mono (fun held => ⟨empty, overflow, held⟩)
        (fun _ => escapes) (fun _ _ => escapes)) ?_
      exact fun _ ends => ends
  constructor
  · intro diverged
    rwa [diverged] at exactly
  · intro livelock
    exact (exactly.mono id (fun _ ends => ends livelock)
      (fun _ _ ends => ends livelock)).eq_diverged

section Monotone

variable {flush flush' : ℕ → Prog Error (Pair D K V)}

omit [DecidableEq D] [DecidableEq K] in
private theorem push_below (below : ∀ env, Prog.Below (flush env) (flush' env)) (size : JsNumber)
    (env : ℕ)
    (op : BatchOp D K V) : Prog.Below (push size flush env op) (push size flush' env op) := by
  intro pair
  unfold push
  simp only
  split_ifs
  · exact below env _
  · exact .inr rfl

omit [DecidableEq D] [DecidableEq K] in
private theorem replayOp_below (below : ∀ env, Prog.Below (flush env) (flush' env))
    (size : JsNumber)
    (op : BatchOp D K V) : Prog.Below (replayOp size flush op) (replayOp size flush' op) := by
  intro pair
  rcases op with ⟨db, call, extra⟩
  rcases extra with none | extra
  · exact .inr rfl
  · cases call with
    | put key val => exact push_below below size _ _ pair
    | del key => exact Prog.Below.seq (push_below below size _ _) (push_below below size _ _) pair

theorem flushBody_monotone (full : Full D K V) (size : JsNumber) :
    Prog.Monotone (flushBody full size) := by
  intro flush flush' below env pair
  unfold flushBody
  split_ifs
  · unfold flushCurrent
    split_ifs
    · exact .inr rfl
    · have replayed := Prog.Below.forEach (replayOp_below below size) pair.cur.queue
      have flushed : Prog.Below (flushCur flush) (flushCur flush') := fun before => below _ before
      exact Prog.Below.seq (Prog.Below.seq (.refl _) (Prog.Below.seq replayed flushed)) (.refl _)
        pair.attempted
    · exact .inr rfl
  · exact .inr rfl
  · exact .inr rfl

end Monotone

private theorem flush_terminates_iff (cap : Capacity D K V) (size : JsNumber) (pair : Pair D K V)
    (replayable : ∀ op ∈ pair.cur.queue, Replayable op) :
    Prog.Terminates (flushBody (fun _ => cap) size) (pair.epoch + 1) pair ↔
      ¬Livelock cap size pair.cur.contents pair.cur.queue := by
  constructor
  · rintro ⟨depth, finished⟩ livelock
    have deeper := Prog.nest_stable (flushBody_monotone _ size) (Nat.le_add_right depth 4) finished
    rw [← deeper] at finished
    exact finished ((flush_diverged_iff cap size depth pair replayable).mpr livelock)
  · intro ends
    exact ⟨4, fun diverged => ends ((flush_diverged_iff cap size 0 pair replayable).mp diverged)⟩

end Pair

/-- A queue that `_pushBatch` can leave livelocks if it overflows both where it is and on an empty
environment, unless a re-entered batch throws. -/
theorem livelock_tight {cap : Capacity D K V} {size : JsNumber} {store : Contents D K V}
    {queue : List (BatchOp D K V)} (replayable : ∀ op ∈ queue, Replayable op)
    (tight : Tight size queue) (nonempty : queue ≠ []) :
    Livelock cap size store queue ↔ Spins cap size ⟨store, queue⟩ := by
  let pair : Pair D K V := { Pair.opened store store with cur := ⟨store, queue⟩ }
  have decided := Pair.flush_diverged_iff cap size 0 pair replayable
  have spec := Pair.flush_exact cap size 1 pair replayable tight nonempty
  constructor
  · intro livelock
    rw [Pair.FlushSpec, decided.mpr livelock] at spec
    exact spec
  · intro spins
    exact decided.mp (Outcome.Meets.mono spec id (fun _ ends => ends.1 spins)
      (fun _ _ ends => ends.1 spins)).eq_diverged

/-- A batch of puts livelocks if it fits neither its environment nor an empty one. -/
theorem livelock_puts {cap : Capacity D K V} {size : JsNumber} {store : Contents D K V}
    {queue : List (BatchOp D K V)} (replayable : ∀ op ∈ queue, Replayable op)
    (tight : Tight size queue) (nonempty : queue ≠ []) (puts : ∀ op ∈ queue, shadow op = none) :
    Livelock cap size store queue ↔
      cap store queue = true ∧ cap (fun _ => none) queue = true := by
  have undeleted : Pair.replayedDels size queue = [] := by
    rw [Pair.replayedDels, shadows, List.filterMap_eq_nil_iff]
    intro op member
    split_ifs at member
    · exact puts op (List.mem_of_mem_dropLast member)
    · exact puts op member
  rw [livelock_tight replayable tight nonempty]
  simp [Spins, ComesBack, undeleted, reentered]

private theorem livelock_put {cap : Capacity D K V} {size : JsNumber} {store : Contents D K V}
    {db : D}
    {key : K} {val : V} :
    Livelock cap size store [⟨db, .put key val, some db⟩] ↔
      cap store [⟨db, .put key val, some db⟩] = true ∧
        cap (fun _ => none) [⟨db, .put key val, some db⟩] = true := by
  refine livelock_puts ?_ (fun positive => absurd positive (Nat.lt_irrefl 0))
    (List.cons_ne_nil _ _) ?_
  · intro op member
    rw [List.mem_singleton.mp member]
    rfl
  · intro op member
    rw [List.mem_singleton.mp member]
    rfl

/-- The environments of a cache: numbered in the order they were opened, the current and the old one
live with their handlers, the others closed. -/
def WellFormed (size : JsNumber) (state : State D K V) : Prop := ∃ pair, Refines size state pair

/-- Every state of a run is that of a cache. -/
theorem Run.wellFormed {full : Full D K V} {size : JsNumber} {cur old : Contents D K V}
    {actions : List (Action D K V)} {state : State D K V}
    (run : Run full (opened size cur old) actions state) : WellFormed size state := by
  obtain ⟨pair, refines, -⟩ := preserves_pair run (fun _ _ => True) trivial fun _ _ _ _ _ _ _ => trivial
  exact ⟨pair, refines⟩

private theorem terminates_iff_of_refines {cap : Capacity D K V} {size : JsNumber}
    {state : State D K V}
    {pair : Pair D K V} (refines : Refines size state pair) :
    Prog.Terminates (flushBody fun _ => cap) state.host.curEnv state ↔
      Prog.Terminates (Pair.flushBody (fun _ => cap) size) (pair.epoch + 1) pair := by
  have same : ∀ depth, flushBatchOps (fun _ => cap) depth state.host.curEnv state = .diverged ↔
      Pair.flush (fun _ => cap) size depth (pair.epoch + 1) pair = .diverged :=
    fun depth => (flushBatchOps_alike _ size depth 0 _ _ state pair ⟨refines, Nat.zero_le _⟩
      ⟨refines.curEnv, refines.curEnv.le⟩).diverged_iff
  exact exists_congr fun depth => not_congr (same depth)

/-- A capacity that a value of this size always exceeds. -/
def neverFits : Capacity Unit Bool ℕ := fun _ ops => ops.any fun op => !op.call.isDel

end NodeKv.Cache
