import NodeKv.Machine.Simulation
import NodeKv.Proofs.Lmdb.ByRef
import NodeKv.Soundness.Level.Batching
import NodeKv.Soundness.Lmdb.Conservation

/-! # Buffers that are overwritten while they are queued

`batchPut` of LMDB queues references. A flush commits a queued put as it was given exactly if its
Buffers are then converted to the same bytes as at the call. As long as this is so for all of them,
the environments behave as if copies had been queued. LevelDB and RocksDB copy.
-/

namespace NodeKv

open Machine

variable {v8 : V8}

namespace Lmdb.ByRef

variable {returns : ℕ → Returns} {buffers : Buffers} {stores : ℕ → Store} {sizes : ℕ → JsNumber}
  {script : List (Script Action ByteWrite)}

section Copies

/-- A queued put, and one with copies of what its Buffers contain. -/
inductive Copies (buffers : Buffers) : Put v8 → BatchOp v8 → Prop
  | put {put : Put v8} {key : Datum v8 put.db.keyType} {val : Datum v8 put.db.valType}
      (keyed : put.key.bytes buffers = key.bytes) (valued : put.val.bytes buffers = val.bytes) :
      Copies buffers put (.put put.db key val)

theorem Copies.exec_eq {put : Put v8} {op : BatchOp v8} (copies : Copies buffers put op)
    (returns : Returns) (txn : ℕ) : put.exec returns buffers txn = op.exec returns txn := by
  cases copies with
  | put keyed valued =>
    funext native
    simp only [Put.exec, BatchOp.exec, Result.statement, Db.put, Captured.encode_value,
      Datum.encode_value, keyed, valued]

theorem Copies.intact {put : Put v8} {op : BatchOp v8} {now : Buffers}
    (copies : Copies buffers put op) (intact : put.Intact buffers now) : Copies now put op := by
  cases copies with
  | put keyed valued =>
    refine .put ?_ ?_
    · rw [(put.key.bytes_eq_iff buffers now).mpr intact.1, keyed]
    · rw [(put.val.bytes_eq_iff buffers now).mpr intact.2, valued]

/-- The same environments, with references and with copies in the queues. -/
structure Alike (buffers : Buffers) (world : Shared v8) (copy : Plain v8) : Prop where
  host : world.host = buffers
  native : world.native = copy.native
  ops : ∀ env, List.Forall₂ (Copies buffers) (world.batchOps env) (copy.batchOps env)
  batchSize : world.batchSize = copy.batchSize
  timer : world.timer = copy.timer

variable {world : Shared v8} {copy : Plain v8}

theorem Alike.setOps (alike : Alike buffers world copy) {env : ℕ} {puts : List (Put v8)}
    {ops : List (BatchOp v8)} (same : List.Forall₂ (Copies buffers) puts ops) :
    Alike buffers (world.setOps env puts) (copy.setOps env ops) := by
  refine { alike with ops := fun other => ?_ }
  rcases eq_or_ne other env with rfl | ne
  · simpa [World.setOps] using same
  · simpa [World.setOps, ne] using alike.ops other

theorem Alike.after (alike : Alike buffers world copy) (env : ℕ) (native : Native) :
    Alike buffers (world.after env native world.host) (copy.after env native ()) :=
  { alike with native := by simp only [World.after, alike.native] }

/-- A flush runs the same transaction. -/
theorem flush_rel (alike : Alike buffers world copy) (env : ℕ) :
    Outcome.Rel (Alike buffers) (flush v8 returns env world) (Lmdb.flush v8 returns env copy) := by
  rcases eq_or_ne (copy.batchOps env) [] with empty | some
  · have empty' : world.batchOps env = [] := by
      have same := alike.ops env
      rw [empty] at same
      exact List.forall₂_nil_right_iff.mp same
    rw [flush, Lmdb.flush, flushBatchOps_empty empty, flushBatchOps_empty empty']
    exact .returned alike
  · have some' : world.batchOps env ≠ [] := by
      intro empty
      have same := alike.ops env
      rw [empty] at same
      exact some (List.forall₂_nil_left_iff.mp same)
    have loop (txn : ℕ) := Prog.forEach_congr (fun put op (copies : Copies buffers put op) =>
      copies.exec_eq (returns env) txn) (alike.ops env)
    cases ran : attempt (returns env) (copy.batchOps env) (copy.native env) with
    | mk result native =>
      have attempted : Lmdb.engine v8 returns copy.host env (copy.native env) (copy.batchOps env) =
          ⟨result, native, ()⟩ := by
        simp only [Lmdb.engine, ran]
      have attempted' : engine v8 returns world.host env (world.native env) (world.batchOps env) =
          ⟨result, native, world.host⟩ := by
        rw [attempt, attemptWith] at ran
        simp only [engine, alike.host, loop, alike.native, ran]
      have unhandled : world.onfull env = none := Subsingleton.elim _ _
      have unhandled' : copy.onfull env = none := Subsingleton.elim _ _
      rw [flush, Lmdb.flush]
      cases result with
      | committed =>
        rw [flushBatchOps_committed some attempted, flushBatchOps_committed some' attempted']
        exact .returned ((alike.after env native).setOps .nil)
      | failed error =>
        rw [flushBatchOps_other some attempted (.inl unhandled'),
          flushBatchOps_other some' attempted' (.inl unhandled)]
        exact .threw error (alike.after env native)
      | notBegun error =>
        rw [flushBatchOps_notBegun some attempted, flushBatchOps_notBegun some' attempted']
        exact .threw error (alike.after env native)
      | stuck =>
        rw [flushBatchOps_stuck some (by rw [attempted]), flushBatchOps_stuck some' (by rw [attempted'])]
        exact .diverged

private theorem pushBatch_rel (alike : Alike buffers world copy) (env : ℕ) {put : Put v8}
    {op : BatchOp v8}
    (same : Copies buffers put op) :
    Outcome.Rel (Alike buffers) (pushBatch (flush v8 returns) env put world)
      (pushBatch (Lmdb.flush v8 returns) env op copy) := by
  have pushed : Alike buffers (world.setOps env (world.batchOps env ++ [put]))
      (copy.setOps env (copy.batchOps env ++ [op])) :=
    alike.setOps (List.rel_append (alike.ops env) (.cons same .nil))
  have lengths := (pushed.ops env).length_eq
  simp only [pushBatch, pushed.batchSize, lengths]
  split_ifs with full
  · exact flush_rel pushed env
  · exact .returned { pushed with timer := rfl }

theorem act_rel (alike : Alike buffers world copy) (call : Action) :
    Outcome.Rel (Alike buffers) (act (flush v8 returns) (.call call) world)
      (Lmdb.act (Lmdb.flush v8 returns) (call.copied buffers) copy) := by
  cases call with
  | batchPut env db key val =>
    simp only [act, Action.copied, Lmdb.act, batchPut, Lmdb.batchPut, alike.host]
    rcases db.keyType.capture_cases v8 buffers key with
      ⟨error, checked, captured⟩ | ⟨keyDatum, keyCaptured, checked, captured, keyed⟩
    · rw [checked, captured]
      exact .threw error alike
    · rw [checked, captured]
      rcases db.valType.capture_cases v8 buffers val with
        ⟨error, checked, captured⟩ | ⟨valDatum, valCaptured, checked, captured, valued⟩
      · rw [checked, captured]
        exact .threw error alike
      · rw [checked, captured]
        exact pushBatch_rel alike env (.put keyed valued)
  | setBatchSize env num =>
    have resized : Alike buffers
        { world with batchSize := Function.update world.batchSize env num.min256 }
        { copy with batchSize := Function.update copy.batchSize env num.min256 } :=
      { alike with batchSize := by simp only [alike.batchSize] }
    have lengths := (alike.ops env).length_eq
    simp only [act, Action.copied, Lmdb.act, setBatchSize, Function.update_self, lengths]
    split_ifs with long
    · exact flush_rel resized env
    · exact .returned resized
  | flushBatchOps env => exact flush_rel alike env
  | fire =>
    simp only [act, Action.copied, Lmdb.act, fire, alike.timer]
    cases copy.timer with
    | none => exact .returned alike
    | some env =>
      have rested : Alike buffers { world with timer := none } { copy with timer := none } :=
        { alike with timer := rfl }
      exact flush_rel rested env

/-- The script leaves all Buffers in the queues as they are converted. -/
def Careful (world : Shared v8) (step : Script Action ByteWrite) : Prop :=
  ∀ env, ∀ put ∈ world.batchOps env, put.Intact world.host (step.memory ByteWrite.apply world.host)

/-- The calls of a script with copies of their Buffers. -/
def copies (buffers : Buffers) (script : List (Script Action ByteWrite)) : List Lmdb.Action :=
  (Script.stamped ByteWrite.apply buffers script).map fun made => made.1.copied made.2

/-- Careful runs with references are runs with copies. -/
theorem run_copied (run : Runs (Guarded Careful (Prog.Steps (act (flush v8 returns))))
    (opened buffers stores sizes) script world) :
    ∃ copy, Lmdb.Run v8 returns (Lmdb.opened stores sizes) (copies buffers script) copy ∧
      Alike (Script.after ByteWrite.apply buffers script) world copy := by
  refine run.preserves (fun script world => ∃ copy,
    Lmdb.Run v8 returns (Lmdb.opened stores sizes) (copies buffers script) copy ∧
      Alike (Script.after ByteWrite.apply buffers script) world copy)
    ⟨_, .nil, rfl, rfl, fun _ => .nil, rfl, rfl⟩ ?_
  rintro script world step next ⟨copy, sofar, alike⟩ ⟨careful, stepped⟩
  rw [copies, Script.stamped_snoc, List.map_append, Script.after_snoc]
  cases step with
  | call call =>
    obtain ⟨copy', stepped', alike'⟩ := (act_rel alike call).of_state? stepped
    exact ⟨copy', .snoc sofar stepped', alike'⟩
  | change write =>
    refine ⟨copy, ?_, ?_⟩
    · rw [Script.stamp, List.map_nil, List.append_nil]
      exact sofar
    · obtain rfl := Option.some.inj stepped
      refine { alike with host := congrArg write.apply alike.host, ops := fun env => ?_ }
      have kept := careful env
      rw [alike.host] at kept
      have both := (List.forall₂_and_left _ _).mpr ⟨kept, alike.ops env⟩
      exact both.imp fun _ _ same => same.2.intact same.1

end Copies

section Given

/-- The puts of a script, with copies of their Buffers at their calls. -/
theorem given_entries (env : ℕ) :
    (given v8 env buffers script).map (fun put => put.1.entry put.2) =
      ((copies buffers script).flatMap (Action.accepted v8 env)).map BatchOp.entry := by
  rw [given, copies, List.flatMap_map, List.map_flatMap, List.map_flatMap]
  refine List.flatMap_congr fun made _ => ?_
  rw [List.map_map]
  obtain ⟨call, buffers⟩ := made
  cases call with
  | batchPut other db key val =>
    simp only [Action.pushed, Action.copied, Lmdb.Action.accepted]
    rcases db.keyType.capture_cases v8 buffers key with
      ⟨error, checked, captured⟩ | ⟨keyDatum, keyCaptured, checked, captured, keyed⟩
    · rw [checked, captured]
      rfl
    · rw [checked, captured]
      rcases db.valType.capture_cases v8 buffers val with
        ⟨error, checked, captured⟩ | ⟨valDatum, valCaptured, checked, captured, valued⟩
      · rw [checked, captured]
        rfl
      · rw [checked, captured]
        simp only
        split_ifs
        · simp [Put.entry, BatchOp.entry, keyed, valued]
        · rfl
  | setBatchSize other num => rfl
  | flushBatchOps other => rfl
  | fire => rfl

/-- Whatever comes next, with whatever codes of LMDB: if it commits the queue, it commits the puts as
they were given. -/
def CommitsGiven (env : ℕ) (world : Shared v8) (queued : List (Put v8 × Buffers)) : Prop :=
  ∀ returns step next, Prog.Steps (act (flush v8 returns)) world step next →
    (next.native env).log = (world.native env).log ∨
    (next.native env).log = (world.native env).log ++
      [(queued ++ (pushed v8 world.host env step).map (·, world.host)).map fun put =>
        put.1.entry put.2]

private theorem commitsGiven_iff {world : Shared v8} (idle : Idle stores world) {env : ℕ}
    {queued : List (Put v8 × Buffers)} (ops : world.batchOps env = queued.map Prod.fst) :
    CommitsGiven env world queued ↔ ∀ put ∈ queued, put.1.Intact put.2 world.host := by
  have entries_iff : queued.map (fun put => put.1.entry world.host) =
      queued.map (fun put => put.1.entry put.2) ↔ ∀ put ∈ queued, put.1.Intact put.2 world.host := by
    rw [List.map_inj_left]
    exact forall₂_congr fun put _ => put.1.entry_eq_iff put.2 world.host
  rw [← entries_iff]
  constructor
  · intro commits
    rcases eq_or_ne queued [] with rfl | some
    · rfl
    have waiting : world.batchOps env ≠ [] := by
      rwa [ops, Ne, List.map_eq_nil_iff]
    obtain ⟨next, flushed, log⟩ := flush_commits idle waiting
    have stepped : Prog.Steps (act (flush v8 fun _ => silent)) world (.call (.flushBatchOps env)) next :=
      congrArg Outcome.state? flushed
    rcases commits _ _ _ stepped with same | given
    · rw [log] at same
      exact absurd (List.append_right_eq_self.mp same) (List.cons_ne_nil _ _)
    · rw [log, List.append_cancel_left_eq, List.cons.injEq] at given
      rw [ops, List.map_map] at given
      simpa [pushed, Action.pushed] using given.1
  · intro same returns step next stepped
    cases (steps_next returns idle stepped).moved env with
    | kept log ops => exact .inl log
    | flushed log empty =>
      refine .inr ?_
      rw [log, ops, List.map_append, List.map_append, List.map_map, List.map_map, ← same]
      rfl

end Given

end Lmdb.ByRef

section Level

open Level

theorem Level.ByRef.steps_reading {fails : ℕ → Fails} {schema : ℕ → Schema}
    {state next : Level.World × Buffers} {step : Script ByRef.Action ByteWrite}
    (stepped : Prog.Steps (ByRef.act v8 fails schema) state step next) :
    Script.Reading ByteWrite.apply (Prog.Steps (Level.act v8 fails schema))
      (fun buffers call => call.copied buffers) state step next := by
  cases step with
  | call call =>
    simp only [Prog.Steps, ByRef.act, Prog.zoom] at stepped
    simp only [Script.Reading, Script.memory, Prog.Steps]
    cases ran : Level.act v8 fails schema (call.copied state.2) state.1 with
    | returned world =>
      rw [ran] at stepped
      obtain rfl := Option.some.inj stepped
      exact ⟨rfl, rfl⟩
    | threw error world =>
      rw [ran] at stepped
      obtain rfl := Option.some.inj stepped
      exact ⟨rfl, rfl⟩
    | diverged =>
      rw [ran] at stepped
      exact nomatch stepped
  | change write =>
    obtain rfl := Option.some.inj stepped
    exact ⟨rfl, rfl⟩

end Level

namespace Lmdb.ByRef

/-- A flush of LMDB commits a put as it was given exactly if the Buffers that were passed for it are
converted to the same bytes then as at the call. What was given is what direct puts of copies store,
and what the batches of LevelDB and RocksDB take, whatever happens to the Buffers later. -/
theorem batchPut_captures_iff {returns : ℕ → Returns} {buffers : Buffers} {stores : ℕ → Store}
    {sizes : ℕ → JsNumber} {script : List (Script Action ByteWrite)} {world : Shared v8}
    (run : Run v8 returns (opened buffers stores sizes) script world) (env : ℕ) :
    (∃ taken queued, given v8 env buffers script = taken ++ queued ∧
      world.batchOps env = queued.map Prod.fst ∧
      (CommitsGiven env world queued ↔ ∀ put ∈ queued, put.1.Intact put.2 world.host)) ∧
    (world.native env).committed =
      (world.native env).log.flatten.foldl Entry.apply (stores env) ∧
    (∃ direct, Prog.forEach (BatchOp.direct silent)
        ((copies buffers script).flatMap (Action.accepted v8 env)) (.opened (stores env)) =
          .returned direct ∧
      direct.committed = ((given v8 env buffers script).map fun put => put.1.entry put.2).foldl
        Entry.apply (stores env)) ∧
    (Runs (Guarded Careful (Prog.Steps (act (flush v8 returns)))) (opened buffers stores sizes) script
        world → ∃ copy, Lmdb.Run v8 returns (Lmdb.opened stores sizes) (copies buffers script) copy ∧
      world.native = copy.native) ∧
    ∀ (fails : ℕ → Level.Fails) (schema : ℕ → Level.Schema)
      (others : ℕ → Bytes → Option Bytes) (calls : List (Script Level.ByRef.Action ByteWrite))
      (state : Level.World × Buffers),
      Runs (Prog.Steps (Level.ByRef.act v8 fails schema)) (Level.opened others sizes, buffers) calls
        state → ∀ index,
      (state.1.dbs index).log ++ (state.1.dbs index).records =
        (Level.accepted v8 schema index ((Script.stamped ByteWrite.apply buffers calls).map
          fun made => made.1.copied made.2)).filterMap (Level.Op.record? v8 (schema index)) := by
  obtain ⟨idle, -, queues⟩ := run.queued
  refine ⟨?_, idle.replayed env, ?_, ?_, ?_⟩
  · obtain ⟨taken, queued, accepted, ops⟩ := queues env
    exact ⟨taken, queued, accepted, ops, commitsGiven_iff idle ops⟩
  · have direct := direct_puts ((copies buffers script).flatMap (Action.accepted v8 env))
      (accepted_puts _ env) (show (Native.opened (stores env)).locked = false from rfl)
    obtain ⟨native, ran, committed⟩ := direct.returns
    rw [given_entries]
    exact ⟨native, ran, committed⟩
  · intro careful
    obtain ⟨copy, copied, alike⟩ := run_copied careful
    exact ⟨copy, copied, alike.native⟩
  · intro fails schema others calls state run index
    have reading := run.mono fun _ _ _ => Level.ByRef.steps_reading
    exact (Level.batching_transparent (Script.runs_of_reading _ reading).2 index).2.1

/-- Two Buffers of one byte, put into a database of binary keys and values. -/
def twoBuffers : Buffers := fun id => if id = 0 then [107] else [1]

def putBuffers : Script Action ByteWrite :=
  .call (.batchPut 0 ⟨2, .binary, .binary, false⟩ (.buffer 0) (.buffer 1))

/-- The two are left alone, while another Buffer is written to. -/
theorem batchPut_captures_of_untouched : ∃ world : Shared V8.basic,
    Run V8.basic (fun _ => silent) (opened twoBuffers (fun _ _ _ => []) fun _ => .finite 64)
      [putBuffers, .change ⟨2, 0, 9⟩] world ∧
    ∃ queued, world.batchOps 0 = queued.map Prod.fst ∧ CommitsGiven 0 world queued := by
  have run : Run V8.basic (fun _ => silent)
      (opened twoBuffers (fun _ _ _ => []) fun _ => .finite 64)
      ([] ++ [putBuffers] ++ [.change ⟨2, 0, 9⟩]) _ :=
    .snoc (.snoc .nil rfl) rfl
  obtain ⟨⟨taken, queued, given, ops, captures_iff⟩, -⟩ := batchPut_captures_iff run 0
  refine ⟨_, run, queued, ops, captures_iff.mpr ?_⟩
  intro put member
  have made : put ∈ ByRef.given V8.basic 0 twoBuffers [putBuffers, .change ⟨2, 0, 9⟩] :=
    given ▸ List.mem_append_right _ member
  obtain rfl := List.mem_singleton.mp made
  constructor
  · intro id passed
    obtain rfl : 0 = id := Option.some.inj passed
    rfl
  · intro id passed
    obtain rfl : 1 = id := Option.some.inj passed
    rfl

/-- The value is overwritten before the flush, which commits the new byte. LevelDB keeps the old
one. -/
theorem batchPut_commits_overwritten : ∃ world next state,
    Run V8.basic (fun _ => silent) (opened twoBuffers (fun _ _ _ => []) fun _ => .finite 64)
      [putBuffers, .change ⟨1, 0, 2⟩] world ∧
    flush V8.basic (fun _ => silent) 0 world = .returned next ∧
    (next.native 0).committed 2 [107] = [[2]] ∧
    Prog.perform (Level.ByRef.act V8.basic (fun _ _ => none) fun _ => ⟨.binary, .binary⟩)
      [.call (.batchPut 0 (.buffer 0) (.buffer 1)), .change ⟨1, 0, 2⟩, .call (.flushBatchOps 0)]
      (Level.opened (fun _ _ => none) fun _ => .finite 64, twoBuffers) = some state ∧
    (state.1.dbs 0).store [107] = some [1] := by
  refine ⟨_, _, _, Prog.perform_runs (fun _ _ _ => id) .nil rfl, rfl, ?_, rfl, ?_⟩
  · decide +kernel
  · decide +kernel

end Lmdb.ByRef

end NodeKv
