import NodeKv.Model.Buffers
import NodeKv.Proofs.Lmdb.Attempt

/-! # The batch queue with Buffers in it

Environments without an `onfull` handler, under every pattern of LMDB failures. A step appends to the
queue of an environment what it accepts, and may then commit the whole queue, each put with the bytes
that its Buffers contain at this time.
-/

namespace NodeKv

open Machine

variable {v8 : V8} {type : DataType} {buffers : Buffers}

/-- Sanitizing an argument by reference and by value. -/
theorem DataType.capture_cases (v8 : V8) (type : DataType) (buffers : Buffers) (arg : Arg) :
    (∃ error, type.check v8 (arg.value buffers) = .error error ∧
      type.capture v8 buffers arg = .error error) ∨
    ∃ (datum : Datum v8 type) (captured : Captured v8 type),
      type.check v8 (arg.value buffers) = .ok datum ∧ type.capture v8 buffers arg = .ok captured ∧
      captured.bytes buffers = datum.bytes := by
  unfold capture
  split
  · next error rejected =>
    rcases type.check_cases v8 (arg.value buffers) with ⟨other, same, checked⟩ | ⟨datum, same, -⟩
    · exact .inl ⟨other, checked, congrArg _ (Except.error.inj (rejected.symm.trans same))⟩
    · exact nomatch rejected.symm.trans same
  · next value accepted =>
    rcases type.check_cases v8 (arg.value buffers) with ⟨other, same, -⟩ | ⟨datum, same, checked⟩
    · exact nomatch accepted.symm.trans same
    · refine .inr ⟨datum, _, checked, rfl, ?_⟩
      have value_eq := Except.ok.inj (accepted.symm.trans same)
      have encoded := datum.encode_value
      rw [← value_eq, ← value_returned accepted] at encoded
      exact Option.get_of_eq_some _ encoded

namespace Captured

/-- The Buffer that is captured, if one is. -/
def buffer? (captured : Captured v8 type) : Option ℕ :=
  match captured.arg with
  | .buffer id => some id
  | .other _ => none

/-- The Buffer is converted as it was at another time. -/
def Intact (called now : Buffers) (captured : Captured v8 type) : Prop :=
  ∀ id, captured.buffer? = some id →
    type.encode v8 (.buffer (called id)) = type.encode v8 (.buffer (now id))

theorem bytes_eq_iff (captured : Captured v8 type) (called now : Buffers) :
    captured.bytes now = captured.bytes called ↔ captured.Intact called now := by
  have converted (buffers : Buffers) := captured.encode_value buffers
  rw [← Option.some.injEq, ← converted, ← converted, Intact, buffer?]
  cases captured.arg with
  | buffer id => simp only [Arg.value, Option.some.injEq, forall_eq', eq_comm]
  | other value => simp [Arg.value]

/-- For a Buffer of its own type this says that its bytes are the same. -/
theorem intact_binary (binary : type = .binary) (captured : Captured v8 type)
    (called now : Buffers) :
    captured.Intact called now ↔ ∀ id, captured.buffer? = some id → called id = now id := by
  subst binary
  simp only [Intact, DataType.encode, Option.some.injEq]

end Captured

namespace Lmdb

namespace Put

/-- Its Buffers are converted as they were at another time. -/
def Intact (called now : Buffers) (put : Put v8) : Prop :=
  put.key.Intact called now ∧ put.val.Intact called now

theorem entry_eq_iff (put : Put v8) (called now : Buffers) :
    put.entry now = put.entry called ↔ put.Intact called now := by
  simp only [entry, Entry.put.injEq, true_and, Captured.bytes_eq_iff, Intact]

theorem exec_writes (returns : Returns) (buffers : Buffers) (before : Native) (handle : ℕ)
    (put : Put v8) :
    WritesEntry returns before handle (put.entry buffers) (put.exec returns buffers handle) :=
  put_writes returns (put.key.encode_value buffers) (put.val.encode_value buffers)

end Put

namespace ByRef

variable {stores : ℕ → Store}

/-- Between calls no transaction is open, and the committed store is the replay of the committed
writes. -/
structure Idle (stores : ℕ → Store) (world : Shared v8) : Prop where
  unlocked : ∀ env, (world.native env).locked = false
  replayed : ∀ env,
    (world.native env).committed = (world.native env).log.flatten.foldl Entry.apply (stores env)

/-- What a step does to an environment: it accepts some puts, and may then commit the queue. -/
inductive Moved (buffers : Buffers) (pushed : List (Put v8)) (env : ℕ) (before after : Shared v8) :
    Prop
  | kept (log : (after.native env).log = (before.native env).log)
      (ops : after.batchOps env = before.batchOps env ++ pushed)
  | flushed (log : (after.native env).log = (before.native env).log ++
        [(before.batchOps env ++ pushed).map (Put.entry buffers)])
      (ops : after.batchOps env = [])

section Steps

variable {world : Shared v8} {env : ℕ}

/-- The next states of a step that accepts some puts. -/
structure Next (stores : ℕ → Store) (buffers : Buffers) (pushed : ℕ → List (Put v8))
    (before after : Shared v8) : Prop where
  idle : Idle stores after
  host : after.host = buffers
  moved : ∀ env, Moved before.host (pushed env) env before after

/-- Puts that have been accepted in front of a step. -/
theorem Next.of_pushed {pushed : ℕ → List (Put v8)} {before next : Shared v8} {buffers : Buffers}
    (later : Next stores buffers (fun _ => []) world next) (host : world.host = before.host)
    (native : world.native = before.native)
    (ops : ∀ env, world.batchOps env = before.batchOps env ++ pushed env) :
    Next stores buffers pushed before next := by
  refine ⟨later.idle, later.host, fun env => ?_⟩
  cases later.moved env with
  | kept log kept =>
    rw [ops, List.append_nil] at kept
    exact .kept (by rw [log, native]) kept
  | flushed log empty =>
    rw [ops, List.append_nil, host, native] at log
    exact .flushed log empty

theorem Idle.next (idle : Idle stores world) :
    Next stores world.host (fun _ => []) world world :=
  ⟨idle, rfl, fun _ => .kept rfl (List.append_nil _).symm⟩

theorem Idle.after (idle : Idle stores world) {native : Native} (unlocked : native.locked = false)
    (replayed : native.committed = native.log.flatten.foldl Entry.apply (stores env)) :
    Idle stores (world.after env native world.host) := by
  constructor
  · intro other
    rcases eq_or_ne other env with rfl | ne
    · simpa [World.after] using unlocked
    · simpa [World.after, ne] using idle.unlocked other
  · intro other
    rcases eq_or_ne other env with rfl | ne
    · simpa [World.after] using replayed
    · simpa [World.after, ne] using idle.replayed other

theorem Idle.wrote (idle : Idle stores world) {native : Native}
    (wrote : WroteAll (world.native env) ((world.batchOps env).map (Put.entry world.host)) native) :
    Next stores world.host (fun _ => []) world
      ((world.after env native world.host).setOps env []) := by
  have replayed : native.committed = native.log.flatten.foldl Entry.apply (stores env) := by
    rw [wrote.committed, idle.replayed env, wrote.log, List.flatten_append, List.foldl_append]
    simp
  have idle' := idle.after wrote.unlocked replayed
  refine ⟨⟨idle'.unlocked, idle'.replayed⟩, rfl, fun other => ?_⟩
  rcases eq_or_ne other env with rfl | ne
  · refine .flushed ?_ ?_
    · simpa [World.after, World.setOps] using wrote.log
    · simp [World.setOps]
  · exact .kept (by simp [World.after, World.setOps, ne]) (by simp [World.after, World.setOps, ne])

theorem Idle.undone (idle : Idle stores world) {native : Native}
    (undone : Undone (world.native env) native) :
    Next stores world.host (fun _ => []) world (world.after env native world.host) := by
  have replayed : native.committed = native.log.flatten.foldl Entry.apply (stores env) := by
    rw [undone.committed, undone.log, idle.replayed env]
  refine ⟨idle.after undone.unlocked replayed, rfl, fun other => .kept ?_ (by simp [World.after])⟩
  rcases eq_or_ne other env with rfl | ne
  · simpa [World.after] using undone.log
  · simp [World.after, ne]

variable (returns : ℕ → Returns)

private theorem engine_outcome (idle : Idle stores world) (env : ℕ) :
    ∃ result native, engine v8 returns world.host env (world.native env) (world.batchOps env) =
        ⟨result, native, world.host⟩ ∧
      WritesOutcome (returns env) ((world.batchOps env).map (Put.entry world.host))
        (world.native env) (result, native) :=
  ⟨_, _, rfl, transaction_forEach (returns env) (idle.unlocked env) fun handle put _ =>
    put.exec_writes (returns env) world.host _ handle⟩

private theorem flush_next (idle : Idle stores world) (env : ℕ) :
    (flush v8 returns env world).Meets False
      (Next stores world.host (fun _ => []) world)
      fun _ => Next stores world.host (fun _ => []) world := by
  obtain ⟨result, native, attempted, outcome⟩ := engine_outcome returns idle env
  refine flushBatchOps_meets attempted (fun _ => idle.next) ?_ (fun handler => nomatch handler)
  cases outcome with
  | committed wrote => exact idle.wrote wrote
  | failed reported undone => exact idle.undone undone
  | notBegun reported undone => exact idle.undone undone

/-- Without failures a flush commits. -/
theorem flush_commits (idle : Idle stores world) (some : world.batchOps env ≠ []) :
    ∃ next, flush v8 (fun _ => silent) env world = .returned next ∧
      (next.native env).log = (world.native env).log ++
        [(world.batchOps env).map (Put.entry world.host)] := by
  obtain ⟨result, native, attempted, outcome⟩ := engine_outcome (fun _ => silent) idle env
  cases outcome with
  | committed wrote =>
    refine ⟨_, flushBatchOps_committed some attempted, ?_⟩
    simpa [World.after, World.setOps] using wrote.log
  | failed reported undone =>
    obtain ⟨call, rc, code, -⟩ := reported
    cases code
  | notBegun reported undone =>
    obtain ⟨call, rc, code, -⟩ := reported
    cases code

private theorem pushBatch_next (idle : Idle stores world) (env : ℕ) (put : Put v8) :
    (pushBatch (flush v8 returns) env put world).Meets False
      (Next stores world.host (fun other => if env = other then [put] else []) world)
      fun _ => Next stores world.host (fun other => if env = other then [put] else []) world := by
  have ops (other : ℕ) : (world.setOps env (world.batchOps env ++ [put])).batchOps other =
      world.batchOps other ++ if env = other then [put] else [] := by
    rcases eq_or_ne other env with rfl | ne
    · simp [World.setOps]
    · simp [World.setOps, ne, ne.symm]
  have pushed : Idle stores (world.setOps env (world.batchOps env ++ [put])) :=
    ⟨idle.unlocked, idle.replayed⟩
  rw [pushBatch]
  split_ifs with full
  · exact (flush_next returns pushed env).mono id (fun _ later => later.of_pushed rfl rfl ops)
      fun _ _ later => later.of_pushed rfl rfl ops
  · have armed : Idle stores
        { world.setOps env (world.batchOps env ++ [put]) with timer := some env } :=
      ⟨pushed.unlocked, pushed.replayed⟩
    exact armed.next.of_pushed rfl rfl ops

/-- What a step pushes on the queue of an environment. -/
def pushed (v8 : V8) (buffers : Buffers) (env : ℕ) : Script Action ByteWrite → List (Put v8)
  | .call call => call.pushed v8 env buffers
  | .change _ => []

private theorem act_next (idle : Idle stores world) (step : Script Action ByteWrite) :
    (act (flush v8 returns) step world).Meets False
      (Next stores (step.memory ByteWrite.apply world.host)
        (fun env => pushed v8 world.host env step) world)
      fun _ => Next stores (step.memory ByteWrite.apply world.host)
        (fun env => pushed v8 world.host env step) world := by
  cases step with
  | change write =>
    exact ⟨⟨idle.unlocked, idle.replayed⟩, rfl, fun _ => .kept rfl (List.append_nil _).symm⟩
  | call call =>
    cases call with
    | batchPut env db key val =>
      simp only [act, batchPut, pushed, Action.pushed]
      cases db.keyType.capture v8 world.host key with
      | error error => exact idle.next
      | ok key =>
        cases db.valType.capture v8 world.host val with
        | error error => exact idle.next
        | ok val => exact pushBatch_next returns idle env ⟨db, key, val⟩
    | setBatchSize env num =>
      have idle' : Idle stores
          { world with batchSize := Function.update world.batchSize env num.min256 } :=
        ⟨idle.unlocked, idle.replayed⟩
      have same (other : ℕ) : world.batchOps other = world.batchOps other ++ [] :=
        (List.append_nil _).symm
      simp only [act, setBatchSize]
      split_ifs with long
      · exact (flush_next returns idle' env).mono id (fun _ later => later.of_pushed rfl rfl same)
          fun _ _ later => later.of_pushed rfl rfl same
      · exact idle'.next.of_pushed rfl rfl same
    | flushBatchOps env => exact flush_next returns idle env
    | fire =>
      have same (other : ℕ) : world.batchOps other = world.batchOps other ++ [] :=
        (List.append_nil _).symm
      simp only [act, fire]
      cases world.timer with
      | none => exact idle.next
      | some env =>
        have idle' : Idle stores { world with timer := none } := ⟨idle.unlocked, idle.replayed⟩
        exact (flush_next returns idle' env).mono id (fun _ later => later.of_pushed rfl rfl same)
          fun _ _ later => later.of_pushed rfl rfl same

theorem steps_next (idle : Idle stores world) {step : Script Action ByteWrite} {next : Shared v8}
    (stepped : Prog.Steps (act (flush v8 returns)) world step next) :
    Next stores (step.memory ByteWrite.apply world.host)
      (fun env => pushed v8 world.host env step) world next :=
  (act_next returns idle step).state? stepped

end Steps

private theorem given_snoc (env : ℕ) (script : List (Script Action ByteWrite))
    (step : Script Action ByteWrite) :
    given v8 env buffers (script ++ [step]) = given v8 env buffers script ++
      (pushed v8 (Script.after ByteWrite.apply buffers script) env step).map
        (·, Script.after ByteWrite.apply buffers script) := by
  rw [given, Script.stamped_snoc, List.flatMap_append]
  cases step with
  | call call => exact congrArg _ (List.flatMap_singleton ..)
  | change write => rfl

/-- The queue consists of the puts that were accepted last. -/
theorem Run.queued {returns : ℕ → Returns} {sizes : ℕ → JsNumber}
    {script : List (Script Action ByteWrite)} {world : Shared v8}
    (run : Run v8 returns (opened buffers stores sizes) script world) :
    Idle stores world ∧ world.host = Script.after ByteWrite.apply buffers script ∧
      ∀ env, ∃ taken queued, given v8 env buffers script = taken ++ queued ∧
        world.batchOps env = queued.map Prod.fst := by
  refine run.preserves (fun script world => Idle stores world ∧
    world.host = Script.after ByteWrite.apply buffers script ∧
    ∀ env, ∃ taken queued, given v8 env buffers script = taken ++ queued ∧
      world.batchOps env = queued.map Prod.fst)
    ⟨⟨fun _ => rfl, fun _ => rfl⟩, rfl, fun _ => ⟨[], [], rfl, rfl⟩⟩ ?_
  rintro script world step next ⟨idle, host, queues⟩ stepped
  have after := steps_next returns idle stepped
  refine ⟨after.idle, ?_, fun env => ?_⟩
  · rw [after.host, host, Script.after_snoc]
  · obtain ⟨taken, queued, accepted, ops⟩ := queues env
    rw [given_snoc, accepted, ← host]
    cases after.moved env with
    | kept log kept =>
      refine ⟨taken, _, List.append_assoc .., ?_⟩
      rw [kept, ops, List.map_append, List.map_map]
      exact congrArg _ (List.map_id _).symm
    | flushed log empty =>
      refine ⟨_, [], (List.append_nil _).symm, ?_⟩
      rw [empty, List.map_nil]

end ByRef

end Lmdb

end NodeKv
