import NodeKv.Proofs.Lmdb.Writers
import NodeKv.Soundness.Lmdb.Flush

/-! # One writer at a time

LMDB's writer mutex is not recursive: on the one thread there is, beginning a write transaction
while another one of the environment is open blocks forever. Transactions that the wrapper begins
for itself end within their turn. What stays open from turn to turn is the script's own: a
transaction begun by `beginTxn` or `renew` and not ended yet. Nothing keeps another turn from
beginning a second one meanwhile, least of all the timer.
-/

namespace NodeKv.Lmdb.Turns

open Machine

variable {v8 : V8}

/-- The sanitizer of the type accepts the value. -/
def Accepted (v8 : V8) (type : DataType) (value : Value) : Prop :=
  ∃ accepted, type.sanitize v8 value = .ok accepted

/-- The call calls `mdb_txn_begin` for a write transaction. -/
def CallBegins (v8 : V8) (native : Native) : Session → Prop
  | .put db key val none => Accepted v8 db.keyType key ∧ Accepted v8 db.valType val
  | .del db key none val => Accepted v8 db.keyType key ∧ Accepted v8 db.valType val
  | .beginTxn readonly => readonly = false
  | .renew handle => (native.txns handle).readonly = false ∧ (native.txns handle).txn = none
  | _ => False

/-- The turn calls `mdb_txn_begin` for a write transaction on the environment. -/
def Begins (state : State v8) (env : ℕ) : Turn → Prop
  | .call other call => other = env ∧ CallBegins v8 (state.world.native env) call
  | .openDb other opt => other = env ∧ opt.keyType ≠ none ∧ opt.valType ≠ none ∧
      ∃ name, opt.name = some name ∧ name ≠ "" ∧ hasName (state.dbs env) name = false
  | .batch (.batchPut other db key val) => other = env ∧
      Accepted v8 db.keyType key ∧ Accepted v8 db.valType val ∧
      (state.world.batchSize env).reached ((state.world.batchOps env).length + 1) = true
  | .batch (.setBatchSize other num) => other = env ∧ state.world.batchOps env ≠ [] ∧
      num.min256.exceeded (state.world.batchOps env).length = true
  | .batch (.flushBatchOps other) => other = env ∧ state.world.batchOps env ≠ []
  | .batch .fire => state.world.timer = some env ∧ state.world.batchOps env ≠ []

/-- The script begins or renews a transaction of its own. -/
def Explicit : Session → Prop
  | .beginTxn _ => True
  | .renew _ => True
  | _ => False

/-- The turn never comes to an end, though LMDB has no error to report. -/
def Blocks (state : State v8) (turn : Turn) : Prop := perform (fun _ => silent) turn state = .diverged

/-- The environments between turns. -/
structure Orderly (world : Plain v8) : Prop where
  exclusive : ∀ env, Exclusive (world.native env)
  puts : ∀ env, ∀ op ∈ world.batchOps env, op.isPut = true

/-- A turn after which the objects are writing that were writing before. -/
structure Undisturbed (before after : Plain v8) : Prop where
  orderly : Orderly after
  writes : ∀ env, (after.native env).writes = (before.native env).writes

section Batch

variable {world : Plain v8} {env : ℕ}

theorem Orderly.setOps (orderly : Orderly world) {ops : List (BatchOp v8)}
    (puts : ∀ op ∈ ops, op.isPut = true) : Orderly (world.setOps env ops) := by
  refine { orderly with puts := ?_ }
  intro other
  by_cases same : other = env
  · subst same
    simpa [World.setOps] using puts
  · simpa [World.setOps, same] using orderly.puts other

theorem Undisturbed.after (orderly : Orderly world) {native : Native}
    (settles : Settles (world.native env) native) : Undisturbed world (world.after env native ()) := by
  refine ⟨{ orderly with exclusive := ?_ }, ?_⟩
  · intro other
    by_cases same : other = env
    · subst same
      simpa [World.after] using settles.exclusive
    · simpa [World.after, same] using orderly.exclusive other
  · intro other
    by_cases same : other = env
    · subst same
      simpa [World.after] using settles.writes
    · simp [World.after, same]

/-- A flush ends its own transaction, however it ends itself. -/
theorem flush_undisturbed (returns : ℕ → Returns) (orderly : Orderly world) (env : ℕ) :
    (flush v8 returns env world).Meets True (Undisturbed world) fun _ => Undisturbed world := by
  cases ran : attempt (returns env) (world.batchOps env) (world.native env) with
  | mk result native =>
    have attempted : engine v8 returns world.host env (world.native env) (world.batchOps env) =
        ⟨result, native, ()⟩ := by
      simp only [engine, ran]
    refine flushBatchOps_meets attempted (fun _ => ⟨orderly, fun _ => rfl⟩) ?_
      (by rintro ⟨⟩)
    by_cases stuck : result = .stuck
    · subst stuck
      trivial
    · have settles : Settles (world.native env) native := by
        have settled := attempt_settles (returns env) (orderly.exclusive env) (orderly.puts env)
          (by rw [ran]; exact stuck)
        rwa [ran] at settled
      have left := Undisturbed.after orderly settles
      cases result with
      | committed => exact ⟨left.orderly.setOps (by simp), left.writes⟩
      | failed error => exact left
      | notBegun error => exact left
      | stuck => trivial

/-- The same for a flush at the end of an action that has touched no native environment. -/
theorem flush_undisturbed_after (returns : ℕ → Returns) (world middle : Plain v8)
    (orderly : Orderly middle) (same : middle.native = world.native) (env : ℕ) :
    (flush v8 returns env middle).Meets True (Undisturbed world) fun _ => Undisturbed world := by
  have moved : ∀ next, Undisturbed middle next → Undisturbed world next :=
    fun next left => ⟨left.orderly, fun other => by rw [left.writes, same]⟩
  exact (flush_undisturbed returns orderly env).mono id moved fun _ => moved

theorem Orderly.pushed (orderly : Orderly world) (db : Db) (key : Datum v8 db.keyType)
    (val : Datum v8 db.valType) :
    Orderly (world.setOps env (world.batchOps env ++ [.put db key val])) := by
  refine orderly.setOps ?_
  intro op member
  rcases List.mem_append.mp member with queued | last
  · exact orderly.puts env op queued
  · rw [List.mem_singleton.mp last]
    rfl

private theorem act_undisturbed (returns : ℕ → Returns) (orderly : Orderly world)
    (action : Action) :
    (act (flush v8 returns) action world).Meets True (Undisturbed world)
      fun _ => Undisturbed world := by
  cases action with
  | batchPut env db key val =>
    simp only [act, batchPut]
    cases db.keyType.check v8 key with
    | error error => exact ⟨orderly, fun _ => rfl⟩
    | ok key =>
      cases db.valType.check v8 val with
      | error error => exact ⟨orderly, fun _ => rfl⟩
      | ok val =>
        have pushed : Orderly (world.setOps env _) := orderly.pushed db key val
        simp only [pushBatch]
        split_ifs
        · exact flush_undisturbed_after returns world _ pushed rfl env
        · exact ⟨{ pushed with }, fun _ => rfl⟩
  | setBatchSize env num =>
    simp only [act, setBatchSize]
    split_ifs
    · exact flush_undisturbed_after returns world
        { world with batchSize := Function.update world.batchSize env num.min256 }
        ⟨orderly.exclusive, orderly.puts⟩ rfl env
    · exact ⟨{ orderly with }, fun _ => rfl⟩
  | flushBatchOps env => exact flush_undisturbed returns orderly env
  | fire =>
    simp only [act, fire]
    cases world.timer with
    | none => exact ⟨orderly, fun _ => rfl⟩
    | some env =>
      exact flush_undisturbed_after returns world { world with timer := none }
        ⟨orderly.exclusive, orderly.puts⟩ rfl env

private theorem flush_blocks_iff (orderly : Orderly world) (env : ℕ) :
    flush v8 (fun _ => silent) env world = .diverged ↔
      world.batchOps env ≠ [] ∧ (world.native env).locked = true := by
  by_cases empty : world.batchOps env = []
  · rw [flush, flushBatchOps_empty empty]
    simp [empty]
  · cases locked : (world.native env).locked with
    | true =>
      rw [flush, flushBatchOps_stuck empty (attempt_locked _ locked)]
      simp [empty]
    | false =>
      have returned : ∃ native, Settled (world.native env) (world.batchOps env) native ∧
          flush v8 (fun _ => silent) env world =
            .returned ((world.after env native ()).setOps env []) :=
        flush_puts locked empty (orderly.puts env)
      obtain ⟨native, -, returned⟩ := returned
      rw [returned]
      simp

private theorem accepted_iff_check {type : DataType} {value : Value} :
    Accepted v8 type value ↔ ∃ datum, type.check v8 value = .ok datum := by
  rcases type.check_cases v8 value with ⟨error, rejected, checked⟩ | ⟨datum, accepted, checked⟩
  · simp [Accepted, rejected, checked]
  · simp [Accepted, accepted, checked]

/-- A flush in the middle of an action is the last thing that it does. -/
theorem act_blocks_iff (orderly : Orderly world) (dbs : ℕ → List String) (action : Action) :
    act (flush v8 fun _ => silent) action world = .diverged ↔
      ∃ env, Begins ⟨world, dbs⟩ env (.batch action) ∧ (world.native env).locked = true := by
  cases action with
  | batchPut env db key val =>
    simp only [act, batchPut, Begins, accepted_iff_check]
    cases db.keyType.check v8 key with
    | error error => simp
    | ok key =>
      cases db.valType.check v8 val with
      | error error => simp
      | ok val =>
        have pushed : Orderly (world.setOps env _) := orderly.pushed db key val
        have blocks := flush_blocks_iff pushed env
        simp only [pushBatch, World.setOps, Function.update_self, List.length_append,
          List.length_singleton] at blocks ⊢
        split_ifs with reached
        · rw [blocks]
          simp [reached]
        · simp [autoFlush, Prog.update, reached]
  | setBatchSize env num =>
    have resized : Orderly { world with
        batchSize := Function.update world.batchSize env num.min256 } :=
      ⟨orderly.exclusive, orderly.puts⟩
    simp only [act, setBatchSize, Begins, Function.update_self]
    split_ifs with exceeded
    · rw [flush_blocks_iff resized env]
      simp [exceeded]
    · simp [exceeded]
  | flushBatchOps env =>
    simp only [act, Begins, flush_blocks_iff orderly]
    simp
  | fire =>
    simp only [act, fire, Begins]
    cases world.timer with
    | none => simp
    | some env =>
      have disarmed : Orderly { world with timer := none } := ⟨orderly.exclusive, orderly.puts⟩
      simp only [flush_blocks_iff disarmed env]
      simp

end Batch

section Calls

variable {native : Native}

private theorem statement_diverged_iff {α : Type*} {call : Native → Result α × Native} :
    Result.statement call native = .diverged ↔ (call native).1 = .never := by
  unfold Result.statement
  split <;> rename_i ran <;> simp [ran]

private theorem writeScope_blocks_iff (txn : Option ℕ) (entry : Entry) :
    writeScope silent (txnArg txn) entry native = none ↔ txn = none ∧ native.locked = true := by
  cases txn with
  | some handle => simp [writeScope, txnArg]
  | none => cases locked : native.locked <;> simp [writeScope, txnArg, beginWrite, silent, locked]

private theorem asked?_isSome_iff (db : Db) (write : Write) :
    (write.asked? v8 db).isSome ↔
      Accepted v8 db.keyType write.key ∧ Accepted v8 db.valType write.val := by
  simp only [accepted_iff_check]
  cases write with
  | put key val =>
    simp only [Write.asked?, Write.key, Write.val]
    cases db.keyType.check v8 key <;> cases db.valType.check v8 val <;> simp
  | del key val =>
    simp only [Write.asked?, Write.key, Write.val]
    cases db.keyType.check v8 key <;> cases db.valType.check v8 val <;> simp

private theorem write_blocks_iff (db : Db) (txn : Option ℕ) (write : Write) :
    (write.within silent v8 db txn native).1 = .never ↔
      (Accepted v8 db.keyType write.key ∧ Accepted v8 db.valType write.val) ∧
        txn = none ∧ native.locked = true := by
  rw [← asked?_isSome_iff]
  rcases write.within_cases silent v8 db txn native with
    ⟨refused, error, threw⟩ | ⟨entry, asked, ran⟩
  · simp [refused, threw]
  · rw [ran, ← writeScope_blocks_iff txn entry, asked]
    split <;> rename_i ended <;> simp [ended, Write.reply_ne_never]

private theorem get_comes_back (db : Db) (key : Value) (txn : Option ℕ) :
    (dbGet silent v8 db key txn native).1 ≠ .never := by
  unfold dbGet
  cases keyed : db.keyType.sanitize v8 key with
  | error error => simp
  | ok key =>
    obtain ⟨bytes, encoded⟩ := Option.isSome_iff_exists.mp (DataType.encode_of_sanitize keyed)
    have replied : ∀ answer, Db.get.reply answer ≠ .never := by
      intro answer
      unfold Db.get.reply
      split
      · simp
      · split_ifs <;> simp
    cases txn with
    | some handle => simpa only [Db.get, encoded, txnArg] using replied _
    | none => simpa only [Db.get, encoded, txnArg] using replied _

private theorem txnCtor_blocks_iff (readonly : Bool) :
    (txnCtor silent readonly native).1 = .never ↔ readonly = false ∧ native.locked = true := by
  cases readonly with
  | true => cases taken : native.slotTaken <;> simp [txnCtor, beginRead, silent, taken]
  | false => cases locked : native.locked <;> simp [txnCtor, beginWrite, silent, locked]

private theorem txnRenew_blocks_iff (handle : ℕ) :
    (txnRenew silent handle native).1 = .never ↔
      ((native.txns handle).readonly = false ∧ (native.txns handle).txn = none) ∧
        native.locked = true := by
  unfold txnRenew
  cases (native.txns handle).readonly with
  | true =>
    simp only [↓reduceIte]
    split
    · simp only
      split <;> simp
    · simp
  | false =>
    cases (native.txns handle).txn with
    | some txn => simp
    | none => cases locked : native.locked <;> simp [beginWrite, silent, locked]

/-- A call blocks exactly if it begins a write transaction while the mutex is taken. -/
theorem call_blocks_iff (call : Session) :
    call.perform silent v8 native = .diverged ↔
      CallBegins v8 native call ∧ native.locked = true := by
  cases call with
  | get db key txn =>
    simp only [Session.perform, statement_diverged_iff, CallBegins, false_and, iff_false]
    exact get_comes_back db key txn
  | put db key val txn =>
    rw [Session.perform, statement_diverged_iff]
    refine (write_blocks_iff db txn (.put key val)).trans ?_
    cases txn <;> simp [CallBegins, Write.key, Write.val]
  | del db key txn val =>
    rw [Session.perform, statement_diverged_iff]
    refine (write_blocks_iff db txn (.del key val)).trans ?_
    cases txn <;> simp [CallBegins, Write.key, Write.val]
  | beginTxn readonly =>
    rw [Session.perform, statement_diverged_iff]
    exact txnCtor_blocks_iff readonly
  | commit handle =>
    simp only [Session.perform, statement_diverged_iff, CallBegins, false_and, iff_false]
    unfold txnCommit
    split
    · simp
    · simp only
      split <;> simp
  | abort handle =>
    simp only [Session.perform, statement_diverged_iff, CallBegins, false_and, iff_false]
    unfold txnAbort
    split <;> simp
  | reset handle =>
    simp only [Session.perform, statement_diverged_iff, CallBegins, false_and, iff_false]
    unfold txnReset
    split <;> simp
  | renew handle =>
    rw [Session.perform, statement_diverged_iff]
    exact txnRenew_blocks_iff handle

/-- The rule on writers holds after a call, and who is writing was so before, or is the script with
a transaction that it has just begun. -/
structure Kept (call : Session) (before after : Native) : Prop where
  exclusive : Exclusive after
  writes : ∀ handle, after.writes handle = true → before.writes handle = true ∨ Explicit call

theorem Kept.of_quiet {call : Session} {next : Native} (exclusive : Exclusive native)
    (quiet : Quiet native next) : Kept call native next :=
  ⟨quiet.exclusive exclusive, fun _ writes => .inl (quiet.writes ▸ writes)⟩

theorem Kept.of_ended {call : Session} {next : Native} {handle : ℕ}
    (ended : Ended native next handle) : Kept call native next := by
  refine ⟨ended.exclusive, fun other writes => .inl ?_⟩
  by_cases same : other = handle
  · rw [same, ended.done] at writes
    exact nomatch writes
  · rwa [← ended.others other same]

theorem statement_meets {α : Type*} {call : Native → Result α × Native} {property : Native → Prop}
    (holds : property (call native).2) :
    (Result.statement call native).Meets True property fun _ => property := by
  unfold Result.statement
  split <;> rename_i ran <;> rw [ran] at holds
  · exact holds
  · exact holds
  · trivial

private theorem call_kept (returns : Returns) (exclusive : Exclusive native) (call : Session)
    (known : ∀ handle, call.handle? = some handle → handle < native.count) :
    (call.perform returns v8 native).Meets True (Kept call native) fun _ => Kept call native := by
  cases call with
  | get db key txn =>
    exact statement_meets (.of_quiet exclusive (dbGet_quiet returns v8 db key txn native))
  | put db key val txn =>
    exact statement_meets
      (.of_quiet exclusive ((Write.put key val).within_quiet returns v8 db txn native))
  | del db key txn val =>
    exact statement_meets
      (.of_quiet exclusive ((Write.del key val).within_quiet returns v8 db txn native))
  | beginTxn readonly =>
    exact statement_meets ⟨txnCtor_exclusive returns exclusive readonly, fun _ _ => .inr trivial⟩
  | commit handle => exact statement_meets (.of_ended (txnCommit_ended returns exclusive))
  | abort handle => exact statement_meets (.of_ended (txnAbort_ended exclusive))
  | reset handle => exact statement_meets (.of_quiet exclusive (txnReset_quiet handle native))
  | renew handle =>
    exact statement_meets
      ⟨txnRenew_exclusive returns exclusive (known handle rfl), fun _ _ => .inr trivial⟩

end Calls

section Turns

variable {state next : State v8} {turn : Turn}

/-- The script itself begins a transaction on the environment. -/
def ExplicitOn (env : ℕ) : Turn → Prop
  | .call other call => other = env ∧ Explicit call
  | _ => False

/-- What holds after a turn. -/
structure Passed (turn : Turn) (before after : State v8) : Prop where
  orderly : Orderly after.world
  writes : ∀ env handle, (after.world.native env).writes handle = true →
    (before.world.native env).writes handle = true ∨ ExplicitOn env turn

theorem Orderly.setNative {env : ℕ} {native : Native} (orderly : Orderly state.world)
    (exclusive : Exclusive native) : Orderly (state.setNative env native).world := by
  refine { orderly with exclusive := ?_ }
  intro other
  by_cases same : other = env
  · subst same
    simpa [State.setNative] using exclusive
  · simpa [State.setNative, same] using orderly.exclusive other

private theorem openDb_passed (returns : Returns) (orderly : Orderly state.world) (env : ℕ)
    (opt : DbOptions) :
    (openDb returns env opt state).Meets True (Passed (.openDb env opt) state)
      fun _ => Passed (.openDb env opt) state := by
  have moved {native : Native} (quiet : Quiet (state.world.native env) native) :
      Passed (.openDb env opt) state (state.setNative env native) := by
    refine ⟨orderly.setNative (quiet.exclusive (orderly.exclusive env)), ?_⟩
    intro other handle writes
    by_cases here : other = env
    · subst here
      exact .inl (by simpa [State.setNative, quiet.writes] using writes)
    · exact .inl (by simpa [State.setNative, here] using writes)
  cases given : opt.name.filter (!·.isEmpty) with
  | none =>
    rw [openDb_unnamed given]
    exact ⟨orderly, fun _ _ => .inl⟩
  | some name =>
    have ended := openDb_opened given returns env state
    generalize openDb returns env opt state = outcome at ended ⊢
    generalize opening returns env opt name state = reply at ended
    cases ended with
    | ok native quiet => exact ⟨{ (moved quiet).orderly with }, (moved quiet).writes⟩
    | throws error native quiet => exact moved quiet
    | never => trivial

private theorem step_passed (orderly : Orderly state.world) (step : Step v8 state turn next) :
    Passed turn state next := by
  obtain ⟨known, returns, ended⟩ := step
  have meets : (perform returns turn state).Meets True (Passed turn state)
      fun _ => Passed turn state := by
    cases turn with
    | call env call =>
      rw [perform]
      apply Prog.zoom_meets
      refine (call_kept (returns env) (orderly.exclusive env) call known).mono id ?_ fun _ => ?_
      all_goals
        intro native kept
        refine ⟨orderly.setNative kept.exclusive, ?_⟩
        intro other handle writes
        by_cases here : other = env
        · subst here
          rcases kept.writes handle (by simpa [State.setNative] using writes) with before | explicit
          · exact .inl before
          · exact .inr ⟨rfl, explicit⟩
        · exact .inl (by simpa [State.setNative, here] using writes)
    | openDb env opt => exact openDb_passed (returns env) orderly env opt
    | batch action =>
      rw [perform]
      apply Prog.zoom_meets
      refine (act_undisturbed returns orderly action).mono id ?_ fun _ => ?_
      all_goals
        intro world left
        exact ⟨left.orderly, fun env handle writes => .inl (left.writes env ▸ writes)⟩
  exact meets.state? ended

private theorem zoom_diverged_iff {σ τ : Type*} {part : τ → σ} {put : τ → σ → τ}
    {program : Prog Error σ}
    {whole : τ} :
    Prog.zoom part put program whole = .diverged ↔ program (part whole) = .diverged := by
  unfold Prog.zoom
  cases program (part whole) <;> simp

private theorem dbCtor_blocks_iff {native : Native} :
    (dbCtor silent native).1 = .never ↔ native.locked = true := by
  cases locked : native.locked <;> simp [dbCtor, beginWrite, silent, locked, mdbCommit]

private theorem openDb_blocks_iff (env : ℕ) (opt : DbOptions) :
    openDb silent env opt state = .diverged ↔
      ∃ env', Begins state env' (.openDb env opt) ∧ (state.world.native env').locked = true := by
  have ctor : ∀ native : Native, (dbCtor silent native).1 = .never ↔ native.locked = true :=
    fun native => dbCtor_blocks_iff
  unfold openDb
  simp only [Begins]
  cases opt.name with
  | none => simp
  | some name =>
    by_cases unnamed : name = ""
    · have filtered : (some name).filter (!·.isEmpty) = none := by simp [unnamed]
      simp only [filtered]
      simp [unnamed]
    · have named : (some name).filter (!·.isEmpty) = some name := by simp [unnamed]
      simp only [named]
      split_ifs with known
      · simp [known]
      · cases opt.keyType with
        | none => simp
        | some keyType =>
          cases opt.valType with
          | none => simp
          | some valType =>
            simp only [← ctor]
            split <;> rename_i ran <;> simp [ran, unnamed, known]

/-- A turn blocks exactly if it begins a write transaction where one is open. -/
theorem blocks_iff (orderly : Orderly state.world) :
    Blocks state turn ↔
      ∃ env, Begins state env turn ∧ (state.world.native env).locked = true := by
  cases turn with
  | call env call =>
    rw [Blocks, perform, zoom_diverged_iff, call_blocks_iff]
    simp [Begins, and_assoc]
  | openDb env opt => exact openDb_blocks_iff env opt
  | batch action =>
    rw [Blocks, perform, zoom_diverged_iff]
    exact act_blocks_iff orderly state.dbs action

end Turns

/-- What is known of the writers of each environment, in a state between turns. -/
structure OneWriter (state : State v8) : Prop where
  alone : ∀ env handle other, (state.world.native env).writes handle = true →
    (state.world.native env).writes other = true → other = handle
  /-- Only a transaction that the script itself begins outlasts its turn. -/
  explicit : ∀ turn next, Step v8 state turn next → ∀ env handle,
    (next.world.native env).writes handle = true →
      (state.world.native env).writes handle = true ∨ ExplicitOn env turn
  /-- The next turn can come to an end exactly if the script has no write transaction open on an
  environment on which the turn begins one. -/
  begins : ∀ turn, ¬Blocks state turn ↔
    ∀ env, Begins state env turn → ∀ handle, (state.world.native env).writes handle = false

/-- Whatever the script has done and whatever LMDB has returned, a turn begins a write transaction
without waiting for itself exactly if the script has none open. -/
theorem writer_begins_alone {stores : ℕ → Store} {sizes : ℕ → JsNumber} {turns : List Turn}
    {state : State v8} (run : Runs (Step v8) (start stores sizes) turns state) :
    OneWriter state := by
  have orderly : Orderly state.world := by
    refine run.preserves (fun _ state => Orderly state.world) ?_ ?_
    · refine ⟨fun env => ⟨⟨fun _ _ => rfl, nofun⟩, fun _ _ => rfl⟩, ?_⟩
      intro env op member
      exact nomatch member
    · intro turns state turn next orderly step
      exact (step_passed orderly step).orderly
  refine ⟨?_, ?_, ?_⟩
  · intro env handle other writes writes'
    exact (orderly.exclusive env).mutex.alone writes writes'
  · intro turn next step
    exact (step_passed orderly step).writes
  · intro turn
    rw [blocks_iff orderly, not_exists]
    refine forall_congr' fun env => ?_
    rw [not_and, (orderly.exclusive env).mutex.taken_iff]
    simp

/-- A put into a database of 32-bit integers, as the first environment queues it. -/
def queuedPut : Turn :=
  .batch (.batchPut 0 ⟨0, .int32, .int32, false⟩ (.number (.finite 1)) (.number (.finite 1)))

/-- A put is queued while the script has a transaction open, which it then commits. -/
theorem writer_begins_alone_after_commit : ∃ state,
    Runs (Step V8.basic) (start (fun _ _ _ => []) fun _ => .finite 64)
      [.call 0 (.beginTxn false), queuedPut, .call 0 (.commit 0)] state ∧ OneWriter state := by
  have run : Runs (Step V8.basic) (start (fun _ _ _ => []) fun _ => .finite 64)
      [.call 0 (.beginTxn false), queuedPut, .call 0 (.commit 0)] _ :=
    .snoc (.snoc (.snoc .nil ⟨nofun, fun _ => silent, rfl⟩) ⟨trivial, fun _ => silent, rfl⟩)
      ⟨fun handle same => Option.some.inj same ▸ Nat.one_pos, fun _ => silent, rfl⟩
  exact ⟨_, run, writer_begins_alone run⟩

/-- Before the commit the timer fires, and its flush waits for the script's own transaction. -/
theorem timer_blocks_beside_transaction : ∃ state,
    Runs (Step V8.basic) (start (fun _ _ _ => []) fun _ => .finite 64)
      [.call 0 (.beginTxn false), queuedPut] state ∧ Blocks state (.batch .fire) := by
  have run : Runs (Step V8.basic) (start (fun _ _ _ => []) fun _ => .finite 64)
      [.call 0 (.beginTxn false), queuedPut] _ :=
    .snoc (.snoc .nil ⟨nofun, fun _ => silent, rfl⟩) ⟨trivial, fun _ => silent, rfl⟩
  exact ⟨_, run, rfl⟩

end NodeKv.Lmdb.Turns
