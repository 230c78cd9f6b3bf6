import NodeKv.Proofs.Lmdb.Journaled
import NodeKv.Soundness.Lmdb.Writers

/-! # Transactions one after the other

However the calls, queues, flushes and the timer of one process come to interleave, and whatever LMDB
returns, the committed state of an environment is that of its committed transactions performed one
after the other. A write transaction works on the latest of these states, and a read-only one that
holds the reader slot sees one of them for as long as it is left alone. Nothing is said of reads that
no slot protects: in a transaction that could not be renewed, and of implicit reads beside a
transaction that holds the slot.
-/

namespace NodeKv.Lmdb

open Machine

variable {v8 : V8}

/-- The call only reads. -/
def Session.isGet : Session → Bool
  | get _ _ _ => true
  | _ => false

/-- The rules between calls, beside a journal that has been reached before and a transaction that is
watched. -/
structure Watches (initial : Store) (journal : List (List Entry)) (watched : Option (ℕ × Txn))
    (native : Native) : Prop where
  exclusive : Exclusive native
  journaled : Journaled initial native
  grown : journal <+: native.log
  kept : ∀ handle txn, watched = some (handle, txn) → (native.txns handle).txn = some txn

namespace Watches

variable {initial : Store} {journal : List (List Entry)} {watched : Option (ℕ × Txn)}
  {native next : Native}

/-- A method that goes through another object than the one that is watched. -/
theorem of_books (watches : Watches initial journal watched native) {handle : ℕ}
    (books : Books handle native next) (exclusive : Exclusive next)
    (apart : ∀ other txn, watched = some (other, txn) → other ≠ handle) :
    Watches initial journal watched next := by
  refine ⟨exclusive, books.journaled watches.exclusive watches.journaled,
    watches.grown.trans books.log_prefix, ?_⟩
  intro other txn same
  rw [books.others (apart other txn same)]
  exact watches.kept other txn same

/-- The next object to be made is not watched. -/
theorem apart (watches : Watches initial journal watched native) (other : ℕ) (txn : Txn)
    (same : watched = some (other, txn)) : other ≠ native.count :=
  (watches.exclusive.known (watches.kept other txn same)).ne

end Watches

section Flush

variable {initial : Store} {journal : List (List Entry)} {watched : Option (ℕ × Txn)}
  {native : Native} (returns : Returns)

theorem Db.del_quiet (db : Db) (key val : Value) (txn : Option ℕ) (native : Native) :
    Quiet native (db.del returns v8 key val (txnArg txn) native).2 := by
  unfold Db.del
  split
  · split
    · exact .refl native
    · exact writeScope_quiet returns ‹_›
    · split_ifs <;> exact writeScope_quiet returns ‹_›
  · exact .refl native

/-- A queued operation, in the transaction of its flush or, for a delete, beside it. -/
theorem exec_watches {handle : ℕ}
    (apart : ∀ other txn, watched = some (other, txn) → other ≠ handle)
    (op : BatchOp v8) : Prog.Preserves (Watches initial journal watched) (op.exec returns handle) := by
  intro native watches
  cases op with
  | put db key val =>
    refine Turns.statement_meets (watches.of_books (db.put_books returns v8 _ _ _ native) ?_ apart)
    exact (db.put_quiet returns v8 _ _ (some handle) native).exclusive watches.exclusive
  | del db key =>
    refine Turns.statement_meets
      (watches.of_books (db.del_books returns v8 _ _ _ native) ?_ watches.apart)
    exact (db.del_quiet returns _ _ none native).exclusive watches.exclusive

/-- The transaction of a flush, with the commit or the abort that ends it. -/
theorem attempt_watches (watches : Watches initial journal watched native) (ops : List (BatchOp v8))
    (ended : (attempt returns ops native).1 ≠ .stuck) :
    Watches initial journal watched (attempt returns ops native).2 := by
  have created : Watches initial journal watched (txnCtor returns false native).2 :=
    watches.of_books (txnCtor_books returns false native)
      (txnCtor_exclusive returns watches.exclusive false) watches.apart
  have made := txnCtor_cases returns false native
  unfold attempt attemptWith transaction at ended ⊢
  generalize txnCtor returns false native = begun at created made ended ⊢
  obtain ⟨result, begun⟩ := begun
  cases result with
  | never => exact absurd rfl ended
  | throws error => exact created
  | ok handle =>
    obtain rfl : handle = native.count := by
      rcases made with ⟨failed, -⟩ | ⟨same, -⟩
      · exact absurd rfl (failed handle)
      · exact Result.ok.inj same
    have ran : (Prog.seq (Prog.forEach (BatchOp.exec returns native.count) ops)
        (Result.statement (txnCommit returns native.count)) begun).Meets True
        (Watches initial journal watched) fun _ => Watches initial journal watched := by
      refine Prog.Preserves.seq (.forEach (exec_watches returns watches.apart) ops) ?_ begun created
      intro next still
      refine Turns.statement_meets
        (still.of_books (txnCommit_books returns native.count next) ?_ watches.apart)
      exact (txnCommit_ended returns still.exclusive).exclusive
    cases outcome : Prog.seq (Prog.forEach (BatchOp.exec returns native.count) ops)
        (Result.statement (txnCommit returns native.count)) begun with
    | returned next =>
      rw [outcome] at ran
      simp only [outcome]
      exact ran
    | threw error next =>
      rw [outcome] at ran
      simp only [outcome]
      exact Watches.of_books ran (txnAbort_books native.count next)
        (txnAbort_ended (Watches.exclusive ran)).exclusive watches.apart
    | diverged =>
      simp only [outcome] at ended
      exact absurd rfl ended

end Flush

section Calls

variable {initial : Store} {journal : List (List Entry)} {watched : Option (ℕ × Txn)}
  {native : Native}

/-- A call of the script that does not change what is watched. -/
theorem call_watches (returns : Returns) (watches : Watches initial journal watched native)
    (call : Session) (known : ∀ handle, call.handle? = some handle → handle < native.count)
    (spared : ∀ handle txn, watched = some (handle, txn) → call.isGet = false →
      call.handle? ≠ some handle) :
    (call.perform returns v8 native).Meets True (Watches initial journal watched)
      fun _ => Watches initial journal watched := by
  have apart {handle : ℕ} (named : call.handle? = some handle) (writes : call.isGet = false)
      (other : ℕ) (txn : Txn) (same : watched = some (other, txn)) : other ≠ handle := by
    rintro rfl
    exact spared other txn same writes named
  have written (db : Db) (txn : Option ℕ) (write : Write) (named : call.handle? = txn)
      (writes : call.isGet = false) :
      Watches initial journal watched (write.within returns v8 db txn native).2 := by
    refine watches.of_books (write.within_books returns v8 db txn native)
      ((write.within_quiet returns v8 db txn native).exclusive watches.exclusive) ?_
    cases txn with
    | none => exact watches.apart
    | some handle => exact apart named writes
  cases call with
  | get db key txn =>
    exact Turns.statement_meets (watches.of_books
      ((dbGet_cached returns v8 db key txn native).books native.count)
      ((dbGet_quiet returns v8 db key txn native).exclusive watches.exclusive) watches.apart)
  | put db key val txn => exact Turns.statement_meets (written db txn (.put key val) rfl rfl)
  | del db key txn val => exact Turns.statement_meets (written db txn (.del key val) rfl rfl)
  | beginTxn readonly =>
    exact Turns.statement_meets (watches.of_books (txnCtor_books returns readonly native)
      (txnCtor_exclusive returns watches.exclusive readonly) watches.apart)
  | commit handle =>
    exact Turns.statement_meets (watches.of_books (txnCommit_books returns handle native)
      (txnCommit_ended returns watches.exclusive).exclusive (apart rfl rfl))
  | abort handle =>
    exact Turns.statement_meets (watches.of_books (txnAbort_books handle native)
      (txnAbort_ended watches.exclusive).exclusive (apart rfl rfl))
  | reset handle =>
    exact Turns.statement_meets (watches.of_books (txnReset_books handle native)
      ((txnReset_quiet handle native).exclusive watches.exclusive) (apart rfl rfl))
  | renew handle =>
    exact Turns.statement_meets (watches.of_books (txnRenew_books returns handle native)
      (txnRenew_exclusive returns watches.exclusive (known handle rfl)) (apart rfl rfl))

end Calls

namespace Turns

/-- The use may change a transaction object of the environment. -/
def Use.Changes (env handle : ℕ) : Use → Prop
  | turn (.call other call) => other = env ∧ call.handle? = some handle ∧ call.isGet = false
  | _ => False

section Uses

variable {stores : ℕ → Store} {journals : ℕ → List (List Entry)} {watched : ℕ → Option (ℕ × Txn)}

/-- The rules in every environment. -/
def Watched (stores : ℕ → Store) (journals : ℕ → List (List Entry))
    (watched : ℕ → Option (ℕ × Txn)) (world : Plain v8) : Prop :=
  ∀ env, Watches (stores env) (journals env) (watched env) (world.native env)

theorem Watched.set {world : Plain v8} (watches : Watched stores journals watched world) {env : ℕ}
    {native : Native} (here : Watches (stores env) (journals env) (watched env) native) (other : ℕ) :
    Watches (stores other) (journals other) (watched other)
      (Function.update world.native env native other) := by
  by_cases same : other = env
  · subst same
    rwa [Function.update_self]
  · rw [Function.update_of_ne same]
    exact watches other

private theorem flush_watched (returns : ℕ → Returns) (env : ℕ) :
    Prog.Preserves (fun world : Plain v8 => Watched stores journals watched world)
      (flush v8 returns env) := by
  intro world watches
  cases ran : attempt (returns env) (world.batchOps env) (world.native env) with
  | mk result native =>
    have attempted : engine v8 returns world.host env (world.native env) (world.batchOps env) =
        ⟨result, native, ()⟩ := by
      simp only [engine, ran]
    refine flushBatchOps_meets attempted (fun _ => watches) ?_ (by rintro ⟨⟩)
    by_cases stuck : result = .stuck
    · subst stuck
      trivial
    · have ended := attempt_watches (returns env) (watches env) (world.batchOps env)
        (by rw [ran]; exact stuck)
      rw [ran] at ended
      cases result with
      | committed => exact watches.set ended
      | failed error => exact watches.set ended
      | notBegun error => exact watches.set ended
      | stuck => trivial

private theorem pushBatch_watched (returns : ℕ → Returns) (env : ℕ) (op : BatchOp v8) :
    Prog.Preserves (Watched stores journals watched) (pushBatch (flush v8 returns) env op) := by
  intro world watches
  simp only [pushBatch]
  split_ifs
  · exact flush_watched returns env _ watches
  · exact watches

private theorem act_watched (returns : ℕ → Returns) (action : Action) :
    Prog.Preserves (fun world : Plain v8 => Watched stores journals watched world)
      (act (flush v8 returns) action) := by
  intro world watches
  cases action with
  | batchPut env db key val =>
    simp only [act, batchPut]
    cases db.keyType.check v8 key with
    | error error => exact watches
    | ok key =>
      cases db.valType.check v8 val with
      | error error => exact watches
      | ok val => exact pushBatch_watched returns env (.put db key val) world watches
  | setBatchSize env num =>
    simp only [act, setBatchSize]
    split_ifs
    · exact flush_watched returns env _ watches
    · exact watches
  | flushBatchOps env => exact flush_watched returns env world watches
  | fire =>
    simp only [act, fire]
    cases world.timer with
    | none => exact watches
    | some env => exact flush_watched returns env _ watches

private theorem batchDel_watched (returns : ℕ → Returns) (env : ℕ) (db : Db) (key : Value) :
    Prog.Preserves (fun world : Plain v8 => Watched stores journals watched world)
      (batchDel (flush v8 returns) env db key) := by
  intro world watches
  unfold batchDel
  cases db.keyType.check v8 key with
  | error error => exact watches
  | ok key => exact pushBatch_watched returns env (.del db key) world watches

private theorem openDb_watched (returns : Returns) (env : ℕ) (opt : DbOptions) {state : State v8}
    (watches : Watched stores journals watched state.world) :
    (openDb returns env opt state).Meets True
      (fun next => Watched stores journals watched next.world)
      fun _ next => Watched stores journals watched next.world := by
  have opened : Watches (stores env) (journals env) (watched env)
      (dbCtor returns (state.world.native env)).2 :=
    (watches env).of_books (dbCtor_books returns _ _)
      ((dbCtor_quiet returns _).exclusive (watches env).exclusive) (watches env).apart
  unfold openDb
  cases opt.name.filter (!·.isEmpty) with
  | none => exact watches
  | some name =>
    simp only
    split_ifs
    · exact watches
    · cases opt.keyType with
      | none => exact watches
      | some keyType =>
        cases opt.valType with
        | none => exact watches
        | some valType =>
          simp only
          generalize dbCtor returns (state.world.native env) = answer at opened
          obtain ⟨result, native⟩ := answer
          cases result with
          | ok _ => exact watches.set opened
          | throws error => exact watches.set opened
          | never => trivial

/-- A use keeps the rules, and what is watched unless it changes it. -/
theorem Use.step_watched {state next : State v8} {use : Use} (step : Use.Step v8 state use next)
    (watches : Watched stores journals watched state.world)
    (spared : ∀ env handle txn, watched env = some (handle, txn) → ¬use.Changes env handle) :
    Watched stores journals watched next.world := by
  obtain ⟨known, returns, ended⟩ := step
  have meets : (use.perform returns state).Meets True
      (fun next => Watched stores journals watched next.world)
      fun _ next => Watched stores journals watched next.world := by
    cases use with
    | batchDel env db key =>
      rw [Use.perform]
      apply Prog.zoom_meets
      exact batchDel_watched returns env db key state.world watches
    | turn turn =>
      cases turn with
      | openDb env opt => exact openDb_watched (returns env) env opt watches
      | batch action =>
        rw [Use.perform, Turns.perform]
        apply Prog.zoom_meets
        exact act_watched returns action state.world watches
      | call env call =>
        rw [Use.perform, Turns.perform]
        apply Prog.zoom_meets
        refine (call_watches (returns env) (watches env) call known ?_).mono id
          (fun _ here => watches.set here) fun _ _ here => watches.set here
        intro handle txn same writes named
        exact spared env handle txn same ⟨rfl, named, writes⟩
  exact meets.state? ended

private theorem start_watched (stores : ℕ → Store) (sizes : ℕ → JsNumber) :
    Watched stores (fun _ => []) (fun _ => none) (start stores sizes : State v8).world := by
  intro env
  refine ⟨⟨⟨fun _ _ => rfl, by rintro ⟨⟩⟩, fun _ _ => rfl⟩, ⟨rfl, ?_, ?_, ?_⟩, List.nil_prefix, ?_⟩
  · rintro _ _ ⟨⟩
  · rintro _ _ ⟨⟩
  · rintro _ ⟨⟩
  · rintro _ _ ⟨⟩

/-- The rules hold in every state that can be reached. -/
theorem watched_of_run {sizes : ℕ → JsNumber} {uses : List Use} {state : State v8}
    (run : Runs (Use.Step v8) (start stores sizes) uses state) :
    Watched stores (fun _ => []) (fun _ => none) state.world := by
  refine run.preserves (fun _ state => Watched stores (fun _ => []) (fun _ => none) state.world)
    (start_watched stores sizes) ?_
  intro uses state use next watches step
  exact Use.step_watched step watches (by rintro _ _ _ ⟨⟩)

end Uses

/-- What the read sees is kept for it: its transaction writes or holds the reader slot, or the slot
is free for the shared one. -/
def Protected (native : Native) : Option ℕ → Prop
  | some handle => ∀ reader, (native.txns handle).txn = some (.reader reader) → reader.slot = true
  | none => native.slotTaken = false

/-- The state that a read is answered from. -/
inductive Source (initial : Store) (native : Native) : Option ℕ → Store → Prop
  | writer {handle number : ℕ} {view : Store} {entries : List Entry}
      (found : (native.txns handle).txn = some (.writer number view entries)) :
      Source initial native (some handle) view
  | reader {handle : ℕ} {reader : Reader}
      (found : (native.txns handle).txn = some (.reader reader)) :
      Source initial native (some handle) reader.snapshot
  | implicit {store : Store} (version : IsVersion Entry.apply initial native.log store) :
      Source initial native none store

/-- The committed transactions are one after the other, and every transaction has its place. -/
structure Serialized (v8 : V8) (initial : Store) (native : Native) : Prop where
  committed : native.committed = replay Entry.apply initial native.log
  /-- A write transaction works on the latest state, and is the only one. -/
  writer : ∀ handle number view entries,
    (native.txns handle).txn = some (.writer number view entries) →
      view = entries.foldl Entry.apply native.committed ∧
        ∀ other, native.writes other = true → other = handle
  reader : ∀ handle reader, (native.txns handle).txn = some (.reader reader) → reader.slot = true →
    IsVersion Entry.apply initial native.log reader.snapshot
  /-- What reads return; LMDB has no error to report of them. -/
  reads : ∀ db key txn val, Protected native txn → (dbGet silent v8 db key txn native).1 = .ok val →
    ∃ datum store, db.keyType.check v8 key = .ok datum ∧ Source initial native txn store ∧
      val = (store db.dbi datum.bytes).head?

section Reads

variable {initial : Store} {native : Native}

private theorem reply_found {key : Bytes} {vals : List Bytes} {native : Native} {val : Option Bytes}
    (answered : Db.get.reply (mdbGet.found silent key vals native).1 = .ok val) :
    val = vals.head? := by
  rw [(mdbGet_found key vals native).1, looked] at answered
  split_ifs at answered
  exact (Result.ok.inj answered).symm

/-- A lookup that is answered comes from the view of its transaction. -/
theorem mdbGet_answered {db : Db} {key : Bytes} {txn : Option Txn} {val : Option Bytes}
    (answered : Db.get.reply (mdbGet silent db key txn native).1 = .ok val) :
    (∃ reader, txn = some (.reader reader) ∧ val = (reader.snapshot db.dbi key).head?) ∨
      ∃ number view entries, txn = some (.writer number view entries) ∧
        val = (view db.dbi key).head? := by
  cases txn with
  | none => cases answered
  | some txn =>
    cases txn with
    | writer number view entries =>
      exact .inr ⟨number, view, entries, rfl, reply_found answered⟩
    | reader reader =>
      rw [mdbGet] at answered
      split_ifs at answered with reset
      · cases answered
      · exact .inl ⟨reader, rfl, reply_found answered⟩

/-- What a lookup finds depends on its transaction only. -/
theorem mdbGet_same (db : Db) (key : Bytes) (txn : Option Txn) (native other : Native) :
    (mdbGet silent db key txn native).1 = (mdbGet silent db key txn other).1 := by
  have found (vals : List Bytes) :
      (mdbGet.found silent key vals native).1 = (mdbGet.found silent key vals other).1 := by
    unfold mdbGet.found silent
    split_ifs
    · rfl
    · cases vals <;> rfl
  cases txn with
  | none => rfl
  | some txn =>
    cases txn with
    | writer number view entries => exact found _
    | reader reader =>
      simp only [mdbGet]
      split_ifs
      · rfl
      · exact found _

private theorem read_source (journaled : Journaled initial native) {db : Db} {key : Value}
    {txn : Option ℕ}
    {val : Option Bytes} (answered : (dbGet silent v8 db key txn native).1 = .ok val) :
    ∃ datum store, db.keyType.check v8 key = .ok datum ∧ Source initial native txn store ∧
      val = (store db.dbi datum.bytes).head? := by
  unfold dbGet at answered
  rcases db.keyType.check_cases v8 key with ⟨error, rejected, -⟩ | ⟨datum, sanitized, checked⟩
  · rw [rejected] at answered
    cases answered
  · rw [sanitized] at answered
    cases txn with
    | some handle =>
      simp only [Db.get, Datum.encode_value, txnArg] at answered
      rcases mdbGet_answered answered with ⟨reader, found, seen⟩ | ⟨_, view, _, found, seen⟩
      · exact ⟨datum, _, checked, .reader found, seen⟩
      · exact ⟨datum, _, checked, .writer found, seen⟩
    | none =>
      simp only [Db.get, Datum.encode_value, txnArg] at answered
      have cached := requireReadlock_cached silent native
      rcases mdbGet_answered answered with ⟨reader, found, seen⟩ | ⟨_, _, _, found, -⟩
      · obtain ⟨lock, held, same⟩ := Option.map_eq_some_iff.mp found
        cases same
        exact ⟨datum, _, checked,
          .implicit ((cached.cached _ held).isVersion journaled journaled.cached), seen⟩
      · obtain ⟨lock, -, same⟩ := Option.map_eq_some_iff.mp found
        cases same

end Reads

/-- Whatever has been done with the environments of a process, and whatever LMDB has returned, each
of them stands as if its committed transactions had been performed one after the other. -/
theorem uses_serialized {stores : ℕ → Store} {sizes : ℕ → JsNumber} {uses : List Use}
    {state : State v8} (run : Runs (Use.Step v8) (start stores sizes) uses state) (env : ℕ) :
    Serialized v8 (stores env) (state.world.native env) := by
  obtain ⟨exclusive, journaled, -, -⟩ := watched_of_run run env
  refine ⟨journaled.committed, ?_, fun handle reader found _ =>
    journaled.versions handle reader found, ?_⟩
  · intro handle number view entries found
    refine ⟨journaled.own handle _ found, ?_⟩
    intro other writes
    have holds : (state.world.native env).writes handle = true := by
      rw [Native.writes, found, Option.any_some, Txn.writes]
    exact exclusive.mutex.alone holds writes
  · intro db key txn val _ answered
    exact read_source journaled answered

/-- A put into a database of 32-bit integers, with the first transaction object or without. -/
def putOne (txn : Option ℕ) : Use :=
  .turn (.call 0 (.put ⟨0, .int32, .int32, false⟩ (.number (.finite 1)) (.number (.finite 7)) txn))

/-- A write transaction beside a read-only one, and a queued put that is flushed after both. -/
theorem uses_serialized_beside_reader : ∃ state,
    Runs (Use.Step V8.basic) (start (fun _ _ _ => []) fun _ => .finite 64)
      [.turn (.call 0 (.beginTxn false)), putOne (some 0), .turn (.call 0 (.beginTxn true)),
        .turn queuedPut, .turn (.call 0 (.commit 0)), .turn (.batch .fire)] state ∧
      Serialized V8.basic (fun _ _ => []) (state.world.native 0) := by
  have first (handle : ℕ) (same : some 0 = some handle) : handle < 1 := Option.some.inj same ▸ Nat.one_pos
  have run : Runs (Use.Step V8.basic) (start (fun _ _ _ => []) fun _ => .finite 64)
      [.turn (.call 0 (.beginTxn false)), putOne (some 0), .turn (.call 0 (.beginTxn true)),
        .turn queuedPut, .turn (.call 0 (.commit 0)), .turn (.batch .fire)] _ :=
    .snoc (.snoc (.snoc (.snoc (.snoc (.snoc .nil ⟨by rintro _ ⟨⟩, fun _ => silent, rfl⟩)
      ⟨first, fun _ => silent, rfl⟩) ⟨by rintro _ ⟨⟩, fun _ => silent, rfl⟩)
      ⟨trivial, fun _ => silent, rfl⟩) ⟨fun handle same => (first handle same).trans Nat.one_lt_two,
      fun _ => silent, rfl⟩) ⟨trivial, fun _ => silent, rfl⟩
  exact ⟨_, run, uses_serialized run 0⟩

/-- A transaction that writes or holds the reader slot, and that no call changes, is the same after
any further uses, and answers its reads alike; nothing that has been committed is taken back
meanwhile. -/
theorem transaction_stays {stores : ℕ → Store} {sizes : ℕ → JsNumber} {uses more : List Use}
    {state later : State v8} (run : Runs (Use.Step v8) (start stores sizes) uses state)
    (onward : Runs (Use.Step v8) state more later) {env handle : ℕ} {txn : Txn}
    (found : ((state.world.native env).txns handle).txn = some txn)
    (kept : Protected (state.world.native env) (some handle))
    (spared : ∀ use ∈ more, ¬use.Changes env handle) :
    ((later.world.native env).txns handle).txn = some txn ∧
      Protected (later.world.native env) (some handle) ∧
      (state.world.native env).log <+: (later.world.native env).log ∧
      ∀ db key, (dbGet silent v8 db key (some handle) (later.world.native env)).1 =
        (dbGet silent v8 db key (some handle) (state.world.native env)).1 := by
  have before := watched_of_run run
  have after : Watched stores (fun env => (state.world.native env).log)
      (fun other => if other = env then some (handle, txn) else none) later.world := by
    refine onward.preserves (fun more later => (∀ use ∈ more, ¬use.Changes env handle) →
      Watched stores (fun env => (state.world.native env).log)
        (fun other => if other = env then some (handle, txn) else none) later.world) ?_ ?_ spared
    · intro _ other
      refine { before other with grown := List.prefix_rfl, kept := ?_ }
      intro named watched same
      beta_reduce at same
      split_ifs at same with here
      cases same
      rw [here]
      exact found
    · intro more middle use next ih step spared
      refine Use.step_watched step (ih fun other member => spared other (List.mem_append_left _ member)) ?_
      intro other named watched same
      beta_reduce at same
      split_ifs at same with here
      cases same
      rw [here]
      exact spared use (List.mem_append_right _ (List.mem_singleton_self use))
  have same := (after env).kept handle txn (if_pos rfl)
  refine ⟨same, ?_, (after env).grown, ?_⟩
  · rw [Protected, found] at kept
    rwa [Protected, same]
  intro db key
  unfold dbGet
  cases db.keyType.sanitize v8 key with
  | error error => rfl
  | ok key =>
    simp only [Db.get, txnArg]
    cases db.keyType.encode v8 key with
    | none => rfl
    | some key =>
      simp only [same, found]
      rw [mdbGet_same]

/-- A read-only transaction does not see the put that is committed beside it. -/
theorem transaction_stays_beside_put : ∃ state later,
    Runs (Use.Step V8.basic) (start (fun _ _ _ => []) fun _ => .finite 64)
      [.turn (.call 0 (.beginTxn true))] state ∧
    Runs (Use.Step V8.basic) state [putOne none] later ∧
      (later.world.native 0).committed 0 [1, 0, 0, 0] = [[7, 0, 0, 0]] ∧
      (dbGet silent V8.basic ⟨0, .int32, .int32, false⟩ (.number (.finite 1)) (some 0)
        (later.world.native 0)).1 = .ok none := by
  have both : ∃ state later,
      Runs (Use.Step V8.basic) (start (fun _ _ _ => []) fun _ => .finite 64)
        [.turn (.call 0 (.beginTxn true))] state ∧
      Runs (Use.Step V8.basic) state [putOne none] later ∧
      ((state.world.native 0).txns 0).txn = some (.reader ⟨fun _ _ => [], true, false⟩) ∧
      (later.world.native 0).committed 0 [1, 0, 0, 0] = [[7, 0, 0, 0]] ∧
      (dbGet silent V8.basic ⟨0, .int32, .int32, false⟩ (.number (.finite 1)) (some 0)
        (state.world.native 0)).1 = .ok none :=
    ⟨_, _, .snoc .nil ⟨by rintro _ ⟨⟩, fun _ => silent, rfl⟩,
      .snoc .nil ⟨by rintro _ ⟨⟩, fun _ => silent, rfl⟩, rfl, by decide +kernel, by decide +kernel⟩
  obtain ⟨state, later, run, onward, found, committed, read⟩ := both
  have spared : ∀ use ∈ [putOne none], ¬use.Changes 0 0 := by
    intro use member
    rw [List.mem_singleton.mp member]
    rintro ⟨-, named, -⟩
    cases named
  have kept : Protected (state.world.native 0) (some 0) := by
    rintro reader (same : ((state.world.native 0).txns 0).txn = _)
    rw [found] at same
    cases same
    rfl
  obtain ⟨-, -, -, reads⟩ := transaction_stays run onward found kept spared
  exact ⟨state, later, run, onward, committed, (reads _ _).trans read⟩

end Turns

end NodeKv.Lmdb
