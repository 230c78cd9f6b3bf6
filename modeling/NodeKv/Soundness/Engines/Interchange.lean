import NodeKv.Machine.Simulation
import NodeKv.Model.Engines
import NodeKv.Proofs.Level.Db
import NodeKv.Proofs.Lmdb.Readers

/-! # Databases of LMDB and of LevelDB are interchangeable

The native layers have little in common, but a script that keeps to the calls which both engines
have, and to one database for each environment of LMDB, cannot tell one engine from the other: the
same calls throw the same exceptions, batches are written at the same moments, and reads give the same
values, but for the missing key. Two calls are left out, because LMDB does not perform them: `batchDel`,
and `del` where the type of the values has no use for a missing argument.
-/

namespace NodeKv.Engines

open Machine

section Lmdb

open Lmdb

variable {v8 : V8} {native : Native} {db : Lmdb.Db}

/-- Nothing is open in an environment. -/
structure Idle (native : Native) : Prop where
  unlocked : native.locked = false
  free : native.slotTaken = false
  cached : ∀ reader, native.readLock = some reader → reader.slot = false ∧ reader.reset = true

private theorem idle_opened (store : Store) : Idle (.opened store) := by
  refine ⟨rfl, rfl, ?_⟩
  rintro reader ⟨⟩

/-- What remains idle has the same cached read-only transaction, or a new one. -/
theorem Idle.of_same (idle : Idle native) {next : Native} (unlocked : next.locked = false)
    (free : next.slotTaken = native.slotTaken) (cached : next.readLock = native.readLock) :
    Idle next := by
  refine ⟨unlocked, free.trans idle.free, ?_⟩
  rw [cached]
  exact idle.cached

/-- A write in a transaction of its own, when LMDB reports nothing. -/
theorem writeScope_idle (idle : Idle native) (entry : Entry) : ∃ rc next,
    writeScope silent .undefined entry native = some (rc, next) ∧ (rc = none ∨ rc = some .notFound) ∧
      (rc = none ↔ (entry.write native.committed).isSome) ∧
      next.committed = entry.apply native.committed ∧ Idle next := by
  have begun : beginWrite silent native = some (.ok (.writer native.begun native.committed []),
      { native.called with locked := true, begun := native.begun + 1 }) := by
    simp [beginWrite, silent, idle.unlocked]
  cases written : entry.write native.committed with
  | some store =>
    simp only [writeScope, begun, mdbWrite, silent, written, mdbCommit, Native.called]
    refine ⟨none, _, rfl, .inl rfl, by simp, ?_, idle.of_same rfl rfl rfl⟩
    rw [Entry.apply, written]
    rfl
  | none =>
    simp only [writeScope, begun, mdbWrite, silent, written, mdbAbort, Native.called]
    refine ⟨some .notFound, _, rfl, .inr rfl, by simp, ?_, idle.of_same rfl rfl rfl⟩
    rw [Entry.apply, written]
    rfl

/-- The transaction of a flush is open, and the reading side is as before. -/
structure Flushing (native : Native) (handle : ℕ) (view : Store) (next : Native) : Prop where
  txn : ∃ number entries, (next.txns handle).txn = some (.writer number view entries)
  slot : next.slotTaken = native.slotTaken
  cached : next.readLock = native.readLock

private theorem exec_flushing {op : BatchOp v8} (put : op.isPut = true) {handle : ℕ} {view : Store}
    {next : Native} (flushing : Flushing native handle view next) :
    (op.exec silent handle next).Meets False (Flushing native handle (op.entry.apply view))
      fun _ _ => False := by
  obtain ⟨number, entries, txn⟩ := flushing.txn
  cases op with
  | del db key => cases put
  | put db key val =>
    simp only [BatchOp.exec, Result.statement, Db.put, Datum.encode_value, writeScope, mdbWrite, txn,
      silent, Entry.write]
    exact ⟨⟨number, _, Native.setTxn_txn ..⟩, flushing.slot, flushing.cached⟩

private theorem forEach_flushing {ops : List (BatchOp v8)} (puts : ∀ op ∈ ops, op.isPut = true)
    {handle : ℕ}
    {view : Store} {next : Native} (flushing : Flushing native handle view next) :
    (Prog.forEach (BatchOp.exec silent handle) ops next).Meets False
      (Flushing native handle ((ops.map BatchOp.entry).foldl Entry.apply view)) fun _ _ => False := by
  induction ops generalizing view next with
  | nil => exact flushing
  | cons op rest ih =>
    apply Prog.seq_meets (exec_flushing (puts op (List.mem_cons_self ..)) flushing)
    intro later written
    exact ih (fun other member => puts other (List.mem_cons_of_mem _ member)) written

/-- A queue of puts is committed as a whole. -/
theorem attempt_idle (idle : Idle native) {ops : List (BatchOp v8)}
    (puts : ∀ op ∈ ops, op.isPut = true) : ∃ next, attempt silent ops native = (.committed, next) ∧
      next.committed = (ops.map BatchOp.entry).foldl Entry.apply native.committed ∧ Idle next := by
  let begun : Native := { native.called with locked := true, begun := native.begun + 1 }
  let wrapped := begun.wrap ⟨false, some (.writer native.begun native.committed [])⟩
  have created : txnCtor silent false native = (.ok native.count, wrapped) := by
    simp only [txnCtor, beginWrite, silent, idle.unlocked, Bool.false_eq_true, ↓reduceIte]
    rfl
  have flushing : Flushing native native.count native.committed wrapped := by
    refine ⟨⟨native.begun, [], ?_⟩, rfl, rfl⟩
    simp [wrapped, begun, Native.wrap, Native.called]
  obtain ⟨next, ran, written⟩ := (forEach_flushing puts flushing).returns
  obtain ⟨number, entries, txn⟩ := written.txn
  simp only [attempt, attemptWith, transaction, created, Prog.seq_returned ran, Result.statement,
    txnCommit, txn,
    mdbCommit, silent]
  exact ⟨_, rfl, rfl, idle.of_same rfl written.slot written.cached⟩

private theorem requireReadlock_idle (idle : Idle native) : requireReadlock silent native =
    { native with
    calls := native.calls + 1
    slotTaken := true
    readLock := some ⟨native.committed, true, false⟩ } := by
  cases lock : native.readLock with
  | none => simp [requireReadlock, lock, beginRead, silent, idle.free, Native.called]
  | some reader =>
    obtain ⟨-, reset⟩ := idle.cached reader lock
    simp [requireReadlock, lock, mdbRenew, reset, silent, idle.free, Native.called]

/-- An implicit read finds what is committed. -/
theorem dbGet_idle (idle : Idle native) {key : Value} {datum : Datum v8 db.keyType}
    (sanitized : db.keyType.sanitize v8 key = .ok datum.value) (sized : datum.bytes ≠ []) : ∃ next,
    dbGet silent v8 db key none native = (.ok (native.committed db.dbi datum.bytes).head?, next) ∧
      next.committed = native.committed ∧ Idle next := by
  obtain ⟨answer, after⟩ := mdbGet_reader db datum.bytes
    (show (Reader.mk native.committed true false).reset = false from rfl)
    (requireReadlock silent native)
  rw [dbGet, sanitized]
  simp only [txnArg]
  rw [get_undefined]
  rw [requireReadlock_idle idle] at answer after ⊢
  rw [Option.map_some, answer, after, looked_of_ne sized]
  refine ⟨_, rfl, rfl, idle.unlocked, rfl, ?_⟩
  rintro reader ⟨⟩
  exact ⟨rfl, rfl⟩

end Lmdb

section Stores

open Lmdb

variable {db : Lmdb.Db} {store : Store} {map : Bytes → Option Bytes}

/-- A database of LMDB without duplicates has the entries of a map. -/
def Holds (db : Lmdb.Db) (store : Store) (map : Bytes → Option Bytes) : Prop :=
  ∀ key, store db.dbi key = (map key).toList

theorem Holds.set (holds : Holds db store map) (key : Bytes) (val : Option Bytes) :
    Holds db (store.set db key val.toList) (Function.update map key val) := by
  intro other
  rw [Store.set, Function.update_self]
  by_cases same : other = key
  · rw [same, Function.update_self, Function.update_self]
  · rw [Function.update_of_ne same, Function.update_of_ne same]
    exact holds other

variable (plain : db.allowDup = false) (holds : Holds db store map)

include plain holds

theorem Holds.put (key val : Bytes) :
    Holds db ((Entry.put db key val).apply store) ((Update.put key val).apply map) := by
  have replaced : (Entry.put db key val).apply store = store.set db key [val] := by
    simp [Entry.apply, Entry.write, Store.put, plain]
  rw [replaced]
  exact holds.set key (some val)

theorem Holds.del (key : Bytes) (val : Option Bytes) :
    Holds db ((Entry.del db key val).apply store) ((Update.del key).apply map) := by
  have removed : (Entry.del db key val).apply store = store.set db key [] := by
    have all : store.del db key val =
        if 0 < (store db.dbi key).length then some (store.set db key []) else none := by
      cases val <;> simp [Store.del, plain]
    rw [Entry.apply, Entry.write, all]
    split_ifs with present
    · rfl
    · have absent : store db.dbi key = [] := List.length_eq_zero_iff.mp (by omega)
      rw [Option.getD_none, Store.set, ← absent, Function.update_eq_self, Function.update_eq_self]
  rw [removed]
  exact holds.set key none

/-- A queued put of LMDB and the record of a batch of LevelDB. -/
def Queued {v8 : V8} (db : Lmdb.Db) (op : BatchOp v8) (record : Level.Record) : Prop :=
  ∃ key val, op = .put db key val ∧ record = .put key.bytes val.bytes

omit plain holds in
private theorem written_of_queued {v8 : V8} {ops : List (BatchOp v8)} {records : List Level.Record}
    (queued : List.Forall₂ (Queued db) ops records) : ∀ record ∈ records, ∀ val,
      record.written = some val → ∃ datum : Datum v8 db.valType, val = datum.bytes := by
  induction queued with
  | nil => simp
  | cons alike _ ih =>
    obtain ⟨key, val, rfl, rfl⟩ := alike
    refine List.forall_mem_cons.mpr ⟨?_, ih⟩
    rintro _ ⟨⟩
    exact ⟨val, rfl⟩

omit plain holds in
private theorem isPut_of_queued {v8 : V8} {ops : List (BatchOp v8)} {records : List Level.Record}
    (queued : List.Forall₂ (Queued db) ops records) : ∀ op ∈ ops, op.isPut = true := by
  induction queued with
  | nil => simp
  | cons alike _ ih =>
    obtain ⟨key, val, rfl, -⟩ := alike
    exact List.forall_mem_cons.mpr ⟨rfl, ih⟩

/-- A whole queue, in order. -/
theorem Holds.foldl {v8 : V8} {ops : List (BatchOp v8)} {records : List Level.Record}
    (queued : List.Forall₂ (Queued db) ops records) :
    Holds db ((ops.map BatchOp.entry).foldl Entry.apply store) (applyAll map records) := by
  induction queued generalizing store map with
  | nil => exact holds
  | cons alike _ ih =>
    obtain ⟨key, val, rfl, rfl⟩ := alike
    exact ih (holds.put plain key.bytes val.bytes)

end Stores

/-- The bytes of a value are converted to the same, whatever is around them in the memory of either
engine. -/
def ReadsAlike (runtime : Runtime) (around around' : Memory) (type : DataType) (val : Bytes) : Prop :=
  type.decode runtime (around.holding val) val.length =
    type.decode runtime (around'.holding val) val.length

private theorem readsAlike_datum (runtime : Runtime) (around around' : Memory) {type : DataType}
    (datum : Datum runtime.toV8 type) : ReadsAlike runtime around around' type datum.bytes := by
  rw [ReadsAlike, DataType.decode_holding runtime datum.selfContained,
    DataType.decode_holding runtime datum.selfContained]

/-- A database of LMDB, in an environment with a queue and a batch size, and one of LevelDB. -/
structure Same {v8 : V8} (alike : Bytes → Prop) (db : Lmdb.Db) (size : JsNumber)
    (ops : List (Lmdb.BatchOp v8)) (native : Lmdb.Native) (level : Level.Db) : Prop where
  idle : Idle native
  holds : Holds db native.committed level.store
  values : ∀ key val, level.store key = some val → alike val
  queue : List.Forall₂ (Queued db) ops level.records
  cnt : level.cnt = level.records.length
  size : level.batchSize = size

/-- A key that is no `MDB_BAD_VALSIZE` for LMDB: it has a byte, and not more than `MDB_MAXKEYSIZE`. -/
def TakesKey (v8 : V8) (type : DataType) (key : Value) : Prop :=
  ∀ datum, type.check v8 key = .ok datum → 0 < datum.bytes.length ∧ datum.bytes.length ≤ 511

private theorem takesKey_int32 (v8 : V8) (key : Value) : TakesKey v8 .int32 key := by
  intro datum _
  have width : datum.bytes.length = 4 := datum.sized 4 rfl
  omega

section Methods

variable {runtime : Runtime} {db : Lmdb.Db} {size : JsNumber} {ops : List (Lmdb.BatchOp runtime.toV8)}
  {native : Lmdb.Native} {level : Level.Db} {alike : Bytes → Prop}

/-- A write has been performed on both engines. -/
theorem Same.wrote (same : Same alike db size ops native level) {next : Lmdb.Native}
    (idle : Idle next)
    {record : Level.Record} (holds : Holds db next.committed (record.apply level.store))
    (values : ∀ val, record.written = some val → alike val) :
    Outcome.Rel (Same alike db size ops) (.returned next)
      (Level.writeRecord (fun _ => none) .database record level) := by
  have wrote : ∀ update ∈ [record], ∀ val, update.written = some val → alike val := by
    simpa using values
  exact .returned ⟨idle, holds, applyAll_values same.values wrote, same.queue, same.cnt, same.size⟩

private theorem put_rel (plain : db.allowDup = false) (same : Same alike db size ops native level)
    (own : ∀ datum : Datum runtime.toV8 db.valType, alike datum.bytes) (key val : Value) :
    Outcome.Rel (Same alike db size ops)
      (Lmdb.Result.statement (Lmdb.dbPut Lmdb.silent runtime.toV8 db key val none) native)
      ((Level.Op.put key val).perform runtime.toV8 (fun _ => none) ⟨db.keyType, db.valType⟩ .database
        level) := by
  simp only [Lmdb.Result.statement, Lmdb.dbPut, Level.Op.perform, Level.put]
  rcases db.keyType.check_cases runtime.toV8 key with ⟨error, rejected, -⟩ | ⟨key, sanitized, -⟩
  · rw [rejected]
    exact .threw error same
  · rcases db.valType.check_cases runtime.toV8 val with ⟨error, rejected, -⟩ | ⟨val, accepted, -⟩
    · rw [sanitized, rejected]
      exact .threw error same
    · rw [sanitized, accepted]
      obtain ⟨rc, next, ran, -, written, committed, idle⟩ :=
        writeScope_idle same.idle (.put db key.bytes val.bytes)
      obtain rfl : rc = none := written.mpr rfl
      simp only [Lmdb.Db.put, Level.nativePut, Datum.encode_value, Lmdb.txnArg, ran]
      refine same.wrote idle ?_ ?_
      · rw [committed]
        exact same.holds.put plain key.bytes val.bytes
      · rintro _ ⟨⟩
        exact own val

/-- A delete that LMDB is given some value for. -/
theorem del_rel (plain : db.allowDup = false) (same : Same alike db size ops native level)
    {missing : Value}
    (tolerated : db.valType.sanitize runtime.toV8 .undefined = .ok missing) (key : Value) :
    Outcome.Rel (Same alike db size ops)
      (Lmdb.Result.statement (Lmdb.dbDel Lmdb.silent runtime.toV8 db key none .undefined) native)
      ((Level.Op.del key).perform runtime.toV8 (fun _ => none) ⟨db.keyType, db.valType⟩ .database
        level) := by
  simp only [Lmdb.Result.statement, Lmdb.dbDel, Level.Op.perform, Level.del]
  rcases db.keyType.check_cases runtime.toV8 key with ⟨error, rejected, -⟩ | ⟨key, sanitized, -⟩
  · rw [rejected]
    exact .threw error same
  · rcases db.valType.check_cases runtime.toV8 .undefined with ⟨error, rejected, -⟩ | ⟨val, accepted, -⟩
    · cases rejected.symm.trans tolerated
    · rw [sanitized, accepted]
      obtain ⟨rc, next, ran, code, -, committed, idle⟩ :=
        writeScope_idle same.idle (.del db key.bytes (some val.bytes))
      have holds : Holds db next.committed ((Update.del key.bytes).apply level.store) := by
        rw [committed]
        exact same.holds.del plain key.bytes (some val.bytes)
      -- whether there was something to delete is told apart by the value only
      rcases code with rfl | rfl
      · simp only [Lmdb.Db.del, Level.nativeDel, Datum.encode_value, Lmdb.txnArg, ran]
        exact same.wrote idle holds (by rintro _ ⟨⟩)
      · simp only [Lmdb.Db.del, Level.nativeDel, Datum.encode_value, Lmdb.txnArg, ran, if_true]
        exact same.wrote idle holds (by rintro _ ⟨⟩)

/-- What LevelDB says of a key that it does not find. -/
def notFound : Error := .status Level.Status.notFound.text

/-- The reply of LMDB, in terms of the reply of LevelDB. -/
def asOnLmdb (reply : Reply) : Reply := if reply = .throws notFound then .null else reply

private theorem sanitize_error {v8 : V8} {type : DataType} {raw : Value} {error : Error}
    (rejected : type.sanitize v8 raw = .error error) : error = .invalidData type.typeName := by
  unfold DataType.sanitize at rejected
  cases type with
  | string => cases rejected
  | binary =>
    cases raw with
    | buffer bytes => cases rejected
    | _ => exact (Except.error.inj rejected).symm
  | _ =>
    dsimp only at rejected
    split_ifs at rejected
    exact (Except.error.inj rejected).symm

private theorem get_same {around around' : Memory}
    (same : Same (ReadsAlike runtime around around' db.valType) db size ops native level)
    {key : Value} (takes : TakesKey runtime.toV8 db.keyType key) : ∃ next,
    Cache.Read.lmdbGet Lmdb.silent runtime around db key native =
      (asOnLmdb (Level.get runtime ⟨db.keyType, db.valType⟩ around' key level), next) ∧
      Same (ReadsAlike runtime around around' db.valType) db size ops next level := by
  simp only [Cache.Read.lmdbGet, Level.get]
  rcases db.keyType.check_cases runtime.toV8 key with
    ⟨error, rejected, -⟩ | ⟨key, sanitized, checked⟩
  · obtain rfl := sanitize_error rejected
    refine ⟨native, ?_, same⟩
    simp only [Lmdb.dbGet, rejected]
    rfl
  · obtain ⟨next, read, committed, idle⟩ := dbGet_idle same.idle sanitized
      (List.ne_nil_of_length_pos (takes key checked).1)
    have still : Same (ReadsAlike runtime around around' db.valType) db size ops next level :=
      ⟨idle, committed ▸ same.holds, same.values, same.queue, same.cnt, same.size⟩
    have found := same.holds key.bytes
    refine ⟨next, ?_, still⟩
    cases stored : level.store key.bytes with
    | none =>
      rw [stored] at found
      simp only [read, found, sanitized, Level.nativeGet, Datum.encode_value, Level.engineGet, stored]
      rfl
    | some val =>
      rw [stored] at found
      simp only [read, found, sanitized, Level.nativeGet, Datum.encode_value, Level.engineGet, stored]
      have alike : ReadsAlike runtime around around' db.valType val := same.values _ _ stored
      simp only [Option.toList, List.head?, Level.Status.success, if_true]
      rw [← alike]
      cases db.valType.decode runtime (around.holding val) val.length <;> rfl

theorem flush_rel (plain : db.allowDup = false) (same : Same alike db size ops native level)
    (own : ∀ datum : Datum runtime.toV8 db.valType, alike datum.bytes) (some : ops ≠ []) :
    ∃ next level',
    Lmdb.attempt Lmdb.silent ops native = (.committed, next) ∧
      Level.flushBatchOps (fun _ => none) level = .returned level' ∧
      Same alike db size ([] : List (Lmdb.BatchOp runtime.toV8)) next level' := by
  obtain ⟨next, ran, committed, idle⟩ := attempt_idle same.idle (isPut_of_queued same.queue)
  have counted : 0 < level.cnt := by
    rw [same.cnt, ← same.queue.length_eq]
    exact List.length_pos_of_ne_nil some
  have holds : Holds db next.committed (applyAll level.store level.records) := by
    rw [committed]
    exact same.holds.foldl plain same.queue
  have values := applyAll_values same.values fun record member val wrote => by
    obtain ⟨datum, rfl⟩ := written_of_queued same.queue record member val wrote
    exact own datum
  simp only [Level.flushBatchOps, if_pos counted]
  exact ⟨next, _, ran, rfl, idle, holds, values, .nil, rfl, same.size⟩

end Methods

section Worlds

variable {runtime : Runtime} {around around' : Memory} {dbs : ℕ → Lmdb.Db}
  {world : Lmdb.Plain runtime.toV8} {world' : Level.World}

variable (around around') in
/-- All databases are the same, and so is the timer. -/
structure Mirrors (dbs : ℕ → Lmdb.Db) (world : Lmdb.Plain runtime.toV8) (world' : Level.World) :
    Prop where
  same : ∀ index, Same (ReadsAlike runtime around around' (dbs index).valType) (dbs index)
    (world.batchSize index) (world.batchOps index) (world.native index) (world'.dbs index)
  timer : world'.timer = world.timer

/-- Only one database has changed. -/
theorem Mirrors.set (mirrors : Mirrors around around' dbs world world') (index : ℕ)
    {next : Lmdb.Plain runtime.toV8}
    {next' : Level.World}
    (same : Same (ReadsAlike runtime around around' (dbs index).valType) (dbs index)
      (next.batchSize index) (next.batchOps index) (next.native index) (next'.dbs index))
    (others : ∀ other, other ≠ index → next.native other = world.native other ∧
      next.batchOps other = world.batchOps other ∧ next'.dbs other = world'.dbs other)
    (sizes : next.batchSize = world.batchSize) (timer : next'.timer = next.timer) :
    Mirrors around around' dbs next next' := by
  refine ⟨?_, timer⟩
  intro other
  rcases eq_or_ne other index with rfl | ne
  · exact same
  · obtain ⟨native, ops, level⟩ := others other ne
    rw [native, ops, level, sizes]
    exact mirrors.same other

/-- A method that leaves the queue alone. -/
theorem method_rel (mirrors : Mirrors around around' dbs world world') {index : ℕ}
    {program : Prog Error Lmdb.Native}
    {program' : Prog Error Level.Db}
    (inner : Outcome.Rel (Same (ReadsAlike runtime around around' (dbs index).valType) (dbs index)
      (world.batchSize index) (world.batchOps index))
      (program (world.native index)) (program' (world'.dbs index))) :
    Outcome.Rel (Mirrors around around' dbs) (lmdbMethod runtime index program world)
      (Level.World.run index program' world') := by
  unfold lmdbMethod Level.World.run
  apply Prog.zoom_rel
  · exact inner
  · intro native level same
    refine mirrors.set index ?_ ?_ rfl mirrors.timer
    · simpa using same
    · intro other ne
      simp [ne]

private theorem flush_mirrors (plain : ∀ index, (dbs index).allowDup = false)
    (mirrors : Mirrors around around' dbs world world') (index : ℕ) :
    Outcome.Rel (Mirrors around around' dbs) (lmdbFlush runtime index world)
      (Level.World.run index (Level.flushBatchOps fun _ => none) world') := by
  have same := mirrors.same index
  by_cases empty : world.batchOps index = []
  · have counted : (world'.dbs index).cnt = 0 := by
      rw [same.cnt, ← same.queue.length_eq, empty]
      rfl
    have ran : Level.World.run index (Level.flushBatchOps fun _ => none) world' = .returned world' := by
      simp [Level.World.run, Prog.zoom, Level.flushBatchOps, counted]
    rw [lmdbFlush, Lmdb.flush, Lmdb.flushBatchOps_empty empty, ran]
    exact .returned mirrors
  · obtain ⟨native, level, attempted, wrote, after⟩ := flush_rel (plain index) same
      (readsAlike_datum runtime around around') empty
    have engine : Lmdb.engine runtime.toV8 (fun _ => Lmdb.silent) world.host index (world.native index)
        (world.batchOps index) = ⟨.committed, native, ()⟩ := by
      simp only [Lmdb.engine, attempted]
    have ran : Level.World.run index (Level.flushBatchOps fun _ => none) world' =
        .returned { world' with dbs := Function.update world'.dbs index level } := by
      simp [Level.World.run, Prog.zoom, wrote]
    rw [lmdbFlush, Lmdb.flush, Lmdb.flushBatchOps_committed empty engine, ran]
    refine .returned (mirrors.set index ?_ ?_ rfl mirrors.timer)
    · simpa [Lmdb.World.after, Lmdb.World.setOps] using after
    · intro other ne
      simp [Lmdb.World.after, Lmdb.World.setOps, ne]

/-- A put that both queues have taken is followed by a flush on both engines, or on neither. -/
theorem push_mirrors (plain : ∀ index, (dbs index).allowDup = false)
    (mirrors : Mirrors around around' dbs world world') (index : ℕ)
    (key : Datum runtime.toV8 (dbs index).keyType)
    (val : Datum runtime.toV8 (dbs index).valType) {pushed : Level.World}
    (taken : pushed = { world' with dbs := Function.update world'.dbs index { world'.dbs index with
      records := (world'.dbs index).records ++ [.put key.bytes val.bytes]
      cnt := (world'.dbs index).cnt + 1 } }) :
    Outcome.Rel (Mirrors around around' dbs)
      (Lmdb.pushBatch (lmdbFlush runtime) index (.put (dbs index) key val) world)
      (if (pushed.dbs index).batchSize.reached (pushed.dbs index).cnt then
        Level.World.run index (Level.flushBatchOps fun _ => none) pushed
      else Level.autoFlush index pushed) := by
  have same := mirrors.same index
  have mirrors : Mirrors around around' dbs
      (world.setOps index (world.batchOps index ++ [.put (dbs index) key val])) pushed := by
    subst taken
    refine mirrors.set index ?_ ?_ rfl mirrors.timer
    · have queue : List.Forall₂ (Queued (dbs index))
          (world.batchOps index ++ [.put (dbs index) key val])
          ((world'.dbs index).records ++ [.put key.bytes val.bytes]) :=
        List.rel_append same.queue (.cons ⟨key, val, rfl, rfl⟩ .nil)
      simp only [Lmdb.World.setOps, Function.update_self]
      exact ⟨same.idle, same.holds, same.values, queue, by simp [same.cnt], same.size⟩
    · intro other ne
      simp [Lmdb.World.setOps, ne]
  have counted : (pushed.dbs index).cnt = ((world.setOps index
      (world.batchOps index ++ [.put (dbs index) key val])).batchOps index).length := by
    rw [(mirrors.same index).cnt, (mirrors.same index).queue.length_eq]
  simp only [Lmdb.pushBatch]
  rw [counted, (mirrors.same index).size]
  split_ifs
  · exact flush_mirrors plain mirrors index
  · exact .returned ⟨mirrors.same, rfl⟩

private theorem batchPut_mirrors (plain : ∀ index, (dbs index).allowDup = false)
    (mirrors : Mirrors around around' dbs world world') (index : ℕ) (key val : Value) :
    Outcome.Rel (Mirrors around around' dbs)
      (Lmdb.batchPut (lmdbFlush runtime) index (dbs index) key val world)
      (levelAct runtime dbs (.batchPut index key val) world') := by
  have refused (error : Error) : Level.World.run index (Prog.seq (.threw error)
      (Prog.update fun db => { db with cnt := db.cnt + 1 })) world' = .threw error world' := by
    simp [Level.World.run, Prog.zoom, Prog.seq]
  simp only [Lmdb.batchPut, levelAct, Level.act, Level.batchOp, Level.batchRecord, Level.Op.perform,
    Level.put, schema]
  rcases (dbs index).keyType.check_cases runtime.toV8 key with
    ⟨error, rejected, checked⟩ | ⟨key, sanitized, checked⟩
  · rw [rejected, checked, Prog.seq_threw (refused error)]
    exact .threw error mirrors
  · rcases (dbs index).valType.check_cases runtime.toV8 val with
      ⟨error, rejected, checked'⟩ | ⟨val, accepted, checked'⟩
    · rw [sanitized, checked, rejected, checked', Prog.seq_threw (refused error)]
      exact .threw error mirrors
    · rw [sanitized, checked, accepted, checked']
      simp only [Level.nativePut, Datum.encode_value, Level.writeRecord]
      have taken : Level.World.run index (Prog.seq
          (Prog.update fun db => { db with records := db.records ++ [.put key.bytes val.bytes] })
          (Prog.update fun db => { db with cnt := db.cnt + 1 })) world' = .returned _ := rfl
      rw [Prog.seq_returned taken]
      exact push_mirrors plain mirrors index key val rfl

private theorem fire_mirrors (plain : ∀ index, (dbs index).allowDup = false)
    (mirrors : Mirrors around around' dbs world world') :
    Outcome.Rel (Mirrors around around' dbs) (Lmdb.fire (lmdbFlush runtime) world)
      (levelAct runtime dbs .fire world') := by
  have timer := mirrors.timer
  cases pending : world.timer with
  | none =>
    rw [pending] at timer
    simp only [Lmdb.fire, pending, levelAct, Level.act, timer]
    exact .returned mirrors
  | some index =>
    rw [pending] at timer
    simp only [Lmdb.fire, pending, levelAct, Level.act, timer]
    have quiet : Mirrors around around' dbs { world with timer := none } { world' with timer := none } :=
      ⟨mirrors.same, rfl⟩
    exact flush_mirrors plain quiet index

/-- A call that both engines perform. LMDB deletes a key with a missing value only if the sanitizer of
the values lets it pass. -/
def Call.Within (v8 : V8) (dbs : ℕ → Lmdb.Db) : Call → Prop
  | put index key _ => TakesKey v8 (dbs index).keyType key
  | del index key => TakesKey v8 (dbs index).keyType key ∧
    ∃ val, (dbs index).valType.sanitize v8 .undefined = .ok val
  | get index key => TakesKey v8 (dbs index).keyType key
  | batchPut index key _ => TakesKey v8 (dbs index).keyType key
  | flushBatchOps _ => True
  | fire => True

def Call.isGet : Call → Bool
  | get _ _ => true
  | _ => false

/-- Every call other than a read ends alike. -/
theorem call_rel (plain : ∀ index, (dbs index).allowDup = false)
    (mirrors : Mirrors around around' dbs world world')
    {call : Call} (within : call.Within runtime.toV8 dbs) (other : call.isGet = false) :
    Outcome.Rel (Mirrors around around' dbs) (call.onLmdb runtime around dbs world)
      (call.onLevel runtime around' dbs world') := by
  cases call with
  | put index key val =>
    exact method_rel mirrors
      (put_rel (plain index) (mirrors.same index) (readsAlike_datum runtime around around') key val)
  | del index key =>
    obtain ⟨-, missing, tolerated⟩ := within
    exact method_rel mirrors (del_rel (plain index) (mirrors.same index) tolerated key)
  | get index key => cases other
  | batchPut index key val => exact batchPut_mirrors plain mirrors index key val
  | flushBatchOps index => exact flush_mirrors plain mirrors index
  | fire => exact fire_mirrors plain mirrors

/-- A read is answered on both engines, or on neither. -/
theorem get_ends (mirrors : Mirrors around around' dbs world world') (index : ℕ) {key : Value}
    (takes : TakesKey runtime.toV8 (dbs index).keyType key) :
    ((Call.get index key).onLmdb runtime around dbs world = .diverged ∧
        (Call.get index key).onLevel runtime around' dbs world' = .diverged) ∨
      ∃ next, ((Call.get index key).onLmdb runtime around dbs world).state? = some next ∧
        ((Call.get index key).onLevel runtime around' dbs world').state? = some world' ∧
        Mirrors around around' dbs next world' := by
  obtain ⟨native, read, same⟩ := get_same (mirrors.same index) takes
  have still : Mirrors around around' dbs
      { world with native := Function.update world.native index native } world' := by
    refine mirrors.set index ?_ ?_ rfl mirrors.timer
    · simpa using same
    · intro other ne
      simp [ne]
  simp only [Call.onLmdb, Call.onLevel, lmdbMethod, Prog.zoom, read, schema]
  cases Level.get runtime ⟨(dbs index).keyType, (dbs index).valType⟩ around' key (world'.dbs index) with
  | null => exact .inr ⟨_, rfl, rfl, still⟩
  | value val => exact .inr ⟨_, rfl, rfl, still⟩
  | never => exact .inl ⟨rfl, rfl⟩
  | throws error =>
    by_cases missing : error = notFound
    · subst missing
      exact .inr ⟨_, rfl, rfl, still⟩
    · have same : asOnLmdb (.throws error) = .throws error := if_neg (by simpa using missing)
      rw [same]
      exact .inr ⟨_, rfl, rfl, still⟩

private theorem call_ends (plain : ∀ index, (dbs index).allowDup = false)
    (mirrors : Mirrors around around' dbs world world') {call : Call}
    (within : call.Within runtime.toV8 dbs) :
    (call.onLmdb runtime around dbs world = .diverged ∧
        call.onLevel runtime around' dbs world' = .diverged) ∨
      ∃ next next', (call.onLmdb runtime around dbs world).state? = some next ∧
        (call.onLevel runtime around' dbs world').state? = some next' ∧
          Mirrors around around' dbs next next' := by
  cases kind : call.isGet with
  | false => exact (call_rel plain mirrors within kind).ends
  | true =>
    cases call with
    | get index key =>
      rcases get_ends mirrors index within with diverged | ⟨next, ended, ended', still⟩
      · exact .inl diverged
      · exact .inr ⟨next, world', ended, ended', still⟩
    | _ => cases kind

private theorem step_level (plain : ∀ index, (dbs index).allowDup = false)
    (mirrors : Mirrors around around' dbs world world') {call : Call} (within : call.Within runtime.toV8 dbs)
    {next : Lmdb.Plain runtime.toV8}
    (stepped : Prog.Steps (Call.onLmdb runtime around dbs) world call next) :
    ∃ next', Prog.Steps (Call.onLevel runtime around' dbs) world' call next' ∧
      Mirrors around around' dbs next next' := by
  rcases call_ends plain mirrors within with ⟨diverged, -⟩ | ⟨after, next', ended, ended', still⟩
  · rw [Prog.Steps, diverged] at stepped
    cases stepped
  · obtain rfl := Option.some.inj (ended.symm.trans stepped)
    exact ⟨next', ended', still⟩

private theorem step_lmdb (plain : ∀ index, (dbs index).allowDup = false)
    (mirrors : Mirrors around around' dbs world world') {call : Call} (within : call.Within runtime.toV8 dbs)
    {next' : Level.World}
    (stepped : Prog.Steps (Call.onLevel runtime around' dbs) world' call next') :
    ∃ next, Prog.Steps (Call.onLmdb runtime around dbs) world call next ∧
      Mirrors around around' dbs next next' := by
  rcases call_ends plain mirrors within with ⟨-, diverged⟩ | ⟨next, after, ended, ended', still⟩
  · rw [Prog.Steps, diverged] at stepped
    cases stepped
  · obtain rfl := Option.some.inj (ended'.symm.trans stepped)
    exact ⟨next, ended, still⟩

private theorem opened_mirrors {stores : ℕ → Lmdb.Store}
    (single : ∀ index key, (stores index (dbs index).dbi key).length ≤ 1)
    (alike : ∀ index key, ∀ val ∈ stores index (dbs index).dbi key,
      ReadsAlike runtime around around' (dbs index).valType val) (sizes : ℕ → JsNumber) :
    Mirrors around around' dbs (Lmdb.opened stores sizes : Lmdb.Plain runtime.toV8)
      (Level.opened (fun index key => (stores index (dbs index).dbi key).head?) sizes) := by
  refine ⟨fun index => ⟨idle_opened _, ?_, ?_, .nil, rfl, rfl⟩, rfl⟩
  case refine_2 =>
    intro key val found
    exact alike index key val (List.mem_of_head? found)
  intro key
  have single := single index key
  simp only [Lmdb.opened, Level.opened, Lmdb.Native.opened]
  cases found : stores index (dbs index).dbi key with
  | nil => rfl
  | cons val rest =>
    rw [found] at single
    obtain rfl : rest = [] := List.length_eq_zero_iff.mp (by simpa using single)
    rfl

/-- What a script can find out about databases of LMDB and of LevelDB is the same, but for a missing
key, which is null on LMDB and an exception on LevelDB. -/
structure Indistinguishable (runtime : Runtime) (around around' : Memory) (dbs : ℕ → Lmdb.Db)
    (world : Lmdb.Plain runtime.toV8) (world' : Level.World) : Prop where
  contents : ∀ index, Holds (dbs index) (world.native index).committed (world'.dbs index).store
  ends : ∀ call : Call, call.Within runtime.toV8 dbs →
    (call.onLmdb runtime around dbs world = .diverged ↔
      call.onLevel runtime around' dbs world' = .diverged)
  errors : ∀ call : Call, call.Within runtime.toV8 dbs → call.isGet = false →
    (call.onLmdb runtime around dbs world).error? = (call.onLevel runtime around' dbs world').error?
  reads : ∀ index key, TakesKey runtime.toV8 (dbs index).keyType key →
    (Cache.Read.lmdbGet Lmdb.silent runtime around (dbs index) key (world.native index)).1 =
      asOnLmdb (Level.get runtime (schema dbs index) around' key (world'.dbs index))

theorem Mirrors.indistinguishable (plain : ∀ index, (dbs index).allowDup = false)
    (mirrors : Mirrors around around' dbs world world') :
    Indistinguishable runtime around around' dbs world world' where
  contents index := (mirrors.same index).holds
  ends := by
    intro call within
    rcases call_ends plain mirrors within with ⟨diverged, diverged'⟩ | ⟨next, next', ended, ended', -⟩
    · exact iff_of_true diverged diverged'
    · refine iff_of_false ?_ ?_
      · intro diverged
        rw [diverged] at ended
        cases ended
      · intro diverged
        rw [diverged] at ended'
        cases ended'
  errors _ within other := (call_rel plain mirrors within other).error?_eq
  reads := by
    intro index key takes
    obtain ⟨native, read, -⟩ := get_same (mirrors.same index) takes
    rw [read]
    rfl

/-- A script that keeps to calls of both engines runs on one of them exactly if it runs on the other,
and finds the same at every moment, if what the databases contain at first reads the same in the
memory of either engine. -/
theorem engines_interchangeable (plain : ∀ index, (dbs index).allowDup = false)
    {stores : ℕ → Lmdb.Store}
    (single : ∀ index key, (stores index (dbs index).dbi key).length ≤ 1)
    (alike : ∀ index key, ∀ val ∈ stores index (dbs index).dbi key,
      ReadsAlike runtime around around' (dbs index).valType val) (sizes : ℕ → JsNumber)
    {calls : List Call} (within : ∀ call ∈ calls, call.Within runtime.toV8 dbs) :
    let onLmdb := Runs (Prog.Steps (Call.onLmdb runtime around dbs)) (Lmdb.opened stores sizes) calls
    let onLevel := Runs (Prog.Steps (Call.onLevel runtime around' dbs))
      (Level.opened (fun index key => (stores index (dbs index).dbi key).head?) sizes) calls
    (∀ world, onLmdb world → ∃ world', onLevel world' ∧
      Indistinguishable runtime around around' dbs world world') ∧
    ∀ world', onLevel world' → ∃ world, onLmdb world ∧
      Indistinguishable runtime around around' dbs world world' := by
  have initial : Mirrors around around' dbs (Lmdb.opened stores sizes : Lmdb.Plain runtime.toV8) _ :=
    opened_mirrors single alike sizes
  constructor
  · intro world run
    obtain ⟨world', run', mirrors⟩ := run.simulate initial
      (fun _ _ _ _ mirrors within => step_level plain mirrors within) within
    exact ⟨world', run', mirrors.indistinguishable plain⟩
  · intro world' run'
    have mirrored : flip (Mirrors around around' dbs) _
        (Lmdb.opened stores sizes : Lmdb.Plain runtime.toV8) := initial
    obtain ⟨world, run, mirrors⟩ := run'.simulate mirrored
      (fun _ _ _ _ mirrors within => step_lmdb plain mirrors within) within
    exact ⟨world, run, mirrors.indistinguishable plain⟩

end Worlds

/-- Two databases with numbers as keys and texts as values: one is written and deleted at once, the
other one by the timer. -/
theorem engines_interchangeable_put_and_batched :
    let dbs : ℕ → Lmdb.Db := fun _ => ⟨2, .int32, .string, false⟩
    let calls : List Call := [.put 0 (.number (.finite 1)) (.text "a"),
      .batchPut 1 (.number (.finite 2)) (.text "b"), .get 0 (.number (.finite 1)),
      .del 0 (.number (.finite 1)), .get 0 (.number (.finite 1)), .fire]
    ∃ (world : Lmdb.Plain Runtime.basic.toV8) (world' : Level.World),
      Runs (Prog.Steps (Call.onLmdb Runtime.basic ⟨[], []⟩ dbs))
        (Lmdb.opened (fun _ _ _ => []) fun _ => .finite 64) calls world ∧
      Runs (Prog.Steps (Call.onLevel Runtime.basic ⟨[1], [2]⟩ dbs))
        (Level.opened (fun _ _ => none) fun _ => .finite 64) calls world' ∧
      Indistinguishable Runtime.basic ⟨[], []⟩ ⟨[1], [2]⟩ dbs world world' ∧
      (world.native 1).committed 2 [2, 0, 0, 0] ≠ [] := by
  intro dbs calls
  have performed : ((Prog.perform (Call.onLmdb Runtime.basic ⟨[], []⟩ dbs) calls
      (Lmdb.opened (fun _ _ _ => []) fun _ => .finite 64)).map fun world =>
        (world.native 1).committed 2 [2, 0, 0, 0]) = some [[98, 0]] := by
    decide +kernel
  obtain ⟨world, performed, stored⟩ := Option.map_eq_some_iff.mp performed
  have run : Runs (Prog.Steps (Call.onLmdb Runtime.basic ⟨[], []⟩ dbs)) _ calls world :=
    Prog.perform_runs (fun _ _ _ ended => ended) .nil performed
  have within : ∀ call ∈ calls, call.Within Runtime.basic.toV8 dbs := by
    simp [calls, Call.Within, dbs, DataType.sanitize, takesKey_int32]
  have single (index : ℕ) (key : Bytes) :
      ((fun _ _ _ => [] : ℕ → Lmdb.Store) index (dbs index).dbi key).length ≤ 1 := Nat.zero_le 1
  obtain ⟨world', run', same⟩ :=
    (engines_interchangeable (fun _ => rfl) single (by simp) (fun _ => .finite 64) within).1 world run
  exact ⟨world, world', run, run', same, by rw [stored]; decide⟩

end NodeKv.Engines
