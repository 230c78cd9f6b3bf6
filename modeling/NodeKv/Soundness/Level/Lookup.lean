import NodeKv.Model.Level.Session
import NodeKv.Proofs.Level.Db

/-! # Reads as map lookups

Whatever the script does, the store of a database is what it was when the database was opened with
the written records applied, and every record comes from a call whose arguments were accepted. So
a value that is found can be converted, and `get` returns what the last write of the key left
there. The lookup of a missing key should give null. The code sets null, does not return, and then
throws the status because it is not good either: reading a key that is absent always throws.
-/

namespace NodeKv.Level

open Machine

/-- The engine got this record for a call whose arguments were accepted. -/
def Given (v8 : V8) (schema : Schema) (record : Record) : Prop :=
  ∃ op : Op, op.record? v8 schema = some record

/-- The store is the replay of what was written, and all records are of accepted calls. -/
structure Replayed (v8 : V8) (schema : Schema) (store : Bytes → Option Bytes) (db : Db) : Prop where
  store : db.store = applyAll store db.log
  log : ∀ record ∈ db.log, Given v8 schema record
  records : ∀ record ∈ db.records, Given v8 schema record

section Db

variable {v8 : V8} {fails : Fails} {schema : Schema} {store : Bytes → Option Bytes}

private theorem writeRecords_replayed {records : List Record} {db : Db}
    (replayed : Replayed v8 schema store db)
    (given : ∀ record ∈ records, Given v8 schema record) :
    (writeRecords fails records db).Meets True (Replayed v8 schema store)
      fun _ => Replayed v8 schema store := by
  refine (writeRecords_meets fails records db).mono (fun _ => trivial) ?_ ?_
  · rintro _ rfl
    constructor
    · rw [applyAll_append, replayed.store]
    · intro record member
      rcases List.mem_append.mp member with old | new
      · exact replayed.log record old
      · exact given record new
    · exact replayed.records
  · rintro error next ⟨kept, -⟩
    constructor
    · rw [kept.store, kept.log, replayed.store]
    · rw [kept.log]
      exact replayed.log
    · rw [kept.records, List.append_nil]
      exact replayed.records

theorem Op.perform_replayed (target : Target) (op : Op) :
    Prog.Preserves (Replayed v8 schema store) (op.perform v8 fails schema target) := by
  intro db replayed
  rcases op.perform_cases fails schema target with ⟨-, error, threw⟩ | ⟨record, recorded, wrote⟩
  · rw [threw]
    exact replayed
  · have given : Given v8 schema record := ⟨op, recorded⟩
    rw [wrote]
    cases target with
    | batch =>
      refine ⟨replayed.store, replayed.log, ?_⟩
      intro other member
      rcases List.mem_append.mp member with old | new
      · exact replayed.records other old
      · rwa [List.mem_singleton.mp new]
    | database =>
      apply writeRecords_replayed replayed
      intro other member
      rwa [List.mem_singleton.mp member]

private theorem batchRecord_replayed (op : Op) :
    Prog.Preserves (Replayed v8 schema store) (batchRecord v8 fails schema op) := by
  apply (op.perform_replayed .batch).seq
  intro db replayed
  exact { replayed with }

private theorem batchClear_replayed : Prog.Preserves (Replayed v8 schema store) batchClear := by
  intro db replayed
  exact ⟨replayed.store, replayed.log, fun _ member => nomatch member⟩

private theorem flushBatchOps_replayed : Prog.Preserves (Replayed v8 schema store)
    (flushBatchOps fails) := by
  intro db replayed
  unfold flushBatchOps
  split_ifs
  · exact Prog.seq_meets (writeRecords_replayed replayed replayed.records) batchClear_replayed
  · exact replayed

/-- The bytes of a record are those of accepted arguments. -/
theorem Given.cases {record : Record} (given : Given v8 schema record) :
    (∃ (key : Datum v8 schema.keyType) (val : Datum v8 schema.valType),
      record = .put key.bytes val.bytes) ∨
    ∃ key : Datum v8 schema.keyType, record = .del key.bytes := by
  obtain ⟨op, recorded⟩ := given
  cases op with
  | put key val =>
    simp only [Op.record?] at recorded
    split at recorded
    · exact .inl ⟨_, _, (Option.some.inj recorded).symm⟩
    · contradiction
  | del key =>
    simp only [Op.record?] at recorded
    split at recorded
    · exact .inr ⟨_, (Option.some.inj recorded).symm⟩
    · contradiction

/-- An entry that is present was there from the start, or put by an accepted call. -/
theorem Replayed.found {property : Bytes → Bytes → Prop} {db : Db}
    (replayed : Replayed v8 schema store db)
    (initial : ∀ key val, store key = some val → property key val)
    (accepted : ∀ (key : Datum v8 schema.keyType) (val : Datum v8 schema.valType),
      property key.bytes val.bytes)
    {key val : Bytes} (found : db.store key = some val) : property key val := by
  rw [replayed.store, applyAll_apply] at found
  cases last : lastOn key db.log with
  | none =>
    rw [last] at found
    exact initial key val found
  | some written =>
    rw [last] at found
    obtain ⟨record, member, rfl, wrote⟩ := exists_of_lastOn last
    obtain rfl : written = some val := found
    rcases (replayed.log record member).cases with ⟨key, val', rfl⟩ | ⟨key, rfl⟩
    · obtain rfl := Option.some.inj wrote
      exact accepted key val'
    · exact nomatch wrote

/-- The value of a key that is present can be converted. -/
theorem Replayed.contained {db : Db} (replayed : Replayed v8 schema store db)
    (initial : ∀ key val, store key = some val → schema.valType.SelfContained val)
    {key val : Bytes} (found : db.store key = some val) : schema.valType.SelfContained val :=
  replayed.found initial (fun _ val => val.selfContained) found

end Db

section Session

variable {v8 : V8} {fails : ℕ → Fails} {schema : ℕ → Schema} {stores : ℕ → Bytes → Option Bytes}

/-- Every database is replayed. -/
def AllReplayed (v8 : V8) (schema : ℕ → Schema) (stores : ℕ → Bytes → Option Bytes) (world : World) :
    Prop :=
  ∀ index, Replayed v8 (schema index) (stores index) (world.dbs index)

theorem AllReplayed.set {world : World} (replayed : AllReplayed v8 schema stores world) {index : ℕ}
    {db : Db} (changed : Replayed v8 (schema index) (stores index) db) :
    AllReplayed v8 schema stores { world with dbs := Function.update world.dbs index db } := by
  intro other
  rcases eq_or_ne other index with rfl | ne
  · simpa using changed
  · simpa [ne] using replayed other

private theorem run_replayed {index : ℕ} {program : Prog Error Db}
    (kept : Prog.Preserves (Replayed v8 (schema index) (stores index)) program) :
    Prog.Preserves (AllReplayed v8 schema stores) (World.run index program) := by
  apply kept.zoom
  · intro world replayed
    exact replayed index
  · intro world db replayed changed
    exact replayed.set changed

private theorem batchOp_replayed (index : ℕ) (op : Op) :
    Prog.Preserves (AllReplayed v8 schema stores) (batchOp v8 fails schema index op) := by
  apply (run_replayed (batchRecord_replayed op)).seq
  intro world replayed
  dsimp only
  split_ifs
  · exact run_replayed flushBatchOps_replayed world replayed
  · exact replayed

private theorem act_replayed (action : Action) :
    Prog.Preserves (AllReplayed v8 schema stores) (act v8 fails schema action) := by
  cases action with
  | batchPut index key val => exact batchOp_replayed index (.put key val)
  | batchDel index key => exact batchOp_replayed index (.del key)
  | setBatchSize index num =>
    apply run_replayed
    intro db replayed
    exact { replayed with }
  | flushBatchOps index => exact run_replayed flushBatchOps_replayed
  | fire =>
    intro world replayed
    simp only [act]
    cases world.timer with
    | none => exact replayed
    | some index =>
      have disarmed : AllReplayed v8 schema stores { world with timer := none } := replayed
      exact run_replayed flushBatchOps_replayed _ disarmed

/-- Every database is replayed, and the further batches hold records of accepted calls. -/
structure Session.Replayed (v8 : V8) (schema : ℕ → Schema) (stores : ℕ → Bytes → Option Bytes)
    (session : Session) : Prop where
  dbs : AllReplayed v8 schema stores session.world
  batches : ∀ index number, ∀ record ∈ (session.batches index number).records,
    Given v8 (schema index) record

theorem Session.run_replayed {program : Prog Error World}
    (kept : Prog.Preserves (AllReplayed v8 schema stores) program) :
    Prog.Preserves (Session.Replayed v8 schema stores) (Session.run program) := by
  apply kept.zoom
  · intro session replayed
    exact replayed.dbs
  · intro session world replayed changed
    exact ⟨changed, replayed.batches⟩

theorem Session.runBatch_replayed {index : ℕ} (number : ℕ) {program : Prog Error Db}
    (kept : Prog.Preserves (Level.Replayed v8 (schema index) (stores index)) program) :
    Prog.Preserves (Session.Replayed v8 schema stores) (Session.runBatch index number program) := by
  apply kept.zoom
  · intro session replayed
    exact ⟨(replayed.dbs index).store, (replayed.dbs index).log, replayed.batches index number⟩
  · intro session db replayed changed
    constructor
    · exact replayed.dbs.set ⟨changed.store, changed.log, (replayed.dbs index).records⟩
    · intro other number' record member
      rcases eq_or_ne other index with rfl | ne
      · rcases eq_or_ne number' number with rfl | ne
        · apply changed.records
          simpa [Session.putBack] using member
        · apply replayed.batches other number'
          simpa [Session.putBack, ne] using member
      · apply replayed.batches other number'
        simpa [Session.putBack, ne] using member

private theorem turn_replayed (turn : Turn) :
    Prog.Preserves (Session.Replayed v8 schema stores) (Level.turn v8 fails schema turn) := by
  cases turn with
  | direct index op => exact Session.run_replayed (Level.run_replayed (op.perform_replayed .database))
  | batched action => exact Session.run_replayed (act_replayed action)
  | batchRecord index number op => exact Session.runBatch_replayed number (batchRecord_replayed op)
  | batchWrite index number => exact Session.runBatch_replayed number flushBatchOps_replayed
  | batchClear index number => exact Session.runBatch_replayed number batchClear_replayed

private theorem start_replayed (stores : ℕ → Bytes → Option Bytes) (sizes : ℕ → JsNumber) :
    Session.Replayed v8 schema stores (Session.start stores sizes) := by
  constructor
  · intro index
    exact ⟨rfl, List.forall_mem_nil _, List.forall_mem_nil _⟩
  · intro index number record member
    exact nomatch member

theorem Session.replayed_of_run {sizes : ℕ → JsNumber} {turns : List Turn} {session : Session}
    (run : Runs (Prog.Steps (turn v8 fails schema)) (Session.start stores sizes) turns session) :
    session.Replayed v8 schema stores := by
  refine run.preserves (fun _ session => session.Replayed v8 schema stores) ?_ ?_
  · exact start_replayed stores sizes
  · intro turns session turn next replayed stepped
    exact (turn_replayed turn session replayed).state? stepped

end Session

/-- The answer of a map: what the last write of the key left there, or null. -/
def lookup (runtime : Runtime) (schema : Schema) (store : Bytes → Option Bytes) (log : List Record)
    (key : Bytes) : Reply :=
  match (lastOn key log).getD (store key) with
  | some val => .ofDecoded (schema.valType.decoded runtime val)
  | none => .null

section Get

variable {runtime : Runtime} {schema : Schema} {raw : Value} {key : Datum runtime.toV8 schema.keyType}

theorem get_eq (accepted : schema.keyType.check runtime.toV8 raw = .ok key) (around : Memory)
    (db : Db) :
    get runtime schema around raw db =
      match db.store key.bytes with
      | some val => .ofDecoded (schema.valType.decode runtime (around.holding val) val.length)
      | none => .throws (.status "NotFound: ") := by
  rw [get, DataType.sanitize_of_check accepted]
  cases found : db.store key.bytes <;>
    simp only [nativeGet, key.encode_value, engineGet, found] <;> rfl

/-- A read finds the last write of its key, and cannot say that there is none. -/
theorem Replayed.get_iff {store : Bytes → Option Bytes} {db : Db}
    (replayed : Replayed runtime.toV8 schema store db)
    (initial : ∀ key val, store key = some val → schema.valType.SelfContained val)
    (accepted : schema.keyType.check runtime.toV8 raw = .ok key) (around : Memory) :
    (lookup runtime schema store db.log key.bytes = .null ∨
        ∃ val, lookup runtime schema store db.log key.bytes = .value val) ∧
      (get runtime schema around raw db = lookup runtime schema store db.log key.bytes ↔
        lookup runtime schema store db.log key.bytes ≠ .null) := by
  have last : (lastOn key.bytes db.log).getD (store key.bytes) = db.store key.bytes := by
    rw [replayed.store, applyAll_apply]
  rw [lookup, last, get_eq accepted around db]
  cases found : db.store key.bytes with
  | none => simp
  | some val =>
    have contained := replayed.contained initial found
    obtain ⟨converted, reads⟩ :=
      Option.isSome_iff_exists.mp (DataType.decoded_isSome runtime contained)
    simp only [DataType.decode_holding runtime contained, reads, Reply.ofDecoded]
    simp

end Get

/-- In every state that calls and timers reach, with whatever failing in between, a read of an
accepted key is answered by the last write of the key exactly if the key is present. -/
theorem get_is_lookup_iff {runtime : Runtime} {fails : ℕ → Fails} {schema : ℕ → Schema}
    {stores : ℕ → Bytes → Option Bytes} {sizes : ℕ → JsNumber} {turns : List Turn}
    {session : Session}
    (initial : ∀ index key val, stores index key = some val →
      (schema index).valType.SelfContained val)
    (run : Runs (Prog.Steps (turn runtime.toV8 fails schema)) (Session.start stores sizes) turns session)
    (index : ℕ) {raw : Value} {key : Datum runtime.toV8 (schema index).keyType}
    (accepted : (schema index).keyType.check runtime.toV8 raw = .ok key) (around : Memory) :
    let db := session.world.dbs index
    let answer := lookup runtime (schema index) (stores index) db.log key.bytes
    (answer = .null ∨ ∃ val, answer = .value val) ∧
      (get runtime (schema index) around raw db = answer ↔ answer ≠ .null) := by
  exact ((Session.replayed_of_run run).dbs index).get_iff (initial index) accepted around

/-- A value is written directly and read back. -/
theorem get_is_lookup_after_put : ∃ session,
    Runs (Prog.Steps (turn Runtime.basic.toV8 (fun _ _ => none) fun _ => ⟨.int32, .int32⟩))
      (Session.start (fun _ _ => none) fun _ => .finite 64)
      [.direct 0 (.put (.number (.finite 1)) (.number (.finite 7)))] session ∧
    get Runtime.basic ⟨.int32, .int32⟩ ⟨[], []⟩ (.number (.finite 1)) (session.world.dbs 0) =
      .value (.number (.finite 7)) := by
  have run : Runs (Prog.Steps (turn Runtime.basic.toV8 (fun _ _ => none) fun _ => ⟨.int32, .int32⟩))
      (Session.start (fun _ _ => none) fun _ => .finite 64)
      [.direct 0 (.put (.number (.finite 1)) (.number (.finite 7)))] _ :=
    .snoc .nil rfl
  refine ⟨_, run, ?_⟩
  have accepted : DataType.int32.check Runtime.basic.toV8 (.number (.finite 1)) =
      .ok ⟨.number (.finite 1), .number (.finite 1), rfl⟩ := rfl
  have empty (index : ℕ) (key val : Bytes) (stored : none = some val) :
      DataType.int32.SelfContained val := nomatch stored
  obtain ⟨-, answers⟩ := get_is_lookup_iff empty run 0 accepted ⟨[], []⟩
  refine (answers.mpr ?_).trans ?_
  · decide +kernel
  · decide +kernel

/-- The key of an empty database is absent, and reading it throws. -/
theorem get_missing_throws : ∃ session,
    Runs (Prog.Steps (turn Runtime.basic.toV8 (fun _ _ => none) fun _ => ⟨.int32, .int32⟩))
      (Session.start (fun _ _ => none) fun _ => .finite 64) [] session ∧
    get Runtime.basic ⟨.int32, .int32⟩ ⟨[], []⟩ (.number (.finite 1)) (session.world.dbs 0) =
      .throws (.status "NotFound: ") :=
  ⟨_, .nil, rfl⟩

end NodeKv.Level
