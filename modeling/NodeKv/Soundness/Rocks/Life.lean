import NodeKv.Proofs.Rocks.Share
import NodeKv.Soundness.Rocks.Families

/-! # When a database of a RocksDB environment can be used

Only the first successful `open` binds databases, and it binds those that have been registered
before. A database that was registered later is never bound, because `open` cannot succeed again.
So the calls of the script alone tell which databases are bound, and the process ends exactly when
the engine is called through one that is not: by a direct operation, by a batch that is full, by a
flush of a batch that is not empty, or by the timer.
-/

namespace NodeKv.Rocks

open Machine
open Level (Fails Op Turn)

/-- The names that are registered after a call. -/
def Call.register (names : List String) : Call → List String
  | .registerDb ⟨some name, some _, some _⟩ =>
    if name.isEmpty || hasName names name then names else names ++ [name]
  | _ => names

/-- The names that a list of calls registers, in order. -/
def registered (calls : List Call) : List String := calls.foldl Call.register []

/-- A database was registered before the first `open` that succeeded. -/
def Served (calls : List Call) (index : ℕ) : Prop :=
  ∃ before after, calls = before ++ .openEnv none :: after ∧ Call.openEnv none ∉ before ∧
    index < (registered before).length

private theorem registered_concat (calls : List Call) (call : Call) :
    registered (calls ++ [call]) = call.register (registered calls) := by
  simp [registered]

theorem Call.length_register_le (call : Call) (names : List String) :
    names.length ≤ (call.register names).length := by
  unfold Call.register
  split
  · split_ifs
    · exact le_rfl
    · simp
  · exact le_rfl

theorem Served.lt {calls : List Call} {index : ℕ} (served : Served calls index) :
    index < (registered calls).length := by
  obtain ⟨before, after, rfl, -, within⟩ := served
  refine within.trans_le ?_
  generalize Call.openEnv none :: after = rest
  induction rest using List.reverseRecOn with
  | nil => rw [List.append_nil]
  | append_singleton rest call ih =>
    rw [← List.append_assoc, registered_concat]
    exact ih.trans (call.length_register_le _)

private theorem served_concat {calls : List Call} {call : Call} {index : ℕ} :
    Served (calls ++ [call]) index ↔ Served calls index ∨
      call = .openEnv none ∧ Call.openEnv none ∉ calls ∧ index < (registered calls).length := by
  constructor
  · rintro ⟨before, after, split, first, within⟩
    rcases List.eq_nil_or_concat after with rfl | ⟨earlier, last, rfl⟩
    · obtain ⟨rfl, same⟩ := List.append_inj' split rfl
      exact .inr ⟨List.singleton_inj.mp same, first, within⟩
    · rw [List.concat_eq_append, ← List.cons_append, ← List.append_assoc] at split
      exact .inl ⟨before, earlier, (List.append_inj' split rfl).1, first, within⟩
  · rintro (⟨before, after, rfl, first, within⟩ | ⟨rfl, first, within⟩)
    · exact ⟨before, after ++ [call], by simp, first, within⟩
    · exact ⟨calls, [], rfl, first, within⟩

section Standing

variable {v8 : V8} {fails : ℕ → Fails} {lockText : String}

/-- The environment and whether it is open, as they were. -/
def SameEnv (before after : Life) : Prop := after.env = before.env ∧ after.opened = before.opened

theorem SameEnv.trans (first second third : Life) (left : SameEnv first second)
    (right : SameEnv second third) : SameEnv first third :=
  ⟨right.1.trans left.1, right.2.trans left.2⟩

private theorem run_sameEnv (index : ℕ) (batch : Option ℕ) (program : Prog Error Share) :
    Prog.Keeps SameEnv (Life.run index batch program) := by
  intro life
  apply Prog.zoom_meets
  cases program (life.share index batch) with
  | returned share => exact ⟨rfl, rfl⟩
  | threw error share => exact ⟨rfl, rfl⟩
  | diverged => trivial

private theorem through_keeps {relation : Life → Life → Prop} (refl : ∀ life, relation life life)
    (index : ℕ)
    {method : Db → Prog Error Life} (kept : ∀ db, Prog.Keeps relation (method db)) :
    Prog.Keeps relation (Life.through index method) := by
  intro life
  unfold Life.through
  cases life.env.dbs[index]? with
  | none => exact refl life
  | some db => exact kept db life

/-- A database that is used leaves the environment alone. -/
theorem turn_sameEnv (turn : Turn) : Prog.Keeps SameEnv (Rocks.turn v8 fails turn) := by
  have refl : ∀ life, SameEnv life life := fun _ => ⟨rfl, rfl⟩
  have used : ∀ index batch (program : Db → Prog Error Share),
      Prog.Keeps SameEnv (Life.through index fun db => Life.run index batch (program db)) :=
    fun index batch program => through_keeps refl index fun db => run_sameEnv index batch (program db)
  have batched : ∀ index op, Prog.Keeps SameEnv (Life.through index (batchOp v8 fails index op)) := by
    intro index op
    refine through_keeps refl index fun db => .seq SameEnv.trans (run_sameEnv index none _) ?_
    intro life
    dsimp only
    split_ifs
    · exact run_sameEnv index none _ life
    · exact ⟨rfl, rfl⟩
  cases turn with
  | direct index op => exact used index none _
  | batchRecord index number op => exact used index (some number) _
  | batchWrite index number => exact used index (some number) _
  | batchClear index number => exact used index (some number) _
  | batched action =>
    cases action with
    | batchPut index key val => exact batched index (.put key val)
    | batchDel index key => exact batched index (.del key)
    | setBatchSize index num => exact used index none _
    | flushBatchOps index => exact used index none _
    | fire =>
      intro life
      simp only [Rocks.turn, act]
      cases life.timer with
      | none => exact refl life
      | some index => exact used index none _ { life with timer := none }

/-- How the environment stands after some calls. -/
structure Standing (calls : List Call) (life : Life) : Prop where
  env : Registered life.env
  names : life.env.dbs.map Db.name = registered calls
  opened : life.opened = true ↔ Call.openEnv none ∈ calls
  bound : ∀ index db, life.env.dbs[index]? = some db → (db.cf.isSome ↔ Served calls index)

/-- A registration is refused, or adds a database that is not bound. -/
theorem registerDb_cases (opt : DbOptions) (env : Env) :
    (∃ error, Rocks.registerDb opt env = .threw error env ∧
      Call.register (env.dbs.map Db.name) (.registerDb opt) = env.dbs.map Db.name) ∨
    ∃ db next, Rocks.registerDb opt env = .returned next ∧ next.dbs = env.dbs ++ [db] ∧
      db.cf = none ∧
      Call.register (env.dbs.map Db.name) (.registerDb opt) = env.dbs.map Db.name ++ [db.name] := by
  obtain ⟨name, keyType, valType⟩ := opt
  cases name with
  | none => exact .inl ⟨.nameRequired, rfl, rfl⟩
  | some name =>
    by_cases empty : name.isEmpty = true
    · have unnamed : (some name).filter (!·.isEmpty) = none := by simp [Option.filter, empty]
      refine .inl ⟨.nameRequired, ?_, ?_⟩
      · simp only [Rocks.registerDb, unnamed]
      · cases keyType <;> cases valType <;> simp [Call.register, empty]
    have named : (some name).filter (!·.isEmpty) = some name := by simp [Option.filter, empty]
    by_cases known : hasName (env.dbs.map Db.name) name = true
    · refine .inl ⟨.alreadyRegistered name, ?_, ?_⟩
      · simp only [Rocks.registerDb, named, known, if_true]
      · cases keyType <;> cases valType <;> simp [Call.register, known]
    cases keyType with
    | none => exact .inl ⟨.unsupportedTypes, by simp [Rocks.registerDb, named, known], rfl⟩
    | some keyType =>
      cases valType with
      | none => exact .inl ⟨.unsupportedTypes, by simp [Rocks.registerDb, named, known], rfl⟩
      | some valType =>
        refine .inr ⟨(dbCtor name ⟨keyType, valType⟩ env).1,
          { (dbCtor name ⟨keyType, valType⟩ env).2 with
            dbs := env.dbs ++ [(dbCtor name ⟨keyType, valType⟩ env).1] }, ?_, rfl, rfl, ?_⟩
        · simp only [Rocks.registerDb, named, known, if_false, Bool.false_eq_true]
          rfl
        · simp [Call.register, empty, known, dbCtor]

/-- Handles do not count for what is registered. -/
theorem Registered.init {env : Env} (registered : Registered env) (handles handles' : List Family) :
    Registered { env with handles := handles, dbs := env.dbs.map (Db.init handles') } := by
  have descriptors : (env.dbs.map (Db.init handles')).map Db.descriptor = env.dbs.map Db.descriptor := by
    rw [List.map_map]
    rfl
  have names : (env.dbs.map (Db.init handles')).map Db.name = env.dbs.map Db.name := by
    rw [List.map_map]
    rfl
  constructor
  · exact registered.desc.trans (congrArg _ descriptors.symm)
  · intro index db found
    obtain ⟨before, listed, rfl⟩ := Option.map_eq_some_iff.mp ((List.getElem?_map ..).symm.trans found)
    exact registered.indexed index before listed
  · exact (congrArg List.Nodup names).mpr registered.names

theorem Standing.turn {calls : List Call} {life next : Life} (standing : Standing calls life)
    {turn : Turn} (ended : (Rocks.turn v8 fails turn life).state? = some next) :
    Standing (calls ++ [.turn turn]) next := by
  obtain ⟨env, opened⟩ := (turn_sameEnv turn life).state? ended
  constructor
  · rw [env]
    exact standing.env
  · rw [env, standing.names, registered_concat]
    rfl
  · rw [opened, standing.opened]
    simp
  · intro index db found
    rw [env] at found
    rw [standing.bound index db found, served_concat]
    simp

theorem Standing.registerDb {calls : List Call} {life : Life} (standing : Standing calls life)
    {opt : DbOptions} {env : Env} (ended : (Rocks.registerDb opt life.env).state? = some env) :
    Standing (calls ++ [.registerDb opt]) { life with env := env } := by
  have served : ∀ index, Served (calls ++ [.registerDb opt]) index ↔ Served calls index := by
    intro index
    rw [served_concat]
    simp
  have opened : life.opened = true ↔ Call.openEnv none ∈ calls ++ [.registerDb opt] := by
    rw [standing.opened]
    simp
  have names : registered (calls ++ [.registerDb opt]) =
      Call.register (life.env.dbs.map Db.name) (.registerDb opt) := by
    rw [registered_concat, standing.names]
  have kept := (registerDb_registered opt life.env standing.env).state? ended
  rcases registerDb_cases opt life.env with ⟨error, threw, same⟩ | ⟨db, next, returned, added, unbound, more⟩
  · rw [threw] at ended
    obtain rfl := Option.some.inj ended
    refine ⟨kept, ?_, opened, ?_⟩
    · rw [names, same]
    · intro index db found
      rw [served]
      exact standing.bound index db found
  · rw [returned] at ended
    obtain rfl := Option.some.inj ended
    refine ⟨kept, ?_, opened, ?_⟩
    · rw [names, more, added, List.map_append, List.map_singleton]
    · intro index other found
      rw [added, List.getElem?_append] at found
      rw [served]
      split_ifs at found with old
      · exact standing.bound index other found
      · -- the new database is not bound, and was not there when the environment was opened
        obtain rfl := List.mem_singleton.mp (List.mem_of_getElem? found)
        rw [unbound]
        refine iff_of_false (by simp) ?_
        intro served
        have within := served.lt
        rw [← standing.names, List.length_map] at within
        exact old within

theorem Registered.isSome_init {env : Env} (registered : Registered env) {db : Db}
    (member : db ∈ env.dbs) : (db.init (openFamilies env.desc)).cf.isSome := by
  have named := registered.family_init member
  rw [← Option.isSome_map, named, Option.isSome_some]

theorem Standing.openEnv {calls : List Call} {life next : Life} (standing : Standing calls life)
    {failed : Option String} (ended : (Life.openEnv lockText failed life).state? = some next) :
    Standing (calls ++ [.openEnv failed]) next := by
  have names : registered (calls ++ [.openEnv failed]) = registered calls := registered_concat calls _
  -- an environment that stays as it is, unless for its handles
  have stays : failed ≠ none ∨ life.opened = true →
      Standing (calls ++ [.openEnv failed]) { life with env := { life.env with handles := [] } } := by
    intro refused
    constructor
    · exact { standing.env with }
    · rw [names]
      exact standing.names
    · rw [List.mem_append, List.mem_singleton, ← standing.opened]
      refine ⟨.inl, ?_⟩
      rintro (opened | same)
      · exact opened
      · exact refused.resolve_left fun other => other (Call.openEnv.inj same).symm
    · intro index db found
      rw [standing.bound index db found, served_concat, ← standing.opened]
      refine ⟨.inl, ?_⟩
      rintro (served | ⟨same, closed, -⟩)
      · exact served
      · rcases refused with other | opened
        · exact (other (Call.openEnv.inj same)).elim
        · exact (closed opened).elim
  rcases Life.openEnv_cases lockText failed life with ⟨refused, text, threw⟩ | ⟨rfl, closed, returned⟩
  · rw [threw] at ended
    obtain rfl := Option.some.inj ended
    exact stays refused
  · rw [returned] at ended
    obtain rfl := Option.some.inj ended
    have first : Call.openEnv none ∉ calls := by
      rw [← standing.opened, closed]
      exact Bool.false_ne_true
    constructor
    · exact standing.env.init _ _
    · rw [names, ← standing.names, List.map_map]
      rfl
    · exact iff_of_true rfl (by simp)
    · intro index db found
      obtain ⟨before, listed, rfl⟩ :=
        Option.map_eq_some_iff.mp ((List.getElem?_map ..).symm.trans found)
      have within := (List.getElem?_eq_some_iff.mp listed).1
      rw [← List.length_map Db.name, standing.names] at within
      refine iff_of_true (standing.env.isSome_init (List.mem_of_getElem? listed)) ?_
      exact served_concat.mpr (.inr ⟨rfl, first, within⟩)

theorem standing_of_run {contents : Contents} {sizes : ℕ → JsNumber} {calls : List Call}
    {life : Life}
    (run : Runs (Prog.Steps (Call.perform v8 fails lockText)) (.start contents sizes) calls life) :
    Standing calls life := by
  refine run.preserves Standing ⟨.new, rfl, by simp [Life.start], by simp [Life.start, Env.new]⟩ ?_
  intro calls life call next standing ended
  cases call with
  | registerDb opt =>
    rw [Prog.Steps, Call.perform, Prog.zoom] at ended
    cases performed : Rocks.registerDb opt life.env with
    | returned env =>
      rw [performed] at ended
      obtain rfl := Option.some.inj ended
      exact standing.registerDb (congrArg Outcome.state? performed)
    | threw error env =>
      rw [performed] at ended
      obtain rfl := Option.some.inj ended
      exact standing.registerDb (congrArg Outcome.state? performed)
    | diverged =>
      rw [performed] at ended
      contradiction
  | openEnv failed => exact standing.openEnv ended
  | turn turn => exact standing.turn ended

end Standing

section Calling

variable (v8 : V8)

/-- An operation on a database whose arguments pass the sanitizers. -/
def Life.accepts (index : ℕ) (op : Op) (life : Life) : Bool :=
  life.env.dbs[index]?.any fun db => (op.record? v8 db.schema).isSome

def Life.holds (index : ℕ) (batch : Option ℕ) (life : Life) : Bool := 0 < (life.batches index batch).cnt

/-- A batched operation that fills the batch. -/
def Life.fills (index : ℕ) (op : Op) (life : Life) : Bool :=
  life.accepts v8 index op && (life.sizes index).reached ((life.batches index none).cnt + 1)

/-- The database through which the engine is called, if it is. -/
def calling (life : Life) : Turn → Option ℕ
  | .direct index op => if life.accepts v8 index op then some index else none
  | .batched (.batchPut index key val) => if life.fills v8 index (.put key val) then some index else none
  | .batched (.batchDel index key) => if life.fills v8 index (.del key) then some index else none
  | .batched (.setBatchSize ..) => none
  | .batched (.flushBatchOps index) => if life.holds index none then some index else none
  | .batched .fire => life.timer.filter (life.holds · none)
  | .batchRecord .. => none
  | .batchWrite index number => if life.holds index (some number) then some index else none
  | .batchClear .. => none

end Calling

section Diverged

variable {v8 : V8} {fails : ℕ → Fails} {life : Life} {index : ℕ}

/-- The process ends through a database that is registered but not bound. -/
def Unbound (life : Life) (index : ℕ) : Prop := ∃ db, life.env.dbs[index]? = some db ∧ db.cf = none

private theorem writeEntries_diverged_iff {fails : Fails} {db : Db} {entries : List Entry}
    {share : Share} :
    writeEntries fails db entries share = .diverged ↔ db.cf = none := by
  unfold writeEntries
  cases db.cf with
  | none => simp
  | some family => cases fails share.calls <;> simp

private theorem seq_update_diverged_iff {σ : Type*} {program : Prog Error σ} {change : σ → σ}
    {state : σ} :
    Prog.seq program (Prog.update change) state = .diverged ↔ program state = .diverged := by
  cases performed : program state with
  | returned next => simp [Prog.seq_returned performed, Prog.update]
  | threw error next => simp [Prog.seq_threw performed]
  | diverged => simp [Prog.seq_diverged performed]

private theorem batchWrite_diverged_iff {fails : Fails} {db : Db} {share : Share} :
    batchWrite fails db share = .diverged ↔ 0 < share.cnt ∧ db.cf = none := by
  unfold batchWrite
  split_ifs with some
  · rw [batchClear, seq_update_diverged_iff, writeEntries_diverged_iff]
    simp [some]
  · simp [some]

private theorem perform_diverged_iff {fails : Fails} {db : Db} {op : Op} {share : Share} :
    perform v8 fails db .database op share = .diverged ↔
      (op.record? v8 db.schema).isSome ∧ db.cf = none := by
  rcases perform_cases v8 fails db .database op with
    ⟨refused, error, threw, -⟩ | ⟨record, given, wrote, -⟩
  · simp [threw, refused]
  · rw [wrote, writeRecord, writeEntries_diverged_iff, given]
    simp

private theorem run_diverged_iff {batch : Option ℕ} {program : Prog Error Share} :
    Life.run index batch program life = .diverged ↔ program (life.share index batch) = .diverged := by
  unfold Life.run Prog.zoom
  cases program (life.share index batch) <;> simp

private theorem through_diverged_iff {method : Db → Prog Error Life} :
    Life.through index method life = .diverged ↔
      ∃ db, life.env.dbs[index]? = some db ∧ method db life = .diverged := by
  unfold Life.through
  cases life.env.dbs[index]? <;> simp

private theorem write_diverged_iff (batch : Option ℕ) :
    Life.through index (fun db => Life.run index batch (batchWrite (fails index) db)) life = .diverged ↔
      life.holds index batch = true ∧ Unbound life index := by
  rw [through_diverged_iff]
  simp only [run_diverged_iff, batchWrite_diverged_iff, Life.holds, Life.share, Unbound,
    decide_eq_true_eq]
  constructor
  · rintro ⟨db, found, some, unbound⟩
    exact ⟨some, db, found, unbound⟩
  · rintro ⟨some, db, found, unbound⟩
    exact ⟨db, found, some, unbound⟩

private theorem batchOp_diverged_iff {op : Op} {db : Db} :
    batchOp v8 fails index op db life = .diverged ↔ (op.record? v8 db.schema).isSome = true ∧
      (life.sizes index).reached ((life.batches index none).cnt + 1) = true ∧ db.cf = none := by
  unfold batchOp
  rcases batchRecord_cases v8 (fails index) db op (life.share index none) with
    ⟨refused, error, threw⟩ | ⟨record, given, returned⟩
  · rw [Prog.seq_threw (Life.run_threw threw), refused]
    simp
  · have size : ∀ share, (life.putBack index none share).sizes index = share.batchSize := by
      simp [Life.putBack]
    have cnt : ∀ share, ((life.putBack index none share).batches index none).cnt = share.cnt := by
      simp [Life.putBack]
    rw [Prog.seq_returned (Life.run_returned returned), given, size, cnt]
    split_ifs with full
    · rw [run_diverged_iff, batchWrite_diverged_iff, Life.share_putBack]
      simp only [Option.isSome_some, Nat.succ_pos, true_and]
      exact ⟨fun unbound => ⟨full, unbound⟩, And.right⟩
    · refine iff_of_false ?_ fun bound => full bound.2.1
      rintro ⟨⟩

private theorem fills_diverged_iff {op : Op} :
    Life.through index (batchOp v8 fails index op) life = .diverged ↔
      life.fills v8 index op = true ∧ Unbound life index := by
  rw [through_diverged_iff]
  simp only [batchOp_diverged_iff, Life.fills, Life.accepts, Unbound, Bool.and_eq_true]
  constructor
  · rintro ⟨db, found, accepted, full, unbound⟩
    exact ⟨⟨by simpa [found] using accepted, full⟩, db, found, unbound⟩
  · rintro ⟨⟨accepted, full⟩, db, found, unbound⟩
    exact ⟨db, found, by simpa [found] using accepted, full, unbound⟩

/-- A turn ends the process exactly if it calls the engine through a database that is not bound. -/
theorem turn_diverged_iff (turn : Turn) :
    Rocks.turn v8 fails turn life = .diverged ↔
      ∃ index, calling v8 life turn = some index ∧ Unbound life index := by
  cases turn with
  | direct index op =>
    simp only [Rocks.turn, calling, Option.ite_none_right_eq_some, Option.some.injEq]
    rw [through_diverged_iff]
    simp only [run_diverged_iff, perform_diverged_iff, Life.accepts, Unbound]
    constructor
    · rintro ⟨db, found, accepted, unbound⟩
      exact ⟨index, ⟨by simpa [found] using accepted, rfl⟩, db, found, unbound⟩
    · rintro ⟨_, ⟨accepted, rfl⟩, db, found, unbound⟩
      exact ⟨db, found, by simpa [found] using accepted, unbound⟩
  | batchRecord index number op =>
    simp only [Rocks.turn, calling, through_diverged_iff, run_diverged_iff]
    refine iff_of_false ?_ (by simp)
    rintro ⟨db, -, diverged⟩
    rcases batchRecord_cases v8 (fails index) db op (life.share index (some number)) with
      ⟨-, error, threw⟩ | ⟨record, -, returned⟩
    · rw [threw] at diverged
      contradiction
    · rw [returned] at diverged
      contradiction
  | batchWrite index number =>
    simp only [Rocks.turn, calling, write_diverged_iff, Option.ite_none_right_eq_some, Option.some.injEq]
    aesop
  | batchClear index number =>
    simp only [Rocks.turn, calling, through_diverged_iff, run_diverged_iff]
    simp [batchClear, Prog.update]
  | batched action =>
    cases action with
    | batchPut index key val =>
      simp only [Rocks.turn, act, calling, fills_diverged_iff, Option.ite_none_right_eq_some,
        Option.some.injEq]
      aesop
    | batchDel index key =>
      simp only [Rocks.turn, act, calling, fills_diverged_iff, Option.ite_none_right_eq_some,
        Option.some.injEq]
      aesop
    | setBatchSize index num =>
      simp only [Rocks.turn, act, calling, through_diverged_iff, run_diverged_iff]
      simp [Prog.update]
    | flushBatchOps index =>
      simp only [Rocks.turn, act, calling, write_diverged_iff, Option.ite_none_right_eq_some,
        Option.some.injEq]
      aesop
    | fire =>
      simp only [Rocks.turn, act, calling]
      cases armed : life.timer with
      | none => simp
      | some index =>
        rw [write_diverged_iff]
        simp only [Life.holds, Unbound, Option.filter_eq_some_iff]
        aesop

private theorem get_unbound {runtime : Runtime} {db : Db} (unbound : db.cf = none) {raw : Value}
    {key : Datum runtime.toV8 db.schema.keyType}
    (accepted : db.schema.keyType.check runtime.toV8 raw = .ok key) (around : Memory)
    (contents : Contents) : get runtime db around raw contents = .never := by
  rw [get, DataType.sanitize_of_check accepted, unbound]
  simp only [key.encode_value]

/-- The values that a database reads can be converted to its type. -/
def Typed (db : Db) (contents : Contents) : Prop :=
  ∀ family, db.cf = some family → ∀ key val, contents family.name key = some val →
    db.schema.valType.SelfContained val

/-- Among such values, only a database that is not bound ends the process in a read. -/
theorem unbound_of_get {runtime : Runtime} {db : Db} {around : Memory} {raw : Value}
    {contents : Contents}
    (typed : Typed db contents) (ended : get runtime db around raw contents = .never) :
    db.cf = none ∧ ∃ key, db.schema.keyType.check runtime.toV8 raw = .ok key := by
  unfold get at ended
  rcases db.schema.keyType.check_cases runtime.toV8 raw with
    ⟨error, rejected, -⟩ | ⟨key, sanitized, checked⟩
  · rw [rejected] at ended
    cases ended
  refine ⟨?_, key, checked⟩
  cases bound : db.cf with
  | none => rfl
  | some family =>
    rw [sanitized, bound] at ended
    simp only [key.encode_value] at ended
    cases stored : contents family.name key.bytes with
    | none =>
      have missing : Level.engineGet (contents family.name) key.bytes = (.notFound, []) := by
        rw [Level.engineGet, stored]
      rw [missing] at ended
      cases ended
    | some val =>
      have given : Level.engineGet (contents family.name) key.bytes = (.success, val) := by
        rw [Level.engineGet, stored]
      have contained := typed family bound key.bytes val stored
      obtain ⟨value, converted⟩ := Option.isSome_iff_exists.mp (DataType.decoded_isSome runtime contained)
      rw [given] at ended
      simp only [DataType.decode_holding runtime contained, converted] at ended
      cases ended

end Diverged

section Main

variable {runtime : Runtime} {fails : ℕ → Fails} {lockText : String} {contents : Contents}
  {sizes : ℕ → JsNumber} {calls : List Call} {life : Life}

theorem Standing.unbound_iff (standing : Standing calls life) (index : ℕ) :
    Unbound life index ↔ index < (registered calls).length ∧ ¬Served calls index := by
  rw [← standing.names, List.length_map]
  constructor
  · rintro ⟨db, found, unbound⟩
    refine ⟨(List.getElem?_eq_some_iff.mp found).1, ?_⟩
    rw [← standing.bound index db found, unbound]
    exact Bool.false_ne_true
  · rintro ⟨within, unserved⟩
    refine ⟨life.env.dbs[index], List.getElem?_eq_getElem within, ?_⟩
    rw [← standing.bound index _ (List.getElem?_eq_getElem within)] at unserved
    exact Option.not_isSome_iff_eq_none.mp unserved

/-- Whatever has been called before, a call ends the process exactly if it makes the engine write
through a database that was not registered before the environment was opened. So does every read, and
among values of its type no other read does. -/
theorem process_ends_iff_not_served
    (run : Runs (Prog.Steps (Call.perform runtime.toV8 fails lockText)) (.start contents sizes) calls
      life) :
    (∀ turn, Rocks.turn runtime.toV8 fails turn life = .diverged ↔
      ∃ index, calling runtime.toV8 life turn = some index ∧ index < (registered calls).length ∧
        ¬Served calls index) ∧
    ∀ index db, life.env.dbs[index]? = some db → ∀ around raw,
      (¬Served calls index → ∀ key, db.schema.keyType.check runtime.toV8 raw = .ok key →
        get runtime db around raw life.contents = .never) ∧
      (Typed db life.contents → get runtime db around raw life.contents = .never →
        ¬Served calls index ∧ ∃ key, db.schema.keyType.check runtime.toV8 raw = .ok key) := by
  have standing := standing_of_run run
  constructor
  · intro turn
    rw [turn_diverged_iff]
    simp only [standing.unbound_iff]
  · intro index db found around raw
    rw [← standing.bound index db found, Option.not_isSome_iff_eq_none]
    constructor
    · intro unbound key accepted
      exact get_unbound unbound accepted around life.contents
    · intro typed ended
      exact unbound_of_get typed ended

/-- The timer of a batched put fires before the environment is opened. -/
theorem process_ends_by_timer : ∃ life,
    Runs (Prog.Steps (Call.perform Runtime.basic.toV8 (fun _ _ => none) ""))
      (.start (fun _ _ => none) fun _ => .finite 64)
      [.registerDb ⟨some "a", some .int32, some .int32⟩,
        .turn (.batched (.batchPut 0 (.number (.finite 1)) (.number (.finite 7))))] life ∧
    Rocks.turn Runtime.basic.toV8 (fun _ _ => none) (.batched .fire) life = .diverged := by
  have performed : (Prog.perform (Call.perform Runtime.basic.toV8 (fun _ _ => none) "")
      [.registerDb ⟨some "a", some .int32, some .int32⟩,
        .turn (.batched (.batchPut 0 (.number (.finite 1)) (.number (.finite 7))))]
      (.start (fun _ _ => none) fun _ => .finite 64)).map
      (fun life => calling Runtime.basic.toV8 life (.batched .fire)) = some (some 0) := by
    decide +kernel
  obtain ⟨life, performed, fires⟩ := Option.map_eq_some_iff.mp performed
  have run := Prog.perform_runs (fun _ _ _ ended => ended) (.nil : Runs _ _ _ _) performed
  refine ⟨life, run, ((process_ends_iff_not_served run).1 (.batched .fire)).mpr ⟨0, fires, ?_, ?_⟩⟩
  · decide +kernel
  · rintro ⟨before, after, split, -, -⟩
    have opened : Call.openEnv none ∈ before ++ Call.openEnv none :: after := by simp
    rw [← split] at opened
    exact absurd opened (by decide)

end Main

end NodeKv.Rocks
