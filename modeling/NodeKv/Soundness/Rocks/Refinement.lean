import NodeKv.Soundness.Rocks.Life

/-! # An opened environment is one database per column family

Once an environment with proper names has been opened, its databases do not know of each other:
every call on them ends as the same call on LevelDB databases that each have a store of their own,
with the same exception, and reads agree. So what is proved of LevelDB databases and their batches
holds of them, whatever is registered later and however often `open` is called again.

What was batched before the environment was opened is not there. The records are in the batches
and are counted, so they fill a batch earlier, but they are written to the default family.
-/

namespace NodeKv.Rocks

open Machine
open Level (Fails Op Schema Session Turn World)

section Session

/-- A database of LevelDB with its own batch, or with one of its further ones. -/
def view (session : Session) (index : ℕ) : Option ℕ → Level.Db
  | none => session.world.dbs index
  | some number => session.through index number

/-- The counterpart of `putBack`. -/
def setView (session : Session) (index : ℕ) (batch : Option ℕ) (db : Level.Db) : Session :=
  match batch with
  | none =>
    { session with
      world := { session.world with dbs := Function.update session.world.dbs index db } }
  | some number => session.putBack index number db

variable (session : Session) (index : ℕ) (batch : Option ℕ) (db : Level.Db)

private theorem view_setView_self : view (setView session index batch db) index batch = db := by
  cases batch <;> simp [view, setView, Session.through, Session.putBack]

/-- Another batch of the same database sees what was written. -/
theorem view_setView_batch {other : Option ℕ} (ne : other ≠ batch) :
    view (setView session index batch db) index other = { db with
      records := (view session index other).records, cnt := (view session index other).cnt } := by
  cases batch with
  | none =>
    cases other with
    | none => exact (ne rfl).elim
    | some number => simp [view, setView, Session.through]
  | some number =>
    cases other with
    | none => simp [view, setView, Session.putBack]
    | some other =>
      have apart : other ≠ number := fun same => ne (congrArg some same)
      simp [view, setView, Session.through, Session.putBack, apart]

private theorem view_setView_of_ne {other : ℕ} (ne : other ≠ index) (batch' : Option ℕ) :
    view (setView session index batch db) other batch' = view session other batch' := by
  cases batch <;> cases batch' <;> simp [view, setView, Session.through, Session.putBack, ne]

private theorem timer_setView :
    (setView session index batch db).world.timer = session.world.timer := by
  cases batch <;> rfl

end Session

namespace Life

variable (life : Life) (index : ℕ) (batch : Option ℕ) (share : Share)

private theorem share_putBack_batch {other : Option ℕ} (ne : other ≠ batch) :
    (life.putBack index batch share).share index other = { share with
      entries := (life.share index other).entries, cnt := (life.share index other).cnt } := by
  simp [Life.share, putBack, ne]

private theorem share_putBack_of_ne {other : ℕ} (ne : other ≠ index) (batch' : Option ℕ) :
    (life.putBack index batch share).share other batch' =
      { life.share other batch' with contents := share.contents } := by
  simp [Life.share, putBack, ne]

end Life

/-- Databases with families that they do not share. -/
structure Separate (bound : List Db) : Prop where
  own : ∀ db ∈ bound, ∃ family, db.cf = some family ∧ family.name ≠ defaultName
  apart : ∀ (index other : ℕ) (db db' : Db), bound[index]? = some db → bound[other]? = some db' →
    other ≠ index → db'.target ≠ db.target

/-- The bound databases of an environment look like databases of LevelDB. -/
structure Refines (bound : List Db) (life : Life) (session : Session) : Prop where
  front : bound <+: life.env.dbs
  opened : life.opened = true
  timer : session.world.timer = life.timer
  timed : ∀ index, life.timer = some index → index < bound.length
  alike : ∀ index db, bound[index]? = some db → ∀ batch,
    Alike db.target life.contents (life.share index batch) (view session index batch)

section Refines

variable {v8 : V8} {fails : ℕ → Fails} {schema : ℕ → Schema} {bound : List Db} {life : Life}
  {session : Session} {index : ℕ} {db : Db}

theorem Refines.found (refines : Refines bound life session) (listed : bound[index]? = some db) :
    life.env.dbs[index]? = some db := by
  obtain ⟨rest, same⟩ := refines.front
  rw [← same, List.getElem?_append_left (List.getElem?_eq_some_iff.mp listed).1]
  exact listed

theorem Separate.target_ne (separate : Separate bound) (member : db ∈ bound) :
    db.target ≠ defaultName := by
  obtain ⟨family, cf, hidden⟩ := separate.own db member
  rwa [Db.target_of_bound cf]

/-- A database may be given a new share, if only its own family and the default one have changed. -/
theorem Refines.putBack (separate : Separate bound) (refines : Refines bound life session)
    (listed : bound[index]? = some db) {batch : Option ℕ} {share : Share} {mirror : Level.Db}
    (alike : Alike db.target life.contents share mirror) :
    Refines bound (life.putBack index batch share) (setView session index batch mirror) := by
  refine ⟨refines.front, refines.opened, (timer_setView ..).trans refines.timer, refines.timed, ?_⟩
  intro other db' listed' batch'
  by_cases same : other = index
  · subst same
    obtain rfl := Option.some.inj (listed.symm.trans listed')
    by_cases own : batch' = batch
    · subst own
      rw [Life.share_putBack, view_setView_self]
      exact { alike with frame := fun _ _ _ => rfl }
    · rw [Life.share_putBack_batch _ _ _ _ own, view_setView_batch _ _ _ _ own]
      have before := refines.alike other db listed batch'
      exact { alike with
        records := before.records, cnt := before.cnt, tagged := before.tagged, frame := fun _ _ _ => rfl }
  · rw [Life.share_putBack_of_ne _ _ _ _ same, view_setView_of_ne _ _ _ _ same]
    have before := refines.alike other db' listed' batch'
    have kept : share.contents db'.target = life.contents db'.target :=
      alike.frame _ (separate.apart index other db db' listed listed' same)
        (separate.target_ne (List.mem_of_getElem? listed'))
    exact { before with store := before.store.trans kept.symm, frame := fun _ _ _ => rfl }

/-- Two programs on a database that end alike do so on the whole. -/
theorem Refines.runBatch (separate : Separate bound) (refines : Refines bound life session)
    (listed : bound[index]? = some db) (number : ℕ) {program : Prog Error Share}
    {program' : Prog Error Level.Db}
    (inner : Outcome.Rel (Alike db.target life.contents) (program (life.share index (some number)))
      (program' (session.through index number))) :
    Outcome.Rel (Refines bound) (Life.run index (some number) program life)
      (Session.runBatch index number program' session) := by
  refine Prog.zoom_rel inner ?_
  intro share mirror alike
  exact refines.putBack separate listed alike

theorem Refines.runWorld (separate : Separate bound) (refines : Refines bound life session)
    (listed : bound[index]? = some db) {program : Prog Error Share} {program' : Prog Error Level.Db}
    (inner : Outcome.Rel (Alike db.target life.contents) (program (life.share index none))
      (program' (session.world.dbs index))) :
    Outcome.Rel (fun life world => Refines bound life { session with world := world })
      (Life.run index none program life) (World.run index program' session.world) := by
  refine Prog.zoom_rel inner ?_
  intro share mirror alike
  exact refines.putBack separate listed alike

private theorem through_eq (refines : Refines bound life session) (listed : bound[index]? = some db)
    (method : Db → Prog Error Life) : Life.through index method life = method db life := by
  rw [Life.through, refines.found listed]

/-- The calls on the first few databases, and the timer. -/
def Within (count : ℕ) : Turn → Prop
  | .direct index _ => index < count
  | .batched (.batchPut index _ _) => index < count
  | .batched (.batchDel index _) => index < count
  | .batched (.setBatchSize index _) => index < count
  | .batched (.flushBatchOps index) => index < count
  | .batched .fire => True
  | .batchRecord index _ _ => index < count
  | .batchWrite index _ => index < count
  | .batchClear index _ => index < count

private theorem batchOp_rel (separate : Separate bound)
    (schemas : ∀ index db, bound[index]? = some db → schema index = db.schema)
    (refines : Refines bound life session) (listed : bound[index]? = some db) (op : Op) :
    Outcome.Rel (fun life world => Refines bound life { session with world := world })
      (batchOp v8 fails index op db life) (Level.batchOp v8 fails schema index op session.world) := by
  obtain ⟨family, cf, -⟩ := separate.own db (List.mem_of_getElem? listed)
  have target := Db.target_of_bound cf
  have recorded : Outcome.Rel (Alike db.target life.contents)
      (batchRecord v8 (fails index) db op (life.share index none))
      (Level.batchRecord v8 (fails index) (schema index) op (session.world.dbs index)) := by
    rw [schemas index db listed, target]
    exact batchRecord_rel cf (target ▸ refines.alike index db listed none) op
  refine Prog.seq_rel (refines.runWorld separate listed recorded) (fun _ _ => id) ?_
  intro next world refines
  have alike := refines.alike index db listed none
  have cnt : (world.dbs index).cnt = (next.batches index none).cnt := alike.cnt
  have size : (world.dbs index).batchSize = next.sizes index := alike.batchSize
  rw [cnt, size]
  split_ifs
  · refine refines.runWorld separate listed ?_
    rw [target]
    exact batchWrite_rel cf (target ▸ alike)
  · exact .returned { refines with
      timer := rfl
      timed := by
        rintro _ ⟨⟩
        exact (List.getElem?_eq_some_iff.mp listed).1 }

/-- The own batch of a database is written. -/
theorem flush_rel (separate : Separate bound) (refines : Refines bound life session)
    (listed : bound[index]? = some db) :
    Outcome.Rel (fun life world => Refines bound life { session with world := world })
      (Life.run index none (batchWrite (fails index) db) life)
      (World.run index (Level.flushBatchOps (fails index)) session.world) := by
  obtain ⟨family, cf, -⟩ := separate.own db (List.mem_of_getElem? listed)
  refine refines.runWorld separate listed ?_
  rw [Db.target_of_bound cf]
  exact batchWrite_rel cf (Db.target_of_bound cf ▸ refines.alike index db listed none)

theorem act_rel (separate : Separate bound)
    (schemas : ∀ index db, bound[index]? = some db → schema index = db.schema)
    (refines : Refines bound life session) {action : Level.Action}
    (within : Within bound.length (.batched action)) :
    Outcome.Rel (fun life world => Refines bound life { session with world := world })
      (act v8 fails action life) (Level.act v8 fails schema action session.world) := by
  have listed : ∀ {index}, index < bound.length → ∃ db, bound[index]? = some db :=
    fun within => ⟨_, List.getElem?_eq_getElem within⟩
  cases action with
  | batchPut index key val =>
    obtain ⟨db, listed⟩ := listed within
    rw [act, through_eq refines listed]
    exact batchOp_rel separate schemas refines listed _
  | batchDel index key =>
    obtain ⟨db, listed⟩ := listed within
    rw [act, through_eq refines listed]
    exact batchOp_rel separate schemas refines listed _
  | setBatchSize index num =>
    obtain ⟨db, listed⟩ := listed within
    rw [act, through_eq refines listed]
    refine refines.runWorld separate listed (.returned ?_)
    exact { refines.alike index db listed none with batchSize := rfl }
  | flushBatchOps index =>
    obtain ⟨db, listed⟩ := listed within
    rw [act, through_eq refines listed]
    exact flush_rel separate refines listed
  | fire =>
    simp only [act, Level.act]
    rw [refines.timer]
    cases armed : life.timer with
    | none => exact .returned refines
    | some index =>
      obtain ⟨db, listed⟩ := listed (refines.timed index armed)
      have disarmed : Refines bound { life with timer := none }
          { session with world := { session.world with timer := none } } :=
        { refines with timer := rfl, timed := by rintro _ ⟨⟩ }
      dsimp only
      rw [through_eq disarmed listed]
      exact flush_rel separate disarmed listed

/-- Every call on a bound database, and the timer, ends as for LevelDB. -/
theorem turn_rel (separate : Separate bound)
    (schemas : ∀ index db, bound[index]? = some db → schema index = db.schema)
    (refines : Refines bound life session) {turn : Turn} (within : Within bound.length turn) :
    Outcome.Rel (Refines bound) (Rocks.turn v8 fails turn life)
      (Level.turn v8 fails schema turn session) := by
  have listed : ∀ {index}, index < bound.length → ∃ db, bound[index]? = some db :=
    fun within => ⟨_, List.getElem?_eq_getElem within⟩
  cases turn with
  | direct index op =>
    obtain ⟨db, listed⟩ := listed within
    obtain ⟨family, cf, -⟩ := separate.own db (List.mem_of_getElem? listed)
    rw [Rocks.turn, through_eq refines listed, Level.turn, schemas index db listed]
    refine Prog.zoom_right_rel (refines.runWorld separate listed ?_)
    rw [Db.target_of_bound cf]
    exact perform_rel cf (Db.target_of_bound cf ▸ refines.alike index db listed none) .database op
  | batched action =>
    apply Prog.zoom_right_rel
    exact act_rel separate schemas refines within
  | batchRecord index number op =>
    obtain ⟨db, listed⟩ := listed within
    obtain ⟨family, cf, -⟩ := separate.own db (List.mem_of_getElem? listed)
    rw [Rocks.turn, through_eq refines listed, Level.turn, schemas index db listed]
    refine refines.runBatch separate listed number ?_
    rw [Db.target_of_bound cf]
    exact batchRecord_rel cf (Db.target_of_bound cf ▸ refines.alike index db listed (some number)) op
  | batchWrite index number =>
    obtain ⟨db, listed⟩ := listed within
    obtain ⟨family, cf, -⟩ := separate.own db (List.mem_of_getElem? listed)
    rw [Rocks.turn, through_eq refines listed, Level.turn]
    refine refines.runBatch separate listed number ?_
    rw [Db.target_of_bound cf]
    exact batchWrite_rel cf (Db.target_of_bound cf ▸ refines.alike index db listed (some number))
  | batchClear index number =>
    obtain ⟨db, listed⟩ := listed within
    rw [Rocks.turn, through_eq refines listed, Level.turn]
    refine refines.runBatch separate listed number ?_
    exact batchClear_rel (refines.alike index db listed (some number))

end Refines

section Early

variable {v8 : V8} {fails : ℕ → Fails} {lockText : String}

/-- What is in a batch was there before, or is for the family that the database stands for. -/
def Adds (target : Bytes) (before after : Share) : Prop :=
  ∀ entry ∈ after.entries, entry ∈ before.entries ∨ entry.family = target

theorem Adds.trans (target : Bytes) (first second third : Share) (left : Adds target first second)
    (right : Adds target second third) : Adds target first third := by
  intro entry member
  rcases right entry member with old | new
  · exact left entry old
  · exact .inr new

private theorem writeEntries_adds (fails : Fails) (db : Db) (entries : List Entry) :
    Prog.Keeps (Adds db.target) (writeEntries fails db entries) := by
  intro share
  unfold writeEntries
  cases db.cf with
  | none => trivial
  | some family =>
    dsimp only
    cases fails share.calls with
    | some text => exact fun _ => .inl
    | none => exact fun _ => .inl

private theorem perform_adds (fails : Fails) (db : Db) (target : Level.Target) (op : Op) :
    Prog.Keeps (Adds db.target) (perform v8 fails db target op) := by
  rcases perform_cases v8 fails db target op with ⟨-, error, threw, -⟩ | ⟨record, -, wrote, -⟩
  · rw [threw]
    exact fun share entry => .inl
  · rw [wrote]
    cases target with
    | database => exact writeEntries_adds fails db _
    | batch =>
      intro share entry member
      rcases List.mem_append.mp member with old | new
      · exact .inl old
      · obtain rfl := List.mem_singleton.mp new
        exact .inr rfl

private theorem batchRecord_adds (fails : Fails) (db : Db) (op : Op) :
    Prog.Keeps (Adds db.target) (batchRecord v8 fails db op) :=
  .seq (Adds.trans _) (perform_adds fails db .batch op) (.update fun _ _ => .inl)

private theorem batchWrite_adds (fails : Fails) (db : Db) :
    Prog.Keeps (Adds db.target) (batchWrite fails db) := by
  intro share
  unfold batchWrite
  split_ifs
  · refine Prog.Keeps.seq (Adds.trans _) (writeEntries_adds fails db _) (.update ?_) share
    intro share entry member
    exact (List.not_mem_nil member).elim
  · exact fun _ => .inl

/-- Before the environment is opened, batches hold records for the default family only. -/
structure Early (life : Life) : Prop where
  unbound : ∀ db ∈ life.env.dbs, db.cf = none
  shared : ∀ index batch, ∀ entry ∈ (life.batches index batch).entries, entry.family = defaultName
  timed : ∀ index, life.timer = some index → index < life.env.dbs.length

section Run

variable {life : Life} {index : ℕ} {db : Db}

private theorem run_early (early : Early life) (found : life.env.dbs[index]? = some db)
    (batch : Option ℕ)
    {program : Prog Error Share} (adds : Prog.Keeps (Adds db.target) program) :
    (Life.run index batch program life).Meets True (fun next => Early next ∧ next.env = life.env)
      fun _ next => Early next ∧ next.env = life.env := by
  have target : db.target = defaultName := by
    rw [Db.target, early.unbound db (List.mem_of_getElem? found)]
    rfl
  have back : ∀ share, Adds db.target (life.share index batch) share →
      Early (life.putBack index batch share) ∧ (life.putBack index batch share).env = life.env := by
    intro share adds
    refine ⟨⟨early.unbound, ?_, early.timed⟩, rfl⟩
    intro other batch' entry member
    by_cases same : other = index
    · subst same
      by_cases own : batch' = batch
      · subst own
        simp only [Life.putBack, Function.update_self] at member
        rcases adds entry member with old | new
        · exact early.shared other batch' entry old
        · exact new.trans target
      · simp only [Life.putBack, Function.update_self, Function.update_of_ne own] at member
        exact early.shared other batch' entry member
    · simp only [Life.putBack, Function.update_of_ne same] at member
      exact early.shared other batch' entry member
  apply Prog.zoom_meets
  exact (adds (life.share index batch)).mono id back fun _ => back

private theorem through_early (early : Early life) {method : Db → Prog Error Life}
    (kept : ∀ db, life.env.dbs[index]? = some db →
      (method db life).Meets True (fun next => Early next ∧ next.env = life.env)
        fun _ next => Early next ∧ next.env = life.env) :
    (Life.through index method life).Meets True Early fun _ => Early := by
  unfold Life.through
  cases found : life.env.dbs[index]? with
  | none => exact early
  | some db => exact (kept db found).mono id (fun _ => And.left) fun _ _ => And.left

private theorem batchOp_early (early : Early life) (found : life.env.dbs[index]? = some db)
    (op : Op) :
    (batchOp v8 fails index op db life).Meets True (fun next => Early next ∧ next.env = life.env)
      fun _ next => Early next ∧ next.env = life.env := by
  refine Prog.seq_meets (run_early early found none (batchRecord_adds _ db op)) ?_
  rintro next ⟨early, env⟩
  rw [← env] at found ⊢
  split_ifs
  · exact run_early early found none (batchWrite_adds _ db)
  · refine ⟨{ early with timed := ?_ }, rfl⟩
    rintro _ ⟨⟩
    exact (List.getElem?_eq_some_iff.mp found).1

end Run

private theorem turn_early (turn : Turn) : Prog.Preserves Early (Rocks.turn v8 fails turn) := by
  intro life early
  have written : ∀ index batch, (Life.through index
      (fun db => Life.run index batch (batchWrite (fails index) db)) life).Meets True Early fun _ => Early :=
    fun index batch => through_early early fun db found =>
      run_early early found batch (batchWrite_adds _ db)
  have batched : ∀ index op,
      (Life.through index (batchOp v8 fails index op) life).Meets True Early fun _ => Early :=
    fun index op => through_early early fun db found => batchOp_early early found op
  cases turn with
  | direct index op =>
    exact through_early early fun db found => run_early early found none (perform_adds _ db _ op)
  | batchRecord index number op =>
    exact through_early early fun db found =>
      run_early early found (some number) (batchRecord_adds _ db op)
  | batchWrite index number => exact written index (some number)
  | batchClear index number =>
    refine through_early early fun db found => run_early early found (some number) (.update ?_)
    intro share entry member
    exact (List.not_mem_nil member).elim
  | batched action =>
    cases action with
    | batchPut index key val => exact batched index (.put key val)
    | batchDel index key => exact batched index (.del key)
    | setBatchSize index num =>
      exact through_early early fun db found =>
        run_early early found none (.update fun _ _ => .inl)
    | flushBatchOps index => exact written index none
    | fire =>
      simp only [Rocks.turn, act]
      cases life.timer with
      | none => exact early
      | some index =>
        have disarmed : Early { life with timer := none } := { early with timed := by rintro _ ⟨⟩ }
        exact through_early disarmed fun db found =>
          run_early disarmed found none (batchWrite_adds _ db)

private theorem early_of_run {contents : Contents} {sizes : ℕ → JsNumber} {calls : List Call}
    {life : Life}
    (run : Runs (Prog.Steps (Call.perform v8 fails lockText)) (.start contents sizes) calls life)
    (closed : life.opened = false) : Early life := by
  revert closed
  refine run.preserves (fun _ life => life.opened = false → Early life) ?_ ?_
  · intro _
    exact ⟨by simp [Life.start, Env.new], by simp [Life.start], by simp [Life.start]⟩
  intro calls life call next early ended closed
  cases call with
  | registerDb opt =>
    rw [Prog.Steps, Call.perform, Prog.zoom] at ended
    rcases registerDb_cases opt life.env with ⟨error, threw, -⟩ | ⟨db, env, returned, added, unbound, -⟩
    · rw [threw] at ended
      obtain rfl := Option.some.inj ended
      exact early closed
    · rw [returned] at ended
      obtain rfl := Option.some.inj ended
      refine ⟨?_, (early closed).shared, ?_⟩
      · intro other member
        rcases List.mem_append.mp (added ▸ member) with old | new
        · exact (early closed).unbound other old
        · rw [List.mem_singleton.mp new, unbound]
      · intro index armed
        have within := (early closed).timed index armed
        rw [added, List.length_append]
        omega
  | openEnv failed =>
    rw [Prog.Steps, Call.perform] at ended
    rcases Life.openEnv_cases lockText failed life with ⟨-, text, threw⟩ | ⟨-, -, returned⟩
    · rw [threw] at ended
      obtain rfl := Option.some.inj ended
      exact { early closed with }
    · rw [returned] at ended
      obtain rfl := Option.some.inj ended
      contradiction
  | turn turn =>
    obtain ⟨-, opened⟩ := (turn_sameEnv turn life).state? ended
    exact (turn_early turn life (early (opened ▸ closed))).state? ended

end Early

section Main

variable {v8 : V8} {fails : ℕ → Fails} {lockText : String} {contents : Contents}
  {sizes : ℕ → JsNumber} {calls later : List Call} {life opened final : Life}

/-- The types of the databases. -/
def schemas (dbs : List Db) (index : ℕ) : Schema :=
  (dbs[index]?.map Db.schema).getD ⟨.binary, .binary⟩

/-- The databases of an environment just opened, without what is in their batches. -/
def mirror (life : Life) : Session where
  world :=
    { dbs := fun index =>
        { store := life.contents ((life.env.dbs[index]?.map Db.target).getD defaultName)
          records := []
          cnt := (life.batches index none).cnt
          batchSize := life.sizes index
          calls := life.calls index
          log := [] }
      timer := life.timer }
  batches := fun index number => ⟨[], (life.batches index (some number)).cnt⟩

/-- Proper names give separate families. -/
theorem Bound.separate {env : Env} (bound : Bound env) (names : (env.dbs.map Db.name).Nodup) :
    Separate env.dbs := by
  have named : ∀ db ∈ env.dbs, db.cf.map Family.name = some db.target := by
    intro db member
    obtain ⟨family, cf, -⟩ := bound.own db member
    rw [Db.target_of_bound cf, cf, Option.map_some]
  constructor
  · intro db member
    obtain ⟨family, cf, -⟩ := bound.own db member
    refine ⟨family, cf, ?_⟩
    have hidden := bound.hidden db member
    rw [cf, Option.map_some] at hidden
    exact fun same => hidden (congrArg some same)
  · intro index other db db' listed listed' ne same
    have member := List.mem_of_getElem? listed
    have member' := List.mem_of_getElem? listed'
    have distinct : db' ≠ db := by
      rintro rfl
      have within := (List.getElem?_eq_some_iff.mp listed').1
      exact ne ((List.getElem?_inj within names.of_map).mp (listed'.trans listed.symm))
    refine bound.apart db member db' member' distinct ?_
    rw [named db member, named db' member', same]

/-- What an `open` that succeeds has done. -/
theorem openEnv_returned (opens : Life.openEnv lockText none life = .returned opened) :
    life.opened = false ∧ opened = { life with
      opened := true
      env := { life.env with
        handles := openFamilies life.env.desc
        dbs := life.env.dbs.map (Db.init (openFamilies life.env.desc)) } } := by
  rcases Life.openEnv_cases lockText none life with ⟨-, text, threw⟩ | ⟨-, closed, returned⟩
  · cases threw.symm.trans opens
  · exact ⟨closed, Outcome.returned.inj (opens.symm.trans returned)⟩

/-- The databases of an environment just opened look like databases of LevelDB. -/
theorem mirror_refines (early : Early life)
    (opens : Life.openEnv lockText none life = .returned opened)
    (separate : Separate opened.env.dbs) : Refines opened.env.dbs opened (mirror opened) := by
  obtain ⟨-, rfl⟩ := openEnv_returned opens
  refine ⟨List.prefix_rfl, rfl, rfl, ?_, ?_⟩
  · intro index armed
    simpa using early.timed index armed
  · intro index db listed batch
    have shared : ∀ entry ∈ (life.batches index batch).entries, entry.family = defaultName :=
      early.shared index batch
    have apart : ∀ entry ∈ (life.batches index batch).entries, entry.family ≠ db.target := by
      intro entry member same
      exact separate.target_ne (List.mem_of_getElem? listed) (same.symm.trans (shared entry member))
    have none : forFamily db.target (life.batches index batch).entries = [] := forFamily_of_ne apart
    have view : view (mirror { life with
          opened := true
          env := { life.env with
            handles := openFamilies life.env.desc
            dbs := life.env.dbs.map (Db.init (openFamilies life.env.desc)) } }) index batch =
        ⟨life.contents db.target, [], (life.batches index batch).cnt, life.sizes index,
          life.calls index, []⟩ := by
      cases batch <;> simp only [Rocks.view, mirror, Session.through, listed, Option.map_some,
        Option.getD_some]
    rw [view]
    exact ⟨rfl, none.symm, rfl, rfl, rfl, fun entry member => .inr (shared entry member),
      fun _ _ _ => rfl⟩

/-- The call on a database that a call is. -/
def Call.turn? : Call → Option Turn
  | .turn inner => some inner
  | _ => none

/-- What a call may use of the environment while its first databases are all that is used. -/
def Call.Within (count : ℕ) : Call → Prop
  | .turn inner => Rocks.Within count inner
  | _ => True

/-- Registrations and further attempts to open the environment leave the bound databases alone. -/
theorem Refines.call {bound : List Db} {session : Session} {next : Life} {call : Call}
    (separate : Separate bound) {schema : ℕ → Schema}
    (schemas : ∀ index db, bound[index]? = some db → schema index = db.schema)
    (refines : Refines bound life session) (within : call.Within bound.length)
    (ended : (call.perform v8 fails lockText life).state? = some next) :
    ∃ session', Runs (Prog.Steps (Level.turn v8 fails schema)) session call.turn?.toList session' ∧
      Refines bound next session' := by
  cases call with
  | registerDb opt =>
    rw [Call.perform, Prog.zoom] at ended
    rcases registerDb_cases opt life.env with ⟨error, threw, -⟩ | ⟨db, env, returned, added, -⟩
    · rw [threw] at ended
      obtain rfl := Option.some.inj ended
      exact ⟨session, .nil, refines⟩
    · rw [returned] at ended
      obtain rfl := Option.some.inj ended
      refine ⟨session, .nil, { refines with front := ?_ }⟩
      exact added ▸ refines.front.trans (List.prefix_append ..)
  | openEnv failed =>
    rw [Call.perform] at ended
    have stays : Refines bound { life with env := { life.env with handles := [] } } session :=
      { refines with }
    rcases Life.openEnv_cases lockText failed life with ⟨-, text, threw⟩ | ⟨-, closed, -⟩
    · rw [threw] at ended
      obtain rfl := Option.some.inj ended
      exact ⟨session, .nil, stays⟩
    · rw [refines.opened] at closed
      contradiction
  | turn inner =>
    have related : Outcome.Rel (Refines bound) (Rocks.turn v8 fails inner life)
        (Level.turn v8 fails schema inner session) := turn_rel separate schemas refines within
    obtain ⟨session', ended', refines⟩ := related.of_state? ended
    exact ⟨session', .snoc .nil ended', refines⟩

theorem Refines.get {bound : List Db} {session : Session} (separate : Separate bound)
    (refines : Refines bound life session) {index : ℕ} {db : Db} (listed : bound[index]? = some db)
    (runtime : Runtime) (around : Memory) (key : Value) :
    Rocks.get runtime db around key life.contents =
      Level.get runtime db.schema around key (session.world.dbs index) := by
  obtain ⟨family, cf, -⟩ := separate.own db (List.mem_of_getElem? listed)
  have store : (session.world.dbs index).store = life.contents family.name := by
    rw [← Db.target_of_bound cf]
    exact (refines.alike index db listed none).store
  unfold Rocks.get Level.get
  cases db.schema.keyType.sanitize runtime.toV8 key with
  | error error => rfl
  | ok info0 =>
    simp only [Level.nativeGet, store, cf]
    cases db.schema.keyType.encode runtime.toV8 info0 <;> rfl

/-- After an environment with proper names was opened, whatever was done before, its databases are
independent databases of LevelDB, without what was batched before: all later calls on them end in
the same way, and reads agree. -/
theorem opened_refines_level
    (run : Runs (Prog.Steps (Call.perform v8 fails lockText)) (.start contents sizes) calls life)
    (proper : ∀ db ∈ life.env.dbs, Proper db.name)
    (opens : Life.openEnv lockText none life = .returned opened)
    (onward : Runs (Guarded (fun _ call => call.Within opened.env.dbs.length)
      (Prog.Steps (Call.perform v8 fails lockText))) opened later final) :
    ∃ session,
      Runs (Prog.Steps (Level.turn v8 fails (schemas opened.env.dbs))) (mirror opened)
        (later.filterMap Call.turn?) session ∧
      (∀ turn, Within opened.env.dbs.length turn →
        Outcome.Rel (Refines opened.env.dbs) (Rocks.turn v8 fails turn final)
          (Level.turn v8 fails (schemas opened.env.dbs) turn session)) ∧
      ∀ index db, opened.env.dbs[index]? = some db → ∀ runtime around key,
        get runtime db around key final.contents =
          Level.get runtime db.schema around key (session.world.dbs index) := by
  have registered := (standing_of_run run).env
  obtain ⟨closed, same⟩ := openEnv_returned opens
  have separate : Separate opened.env.dbs := by
    have bound := registered.bound proper
    rw [same]
    refine Bound.separate bound ?_
    rw [List.map_map]
    exact registered.names
  have typed : ∀ index db, opened.env.dbs[index]? = some db →
      schemas opened.env.dbs index = db.schema := by
    intro index db listed
    rw [schemas, listed, Option.map_some, Option.getD_some]
  have refined : ∃ session, Runs (Prog.Steps (Level.turn v8 fails (schemas opened.env.dbs)))
      (mirror opened) (later.filterMap Call.turn?) session ∧
      Refines opened.env.dbs final session := by
    refine onward.preserves (fun later final => ∃ session, Runs
      (Prog.Steps (Level.turn v8 fails (schemas opened.env.dbs))) (mirror opened)
      (later.filterMap Call.turn?) session ∧ Refines opened.env.dbs final session)
      ⟨_, .nil, mirror_refines (early_of_run run closed) opens separate⟩ ?_
    rintro later life call next ⟨session, prior, refines⟩ ⟨within, ended⟩
    obtain ⟨session', stepped, refines⟩ := refines.call separate typed within ended
    refine ⟨session', ?_, refines⟩
    have appended : (later ++ [call]).filterMap Call.turn? =
        later.filterMap Call.turn? ++ call.turn?.toList := by
      rw [List.filterMap_append]
      cases found : call.turn? <;> simp [found]
    rw [appended]
    exact prior.append stepped
  obtain ⟨session, mirrored, refines⟩ := refined
  exact ⟨session, mirrored, fun turn within => turn_rel separate typed refines within,
    fun index db listed runtime around key => refines.get separate listed runtime around key⟩

/-- A value that is put after the opening is read back, and one that was batched before it and
flushed after it is not there. -/
theorem opened_refines_level_after_early_put : ∃ life opened final session db,
    Runs (Prog.Steps (Call.perform Runtime.basic.toV8 (fun _ _ => none) ""))
      (.start (fun _ _ => none) fun _ => .finite 64)
      [.registerDb ⟨some "a", some .int32, some .int32⟩,
        .turn (.batched (.batchPut 0 (.number (.finite 1)) (.number (.finite 7))))] life ∧
    Life.openEnv "" none life = .returned opened ∧
    Runs (Prog.Steps (Call.perform Runtime.basic.toV8 (fun _ _ => none) "")) opened
      [.turn (.batched .fire), .turn (.direct 0 (.put (.number (.finite 2)) (.number (.finite 8))))]
      final ∧
    Runs (Prog.Steps (Level.turn Runtime.basic.toV8 (fun _ _ => none) (schemas opened.env.dbs)))
      (mirror opened)
      [.batched .fire, .direct 0 (.put (.number (.finite 2)) (.number (.finite 8)))] session ∧
    opened.env.dbs[0]? = some db ∧
    Level.get Runtime.basic db.schema ⟨[], []⟩ (.number (.finite 1)) (session.world.dbs 0) =
      .throws (.status "NotFound: ") ∧
    Level.get Runtime.basic db.schema ⟨[], []⟩ (.number (.finite 2)) (session.world.dbs 0) =
      .value (.number (.finite 8)) := by
  have ran : ((Prog.perform (Call.perform Runtime.basic.toV8 (fun _ _ => none) "")
      [.registerDb ⟨some "a", some .int32, some .int32⟩,
        .turn (.batched (.batchPut 0 (.number (.finite 1)) (.number (.finite 7))))]
      (.start (fun _ _ => none) fun _ => .finite 64)).bind fun life =>
        (Life.openEnv "" none life).returned?.bind fun opened =>
          (Prog.perform (Call.perform Runtime.basic.toV8 (fun _ _ => none) "")
            [.turn (.batched .fire),
              .turn (.direct 0 (.put (.number (.finite 2)) (.number (.finite 8))))] opened).map
            fun final => (life.env.dbs.map Db.name, opened.env.dbs,
              opened.env.dbs.map fun db =>
                (get Runtime.basic db ⟨[], []⟩ (.number (.finite 1)) final.contents,
                  get Runtime.basic db ⟨[], []⟩ (.number (.finite 2)) final.contents))) =
      some (["a"], [⟨"a", ⟨.int32, .int32⟩, 1, some ⟨nativeName "a", .number ⟨4, true⟩⟩⟩],
        [(.throws (.status "NotFound: "), .value (.number (.finite 8)))]) := by
    decide +kernel
  obtain ⟨life, performed, ran⟩ := Option.bind_eq_some_iff.mp ran
  obtain ⟨opened, opens, ran⟩ := Option.bind_eq_some_iff.mp ran
  obtain ⟨final, performed', ran⟩ := Option.map_eq_some_iff.mp ran
  obtain ⟨names, dbs, reads⟩ : life.env.dbs.map Db.name = ["a"] ∧
      opened.env.dbs = [⟨"a", ⟨.int32, .int32⟩, 1, some ⟨nativeName "a", .number ⟨4, true⟩⟩⟩] ∧
      opened.env.dbs.map (fun db =>
        (get Runtime.basic db ⟨[], []⟩ (.number (.finite 1)) final.contents,
          get Runtime.basic db ⟨[], []⟩ (.number (.finite 2)) final.contents)) =
        [(.throws (.status "NotFound: "), .value (.number (.finite 8)))] :=
    ⟨congrArg Prod.fst ran, congrArg (fun read => read.2.1) ran, congrArg (fun read => read.2.2) ran⟩
  have run := Prog.perform_runs (fun _ _ _ ended => ended) (.nil : Runs _ _ _ _) performed
  have opens := Outcome.eq_returned opens
  obtain ⟨middle, fired, performed'⟩ := Option.bind_eq_some_iff.mp performed'
  obtain ⟨_, put, same⟩ := Option.bind_eq_some_iff.mp performed'
  obtain rfl := Option.some.inj same
  have proper : ∀ db ∈ life.env.dbs, Proper db.name := by
    intro db member
    have named : db.name ∈ ["a"] := names ▸ List.mem_map_of_mem member
    rw [List.mem_singleton.mp named]
    unfold Proper
    decide +kernel
  have first : 0 < opened.env.dbs.length := by
    rw [dbs]
    decide
  have onward : Runs (Guarded (fun _ call => call.Within opened.env.dbs.length)
      (Prog.Steps (Call.perform Runtime.basic.toV8 (fun _ _ => none) ""))) opened
      [.turn (.batched .fire), .turn (.direct 0 (.put (.number (.finite 2)) (.number (.finite 8))))] _ :=
    .snoc (.snoc .nil ⟨trivial, fired⟩) ⟨first, put⟩
  obtain ⟨session, mirrored, -, agree⟩ := opened_refines_level run proper opens onward
  have listed : opened.env.dbs[0]? =
      some ⟨"a", ⟨.int32, .int32⟩, 1, some ⟨nativeName "a", .number ⟨4, true⟩⟩⟩ := by
    rw [dbs]
    rfl
  rw [dbs] at reads
  obtain ⟨missing, found⟩ := Prod.mk.inj (List.singleton_inj.mp reads)
  refine ⟨life, opened, _, session, _, run, opens, .snoc (.snoc .nil fired) put, mirrored, listed, ?_, ?_⟩
  · rw [← agree 0 _ listed]
    exact missing
  · rw [← agree 0 _ listed]
    exact found

end Main

end NodeKv.Rocks
