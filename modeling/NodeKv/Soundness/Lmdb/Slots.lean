import Mathlib.Data.List.TakeWhile
import NodeKv.Machine.Simulation
import NodeKv.Model.Lmdb.Slots
import NodeKv.Proofs.Lmdb.Writers
import NodeKv.Soundness.Codec.Integers
import NodeKv.Soundness.Lmdb.Deletes

/-! # Writes through handles of closed databases

A write through a `Db` object goes to the database that occupies its slot. It stays within the
database that the object was opened for exactly if the slot is free or holds this very database.
That is so for every object that has not been closed, as long as no object is closed twice; an
object that is used after its `close` writes into whatever database was opened next.
-/

namespace NodeKv.Lmdb

open Machine

section Store

variable {store next : Store} {db : Db} {key val : Bytes}

/-- A write changes no other database. -/
theorem Write.entry_write_frame {write : Write}
    (written : (write.entry db key val).write store = some next) {other : ℕ} (ne : other ≠ db.dbi) :
    next other = store other := by
  cases write with
  | put rawKey rawVal =>
    obtain rfl := Option.some.inj written
    exact Function.update_of_ne ne ..
  | del rawKey rawVal =>
    simp only [Write.entry, Entry.write, Store.del] at written
    split_ifs at written
    all_goals
      obtain rfl := Option.some.inj written
      exact Function.update_of_ne ne ..

/-- A value that is put is there. -/
theorem mem_insertDup_self {type : DataType} {vals : List Bytes}
    (absent : ∀ found ∈ vals, type.compare val found ≠ .eq) : val ∈ insertDup type val vals := by
  induction vals with
  | nil => exact List.mem_singleton_self val
  | cons first rest ih =>
    have later := ih fun found member => absent found (List.mem_cons_of_mem _ member)
    unfold insertDup
    cases order : type.compare val first with
    | lt => exact List.mem_cons_self ..
    | eq => exact absurd order (absent first (List.mem_cons_self ..))
    | gt =>
      dsimp only
      split_ifs
      · exact later
      · exact List.mem_cons_of_mem _ later

private theorem set_changes {vals : List Bytes} (differs : vals ≠ store db.dbi key) :
    store.set db key vals db.dbi ≠ store db.dbi := by
  intro same
  have values := congrFun same key
  rw [Store.set_self] at values
  exact differs values

/-- Putting a value or deleting it changes the database. -/
theorem exists_changing_write (store : Store) (db : Db) (key val : Bytes) (rawKey rawVal : Value) :
    ∃ write ∈ [Write.put rawKey rawVal, .del rawKey rawVal], ∃ next,
      (write.entry db key val).write store = some next ∧ next db.dbi ≠ store db.dbi := by
  -- A value that is there can be deleted, any other one added; without duplicates, every key that
  -- has a value can be deleted.
  by_cases present : store db.dbi key ≠ [] ∧
      (db.allowDup = true → ∃ found ∈ store db.dbi key, db.valType.compare val found = .eq)
  · obtain ⟨nonempty, equal⟩ := present
    have shorter : (remaining db val (store db.dbi key)).length < (store db.dbi key).length := by
      unfold remaining
      split_ifs with dup
      · obtain ⟨found, member, same⟩ := equal dup
        exact List.length_filter_lt_length_iff_exists.mpr ⟨found, member, by simpa using same⟩
      · exact List.length_pos_of_ne_nil nonempty
    refine ⟨.del rawKey rawVal, by simp, _, (Store.del_eq ..).trans (if_pos shorter), ?_⟩
    exact set_changes fun same => shorter.ne (congrArg List.length same)
  · refine ⟨.put rawKey rawVal, by simp, _, rfl, set_changes ?_⟩
    split_ifs with dup
    · intro same
      have absent (found : Bytes) (member : found ∈ store db.dbi key) :
          db.valType.compare val found ≠ .eq := by
        intro equal
        exact present ⟨List.ne_nil_of_mem member, fun _ => ⟨found, member, equal⟩⟩
      have there := mem_insertDup_self absent
      rw [same] at there
      exact absent val there (DataType.compare_self db.valType val)
    · intro same
      exact present ⟨same ▸ List.cons_ne_nil _ _, fun allowed => absurd allowed dup⟩

end Store

end NodeKv.Lmdb

namespace NodeKv.Lmdb.Slots

open Machine Machine.Slots

section Writes

variable {v8 : V8} {env : Env} {object : DbObject}

private theorem position_ne {name other : Bytes} (present : other ∈ env.names) (ne : other ≠ name) :
    env.position other ≠ env.position name :=
  fun same => ne ((List.idxOf_inj present).mp same)

/-- Only the store decides what a database contains. -/
theorem contents_of_native (native : Native) (name : Bytes) :
    Env.contents { env with native := native } name =
      if name ∈ env.names then some (native.committed (env.position name)) else none := rfl

private theorem writeScope_quiet_implicit {returns : Returns} {entry : Entry} {native next : Native}
    {rc : Option Rc} (ran : writeScope returns .undefined entry native = some (rc, next)) :
    Quiet native next :=
  writeScope_quiet returns (show writeScope returns (txnArg none) entry native = _ from ran)

/-- A write leaves the tables alone, and of the store all but the database in its slot. -/
theorem write_native (returns : Returns) (v8 : V8) (object : DbObject) (write : Write)
    (unlocked : env.native.locked = false) :
    ∃ native, (object.write returns v8 write env).2 = { env with native := native } ∧
      native.locked = false ∧
      ∀ position, (∀ handle, lookup env.slots object.dbi = some handle →
        position ≠ env.position handle.name) →
        native.committed position = env.native.committed position := by
  unfold DbObject.write
  split
  · exact ⟨env.native, rfl, unlocked, fun _ _ => rfl⟩
  · exact ⟨env.native, rfl, unlocked, fun _ _ => rfl⟩
  · next key val keyed valued =>
    simp only
    generalize codes : writeCodes returns (lookup env.slots object.dbi) env.native = returns'
    generalize aimed : write.entry (env.target ((lookup env.slots object.dbi).getD .blank))
      key.bytes val.bytes = entry
    rcases @writeScope_cases returns' env.native unlocked entry with
      ⟨rc, next, ran, committed, -⟩ | ⟨store, next, ran, -, accepted, written, effect⟩
    · have quiet : Quiet env.native next := writeScope_quiet_implicit ran
      rw [ran]
      exact ⟨next, rfl, quiet.locked.trans unlocked, fun _ _ => by rw [committed]⟩
    · have quiet : Quiet env.native next := writeScope_quiet_implicit ran
      rw [ran]
      refine ⟨next, rfl, quiet.locked.trans unlocked, ?_⟩
      intro position elsewhere
      cases occupied : lookup env.slots object.dbi with
      | none =>
        -- LMDB has answered with an error.
        rw [occupied] at codes
        simp [← codes, writeCodes] at accepted
      | some handle =>
        rw [occupied] at aimed
        subst aimed
        have kept : store position = env.native.committed position :=
          Write.entry_write_frame written (elsewhere handle occupied)
        split_ifs at effect
        · rw [(Prod.mk.inj effect).1, kept]
        · rw [(Prod.mk.inj effect).1]

/-- Every type has a value that it accepts. -/
theorem exists_check {v8 : V8} (integers : v8.KeepsIntegers) (type : DataType) :
    ∃ raw datum, type.check v8 raw = .ok datum := by
  have accepted : ∃ raw value, type.sanitize v8 raw = .ok value := by
    cases type with
    | binary => exact ⟨.buffer [0], _, rfl⟩
    | string => exact ⟨.text "", _, rfl⟩
    | hex => exact ⟨.text "0", _, if_pos (by rw [integers.texts]; decide)⟩
    | int32 =>
      refine ⟨.number (.finite (0 : ℤ)), _, if_neg ?_⟩
      rw [integers.parseInt_number 0 (by decide)]
      exact nofun
    | uint32 =>
      refine ⟨.number (.finite (0 : ℤ)), _, if_neg ?_⟩
      rw [integers.parseInt_number 0 (by decide)]
      decide
    | int64 => exact ⟨.text "0", _, if_pos (by rw [integers.texts]; decide)⟩
  obtain ⟨raw, value, accepted⟩ := accepted
  rcases type.check_cases v8 raw with ⟨error, rejected, -⟩ | ⟨datum, -, checked⟩
  · exact nomatch rejected.symm.trans accepted
  · exact ⟨raw, datum, checked⟩

/-- A write through a slot in use, with arguments that its types accept. -/
theorem write_eq (returns : Returns) {write : Write} {key : Datum v8 object.keyType}
    {val : Datum v8 object.valType} (keyed : object.keyType.check v8 write.key = .ok key)
    (valued : object.valType.check v8 write.val = .ok val) {handle : Handle}
    (occupied : lookup env.slots object.dbi = some handle) :
    object.write returns v8 write env =
      match writeScope returns .undefined (write.entry (env.target handle) key.bytes val.bytes)
        env.native with
      | none => (.never, env)
      | some (rc, native) => (write.reply rc, { env with native := native }) := by
  simp only [DbObject.write, keyed, valued, occupied, Option.getD_some]
  rfl

/-- Some write through an object changes the database in its slot. -/
theorem exists_write (integers : v8.KeepsIntegers) (unlocked : env.native.locked = false)
    {handle : Handle} (occupied : lookup env.slots object.dbi = some handle) :
    ∃ write native, object.write silent v8 write env = (.ok true, { env with native := native }) ∧
      native.committed (env.position handle.name) ≠
        env.native.committed (env.position handle.name) := by
  obtain ⟨rawKey, key, keyed⟩ := exists_check integers object.keyType
  obtain ⟨rawVal, val, valued⟩ := exists_check integers object.valType
  obtain ⟨write, one, store, written, changed⟩ := exists_changing_write env.native.committed
    (env.target handle) key.bytes val.bytes rawKey rawVal
  have arguments : write.key = rawKey ∧ write.val = rawVal := by
    rcases List.mem_pair.mp one with rfl | rfl
    · exact ⟨rfl, rfl⟩
    · exact ⟨rfl, rfl⟩
  rw [← arguments.1] at keyed
  rw [← arguments.2] at valued
  have ran := write_eq silent keyed valued occupied
  rcases @writeScope_cases silent env.native unlocked
      (write.entry (env.target handle) key.bytes val.bytes) with
    ⟨rc, next, scope, -, -, reported, -⟩ | ⟨store', next, scope, -, -, written', effect⟩
  · rcases reported rfl with failed | ⟨-, nothing, -⟩
    · cases failed
    · cases written.symm.trans nothing
  · obtain rfl := Option.some.inj (written.symm.trans written')
    refine ⟨write, next, ?_, ?_⟩
    · rw [ran, scope]
      rfl
    · rw [if_pos (show silent (env.native.calls + 2) = none from rfl)] at effect
      rw [(Prod.mk.inj effect).1]
      exact changed

/-- A call that fails, or changes nothing but the database that the object was opened for. -/
def Confined (object : DbObject) (env : Env) (ended : Result Bool × Env) : Prop :=
  (∃ error, ended.1 = .throws error) ∨
    ∀ name, name ≠ nativeName object.name → ended.2.contents name = env.contents name

private theorem confined_of_own (unlocked : env.native.locked = false)
    (own : ∀ handle, lookup env.slots object.dbi = some handle →
      handle.name = nativeName object.name) (returns : Returns) (write : Write) :
    Confined object env (object.write returns v8 write env) := by
  obtain ⟨native, after, -, kept⟩ := write_native returns v8 object write unlocked
  right
  intro name foreign
  rw [after, contents_of_native, Env.contents]
  split_ifs with present
  · refine congrArg some (kept _ ?_)
    intro handle occupied
    exact position_ne present (own handle occupied ▸ foreign)
  · rfl

/-- Writes through an object stay within its database exactly if its slot is free or holds it. -/
theorem confined_iff (integers : v8.KeepsIntegers) (unlocked : env.native.locked = false)
    (known : ∀ handle, lookup env.slots object.dbi = some handle → handle.name ∈ env.names) :
    (∀ returns write, Confined object env (object.write returns v8 write env)) ↔
      ∀ handle, lookup env.slots object.dbi = some handle → handle.name = nativeName object.name := by
  constructor
  · intro confined handle occupied
    by_contra foreign
    obtain ⟨write, native, ran, changed⟩ := exists_write integers unlocked occupied
    rcases confined silent write with ⟨error, threw⟩ | same
    · rw [ran] at threw
      exact nomatch threw
    · have kept := same handle.name foreign
      have present := known handle occupied
      rw [ran, contents_of_native, Env.contents, if_pos present, if_pos present,
        Option.some_inj] at kept
      exact changed kept
  · exact confined_of_own unlocked

end Writes

section Runs

variable {v8 : V8} {env next : Env}

/-- Between calls no transaction is open, and the slots hold databases that exist. -/
structure Tidy (env : Env) : Prop where
  unlocked : env.native.locked = false
  known : ∀ index handle, lookup env.slots index = some handle → handle.name ∈ env.names

private theorem slotFor_le (env : Env) (name : Bytes) : env.slotFor name ≤ env.slots.length := by
  unfold Env.slotFor
  cases held : holding (fun handle : Handle => decide (handle.name = name)) env.slots with
  | none => exact firstFree_le _
  | some index => exact (lookup_holding held).1.le

/-- The slot for a name is free or holds the database of this name. -/
theorem name_of_slotFor {name : Bytes} {handle : Handle}
    (occupied : lookup env.slots (env.slotFor name) = some handle) : handle.name = name := by
  unfold Env.slotFor at occupied
  cases held : holding (fun handle : Handle => decide (handle.name = name)) env.slots with
  | none =>
    rw [held, Option.getD_none, lookup_firstFree] at occupied
    exact nomatch occupied
  | some index =>
    obtain ⟨-, occupant, found, named⟩ := lookup_holding held
    rw [held, Option.getD_some, found, Option.some_inj] at occupied
    exact occupied ▸ of_decide_eq_true named

/-- The tables after a database has been opened. -/
structure Opens (name : String) (object : DbObject) (before after : Env) : Prop where
  fresh : hasName (before.dbs.map DbObject.name) name = false
  called : object.name = name
  dbs : after.dbs = before.dbs ++ [object]
  own : ∃ handle, lookup after.slots object.dbi = some handle ∧ handle.name = nativeName name
  taken : ∀ handle, lookup before.slots object.dbi = some handle → handle.name = nativeName name
  others : ∀ index, index ≠ object.dbi → lookup after.slots index = lookup before.slots index
  names : ∀ other, other ∈ after.names ↔ other = nativeName name ∨ other ∈ before.names

/-- The native side without what the databases contain. -/
def bare (native : Native) : Native := { native with committed := fun _ _ => [] }

/-- Opening a database does not look into the databases. -/
theorem dbCtor_bare (returns : Returns) (native : Native) :
    dbCtor returns (bare native) =
      ((dbCtor returns native).1, bare (dbCtor returns native).2) := by
  cases begins : returns native.calls with
  | some rc => simp [dbCtor, beginWrite, bare, Native.called, begins]
  | none =>
    cases locked : native.locked with
    | true => simp [dbCtor, beginWrite, bare, begins, locked]
    | false =>
      cases opens : returns (native.calls + 1) with
      | some rc => simp [dbCtor, beginWrite, bare, Native.called, mdbAbort, begins, locked, opens]
      | none =>
        cases commits : returns (native.calls + 2) <;>
          simp [dbCtor, beginWrite, bare, Native.called, mdbCommit, begins, locked, opens, commits]

section Create

variable (name : Bytes) (allowDup : Bool) (env : Env)

@[simp] theorem create_slots : (create name allowDup env).slots = env.slots := by
  unfold create
  split_ifs <;> rfl

@[simp] theorem create_dbs : (create name allowDup env).dbs = env.dbs := by
  unfold create
  split_ifs <;> rfl

@[simp] theorem create_locked :
    (create name allowDup env).native.locked = env.native.locked := by
  unfold create
  split_ifs <;> rfl

@[simp] theorem bare_create :
    bare (create name allowDup env).native = bare env.native := by
  unfold create
  split_ifs <;> rfl

private theorem mem_names_create (other : Bytes) :
    other ∈ (create name allowDup env).names ↔ other = name ∨ other ∈ env.names := by
  unfold create
  split_ifs with present
  · constructor
    · exact .inr
    · rintro (rfl | member)
      · exact present
      · exact member
  · simp [Env.names, or_comm]

end Create

/-- An opening changes the native side only, or takes the slot for its name. -/
theorem openDb_cases {returns : Returns} {opt : DbOptions} {allowDup : Bool}
    (unlocked : env.native.locked = false)
    (ended : (openDb returns opt allowDup env).state? = some next) :
    next.native.locked = false ∧
      ((next.slots = env.slots ∧ next.named = env.named ∧ next.dbs = env.dbs) ∨
        ∃ name object, opt.name = some name ∧ Opens name object env next) := by
  have unchanged (same : some env = some next) : next.native.locked = false ∧
      ((next.slots = env.slots ∧ next.named = env.named ∧ next.dbs = env.dbs) ∨
        ∃ name object, opt.name = some name ∧ Opens name object env next) := by
    obtain rfl := Option.some.inj same
    exact ⟨unlocked, .inl ⟨rfl, rfl, rfl⟩⟩
  unfold openDb at ended
  split at ended
  · exact unchanged ended
  · next name given =>
    split_ifs at ended with taken
    · exact unchanged ended
    · split at ended
      · next keyType valType _ _ =>
        simp only at ended
        generalize openCodes returns (nativeName name) env = codes at ended
        have quiet := dbCtor_quiet codes env.native
        split at ended
        · exact nomatch ended
        · next error native ran =>
          rw [ran] at quiet
          obtain rfl := Option.some.inj ended
          exact ⟨quiet.locked.trans unlocked, .inl ⟨rfl, rfl, rfl⟩⟩
        · next native ran =>
          rw [ran] at quiet
          obtain rfl := Option.some.inj ended
          have within := slotFor_le env (nativeName name)
          refine ⟨by simpa [dbiOpen] using quiet.locked.trans unlocked,
            .inr ⟨name, ⟨name, env.slotFor (nativeName name), keyType, valType⟩, ?_, ?_⟩⟩
          · exact (Option.filter_eq_some_iff.mp given).1
          · constructor
            case fresh => exact Bool.eq_false_iff.mpr taken
            case called => rfl
            case dbs => simp [dbiOpen]
            case own =>
              simp only [dbiOpen, create_slots]
              exact ⟨_, lookup_assign_self within _, rfl⟩
            case taken => exact fun handle occupied => name_of_slotFor occupied
            case others =>
              intro index ne
              simp only [dbiOpen, create_slots]
              exact lookup_assign_of_ne within _ ne
            case names => exact mem_names_create (nativeName name) allowDup _
      · exact unchanged ended

section Registry

/-- The environment with number 0 in `Turns`, where databases are known by their names alone. -/
structure Registers (env : Env) (state : Turns.State v8) : Prop where
  dbs : state.dbs 0 = (env.dbs.map DbObject.name).reverse
  native : bare (state.world.native 0) = bare env.native

/-- An opening ends as it does there, with the code for a full table. -/
theorem openDb_registers {state : Turns.State v8}
    (registers : Registers env state) (returns : Returns) (opt : DbOptions) (allowDup : Bool) :
    Outcome.Rel Registers (openDb returns opt allowDup env)
      (Turns.openDb (opt.name.elim returns fun name => openCodes returns (nativeName name) env) 0 opt
        state) := by
  unfold openDb Turns.openDb
  cases given : opt.name with
  | none => exact .threw _ registers
  | some name =>
    cases named : (some name).filter (!·.isEmpty) with
    | none => exact .threw _ registers
    | some filtered =>
      obtain rfl : name = filtered := Option.some.inj (Option.filter_eq_some_iff.mp named).1
      have known : hasName (state.dbs 0) name = hasName (env.dbs.map DbObject.name) name := by
        simp [hasName, registers.dbs]
      simp only [known, Option.elim_some]
      split_ifs with taken
      · exact .threw _ registers
      · generalize openCodes returns (nativeName name) env = codes
        have same : dbCtor codes (bare (state.world.native 0)) = dbCtor codes (bare env.native) := by
          rw [registers.native]
        rw [dbCtor_bare, dbCtor_bare, Prod.mk.injEq] at same
        obtain ⟨reply, native⟩ := same
        cases opt.keyType with
        | none => exact .threw _ registers
        | some keyType =>
          cases opt.valType with
          | none => exact .threw _ registers
          | some valType =>
            simp only
            rcases ran : dbCtor codes env.native with ⟨answer, after⟩
            rcases ran' : dbCtor codes (state.world.native 0) with ⟨answer', after'⟩
            rw [ran, ran'] at reply native
            simp only at reply native
            subst reply
            cases answer' with
            | never => exact .diverged
            | throws error =>
              refine .threw error ⟨registers.dbs, ?_⟩
              simpa [Turns.State.setNative] using native
            | ok _ =>
              refine .returned ⟨?_, ?_⟩
              · simp [dbiOpen, registers.dbs]
              · simpa [Turns.State.setNative, dbiOpen] using native
end Registry

/-- The object that a call closes. -/
def Action.closed? : Action → Option ℕ
  | .close index => some index
  | _ => none

/-- What a call does to the tables. -/
inductive Moves (env : Env) : Action → Env → Prop where
  | unchanged {action : Action} {next : Env} (slots : next.slots = env.slots)
      (named : next.named = env.named) (dbs : next.dbs = env.dbs)
      (quiet : action.closed? = none) : Moves env action next
  | opened {opt : DbOptions} {allowDup : Bool} {name : String} {object : DbObject} {next : Env}
      (given : opt.name = some name) (opens : Opens name object env next) :
      Moves env (.openDb opt allowDup) next
  | closed {index : ℕ} {object : DbObject} (made : env.dbs[index]? = some object) :
      Moves env (.close index) (object.close env)

private theorem eq_of_ended {α : Type*} {ran : Result α × Env}
    (left : (ended ran).state? = some next) :
    next = ran.2 := by
  obtain ⟨reply, after⟩ := ran
  cases reply with
  | ok val => exact (Option.some.inj left).symm
  | throws error => exact (Option.some.inj left).symm
  | never => exact nomatch left

private theorem step_moves {action : Action} (unlocked : env.native.locked = false)
    (stepped : Step v8 env action next) : next.native.locked = false ∧ Moves env action next := by
  obtain ⟨returns, left⟩ := stepped
  cases action with
  | openDb opt allowDup =>
    obtain ⟨unlocked', ⟨slots, named, dbs⟩ | ⟨name, object, given, opens⟩⟩ :=
      openDb_cases unlocked left
    · exact ⟨unlocked', .unchanged slots named dbs rfl⟩
    · exact ⟨unlocked', .opened given opens⟩
  | close index =>
    simp only [act] at left
    split at left
    · exact nomatch left
    · next object made =>
      obtain rfl := Option.some.inj left
      exact ⟨unlocked, .closed made⟩
  | write index write =>
    simp only [act] at left
    split at left
    · exact nomatch left
    · next object made =>
      obtain ⟨native, after, unlocked', -⟩ := write_native returns v8 object write unlocked
      obtain rfl := (eq_of_ended left).trans after
      exact ⟨unlocked', .unchanged rfl rfl rfl rfl⟩
  | get index key =>
    simp only [act] at left
    split at left
    · exact nomatch left
    · next object made =>
      obtain rfl := eq_of_ended left
      refine ⟨?_, .unchanged rfl rfl rfl rfl⟩
      exact (dbGet_quiet ..).locked.trans unlocked

theorem Moves.tidy {action : Action} (moves : Moves env action next) (tidy : Tidy env)
    (unlocked : next.native.locked = false) : Tidy next := by
  refine ⟨unlocked, ?_⟩
  intro index handle occupied
  cases moves with
  | unchanged slots named dbs quiet =>
    rw [Env.names, named]
    exact tidy.known index handle (slots ▸ occupied)
  | opened given opens =>
    rename_i object
    rw [opens.names]
    rcases eq_or_ne index object.dbi with rfl | ne
    · obtain ⟨own, found, named⟩ := opens.own
      rw [found, Option.some_inj] at occupied
      exact .inl (occupied ▸ named)
    · exact .inr (tidy.known index handle (opens.others index ne ▸ occupied))
  | closed made =>
    rename_i closing object
    rcases eq_or_ne index object.dbi with rfl | ne
    · rw [DbObject.close, lookup_release_self] at occupied
      exact nomatch occupied
    · exact tidy.known index handle (lookup_release_of_ne env.slots ne ▸ occupied)

private theorem tidy_of_run {store : Store} {named : List Named} {maxDbs : ℕ}
    {actions : List Action}
    (run : Runs (Step v8) (start store named maxDbs) actions env) : Tidy env := by
  refine run.preserves (fun _ env => Tidy env) ⟨rfl, ?_⟩ ?_
  · intro index handle occupied
    exact nomatch occupied
  · intro actions env action next tidy stepped
    obtain ⟨unlocked, moves⟩ := step_moves tidy.unlocked stepped
    exact moves.tidy tidy unlocked

/-- Names without NUL are told apart by LMDB. -/
theorem nativeName_inj {name other : String} (plain : '\x00' ∉ name.toList)
    (plain' : '\x00' ∉ other.toList) (same : nativeName name = nativeName other) : name = other := by
  have whole (text : String) (plain : '\x00' ∉ text.toList) :
      nativeName text = text.toUTF8.toList := by
    rw [nativeName_eq_iff, utf8_toList]
    intro member
    obtain ⟨char, found, encoded⟩ := List.mem_flatMap.mp member
    exact plain (zero_mem_utf8EncodeChar encoded ▸ found)
  rw [whole name plain, whole other plain'] at same
  exact toUTF8_toList_injective same

/-- No object is closed twice, and no name contains a NUL. -/
structure Careful (actions : List Action) : Prop where
  once : (actions.filterMap Action.closed?).Nodup
  plain : ∀ opt allowDup, Action.openDb opt allowDup ∈ actions → ∀ name, opt.name = some name →
    '\x00' ∉ name.toList

/-- The objects that have not been closed own their slots. -/
structure Owned (closed : List ℕ) (env : Env) : Prop where
  own : ∀ index object, env.dbs[index]? = some object → index ∉ closed →
    ∃ handle, lookup env.slots object.dbi = some handle ∧ handle.name = nativeName object.name
  distinct : (env.dbs.map DbObject.name).Nodup
  plain : ∀ object ∈ env.dbs, '\x00' ∉ object.name.toList

namespace Owned

variable {closed : List ℕ} {index other : ℕ} {object object' : DbObject}

/-- Different objects have different slots. -/
theorem dbi_ne (owned : Owned closed env) (made : env.dbs[index]? = some object)
    (made' : env.dbs[other]? = some object') (unclosed : index ∉ closed) (unclosed' : other ∉ closed)
    (ne : index ≠ other) : object.dbi ≠ object'.dbi := by
  intro shared
  obtain ⟨handle, occupied, named⟩ := owned.own index object made unclosed
  obtain ⟨handle', occupied', named'⟩ := owned.own other object' made' unclosed'
  rw [shared, occupied', Option.some_inj] at occupied
  subst occupied
  have names : object.name = object'.name :=
    nativeName_inj (owned.plain object (List.mem_of_getElem? made))
      (owned.plain object' (List.mem_of_getElem? made')) (named.symm.trans named')
  apply ne
  have inside : index < (env.dbs.map DbObject.name).length := by
    rw [List.length_map]
    exact (List.getElem?_eq_some_iff.mp made).1
  refine (List.getElem?_inj inside owned.distinct).mp ?_
  rw [List.getElem?_map, List.getElem?_map, made, made', Option.map_some, Option.map_some, names]

theorem opened {name : String} (owned : Owned closed env) (opens : Opens name object env next)
    (plain : '\x00' ∉ name.toList) : Owned closed next := by
  have fresh : ∀ other ∈ env.dbs, other.name ≠ name := by
    intro other member same
    have taken : hasName (env.dbs.map DbObject.name) name = true := by
      simpa [hasName] using Or.inl ⟨other, member, same⟩
    cases opens.fresh.symm.trans taken
  refine ⟨?_, ?_, ?_⟩
  · intro index found made unclosed
    rw [opens.dbs, List.getElem?_append] at made
    split_ifs at made with inside
    · -- The slot was free, or held a database that no other object was opened for.
      obtain ⟨handle, occupied, named⟩ := owned.own index found made unclosed
      have member := List.mem_of_getElem? made
      refine ⟨handle, (opens.others _ ?_).trans occupied, named⟩
      intro shared
      apply fresh found member
      apply nativeName_inj (owned.plain found member) plain
      exact named.symm.trans (opens.taken handle (shared ▸ occupied))
    · obtain rfl := List.mem_singleton.mp (List.mem_of_getElem? made)
      obtain ⟨handle, occupied, named⟩ := opens.own
      exact ⟨handle, occupied, named.trans (by rw [opens.called])⟩
  · rw [opens.dbs, List.map_append, List.nodup_append]
    refine ⟨owned.distinct, by simp, ?_⟩
    intro before member after added
    obtain ⟨other, present, rfl⟩ := List.mem_map.mp member
    rw [List.mem_singleton.mp added, opens.called]
    exact fresh other present
  · intro made member
    rw [opens.dbs] at member
    rcases List.mem_append.mp member with old | new
    · exact owned.plain made old
    · rw [List.mem_singleton.mp new, opens.called]
      exact plain

theorem close (owned : Owned closed env) (made : env.dbs[index]? = some object)
    (once : index ∉ closed) : Owned (closed ++ [index]) (object.close env) := by
  refine ⟨?_, owned.distinct, owned.plain⟩
  intro other object' made' unclosed
  obtain ⟨before, ne⟩ : other ∉ closed ∧ other ≠ index := by simpa using unclosed
  obtain ⟨handle, occupied, named⟩ := owned.own other object' made' before
  exact ⟨handle, (lookup_release_of_ne _ (owned.dbi_ne made' made before once ne)).trans occupied,
    named⟩

end Owned

theorem Moves.owned {action : Action} {closed : List ℕ} (moves : Moves env action next)
    (owned : Owned closed env) (once : ∀ index, action.closed? = some index → index ∉ closed)
    (plain : ∀ opt allowDup, action = .openDb opt allowDup → ∀ name, opt.name = some name →
      '\x00' ∉ name.toList) : Owned (closed ++ action.closed?.toList) next := by
  cases moves with
  | unchanged slots named dbs quiet =>
    rw [quiet, Option.toList_none, List.append_nil]
    constructor
    · rw [dbs, slots]
      exact owned.own
    · rw [dbs]
      exact owned.distinct
    · rw [dbs]
      exact owned.plain
  | opened given opens =>
    simp only [Action.closed?, Option.toList_none, List.append_nil]
    exact owned.opened opens (plain _ _ rfl _ given)
  | closed made => exact owned.close made (once _ rfl)

theorem Careful.init {actions : List Action} {action : Action}
    (careful : Careful (actions ++ [action])) : Careful actions where
  once := by
    have once := careful.once
    rw [List.filterMap_append, List.nodup_append] at once
    exact once.1
  plain opt allowDup member := careful.plain opt allowDup (List.mem_append_left _ member)

/-- If no object is closed twice, those that have not been closed own their slots. -/
theorem owned_of_run {store : Store} {named : List Named} {maxDbs : ℕ} {actions : List Action}
    (run : Runs (Step v8) (start store named maxDbs) actions env) (careful : Careful actions) :
    Owned (actions.filterMap Action.closed?) env := by
  induction run with
  | nil => exact ⟨nofun, .nil, nofun⟩
  | @snoc actions env next action prior stepped ih =>
    have last : [action].filterMap Action.closed? = action.closed?.toList := by
      cases closes : action.closed? with
      | none => exact List.filterMap_cons_none closes
      | some index => exact List.filterMap_cons_some closes
    have once := careful.once
    rw [List.filterMap_append, List.nodup_append, last] at once
    rw [List.filterMap_append, last]
    refine (step_moves (tidy_of_run prior).unlocked stepped).2.owned (ih careful.init) ?_ ?_
    · intro index closes member
      exact once.2.2 index member index (Option.mem_toList.mpr closes) rfl
    · intro opt allowDup opens
      exact careful.plain opt allowDup (by simp [opens])

/-- After any calls, writes through an object stay within its database exactly if its slot is free
or holds this database. An object that has not been closed is in this position if no object has been
closed twice. -/
theorem handle_confined_iff {store : Store} {named : List Named} {maxDbs : ℕ}
    {actions : List Action} {index : ℕ} {object : DbObject} (integers : v8.KeepsIntegers)
    (run : Runs (Step v8) (start store named maxDbs) actions env)
    (made : env.dbs[index]? = some object) :
    ((∀ returns write, Confined object env (object.write returns v8 write env)) ↔
      ∀ handle, lookup env.slots object.dbi = some handle → handle.name = nativeName object.name) ∧
    (Careful actions → index ∉ actions.filterMap Action.closed? →
      ∀ returns write, Confined object env (object.write returns v8 write env)) := by
  have tidy := tidy_of_run run
  refine ⟨confined_iff integers tidy.unlocked (tidy.known object.dbi), ?_⟩
  intro careful unclosed
  refine confined_of_own tidy.unlocked ?_
  intro handle occupied
  obtain ⟨own, found, named⟩ := (owned_of_run run careful).own index object made unclosed
  rw [found, Option.some_inj] at occupied
  exact occupied ▸ named

private theorem performed_runs {before : Env} {actions : List Action}
    (performed : Prog.perform (act v8 silent) actions before = some env) :
    Runs (Step v8) before actions env :=
  Prog.perform_runs (fun _ _ _ left => ⟨silent, left⟩) .nil performed

/-- The options of a database of 32-bit integers. -/
def intDb (name : String) : DbOptions := ⟨some name, some .int32, some .int32⟩

/-- Three databases, of which the first one is closed before the last one is opened in its slot. -/
theorem handle_confined_of_open : ∃ env : Env, ∃ second third : DbObject,
    Runs (Step Runtime.decimal.toV8) (start (fun _ _ => []) [] 32)
      [.openDb (intDb "a") false, .openDb (intDb "b") false, .close 0, .openDb (intDb "c") false] env ∧
    env.dbs[1]? = some second ∧ env.dbs[2]? = some third ∧
    (∀ returns write, Confined second env (second.write returns Runtime.decimal.toV8 write env)) ∧
    ∀ returns write, Confined third env (third.write returns Runtime.decimal.toV8 write env) := by
  have performed : ((Prog.perform (act Runtime.decimal.toV8 silent)
      [.openDb (intDb "a") false, .openDb (intDb "b") false, .close 0, .openDb (intDb "c") false]
      (start (fun _ _ => []) [] 32)).any fun env => env.dbs[1]?.isSome && env.dbs[2]?.isSome) = true := by
    decide +kernel
  obtain ⟨env, ran, made⟩ := (Option.any_eq_true ..).mp performed
  obtain ⟨made, made'⟩ := (Bool.and_eq_true ..).mp made
  obtain ⟨second, made⟩ := Option.isSome_iff_exists.mp made
  obtain ⟨third, made'⟩ := Option.isSome_iff_exists.mp made'
  have run := performed_runs ran
  have careful : Careful [.openDb (intDb "a") false, .openDb (intDb "b") false, .close 0,
      .openDb (intDb "c") false] := by
    refine ⟨by decide, ?_⟩
    intro opt allowDup member name given
    simp only [List.mem_cons, Action.openDb.injEq, reduceCtorEq, List.not_mem_nil, or_false,
      false_or] at member
    rcases member with ⟨rfl, -⟩ | ⟨rfl, -⟩ | ⟨rfl, -⟩ <;> obtain rfl := Option.some.inj given <;> decide
  exact ⟨env, second, third, run, made, made',
    (handle_confined_iff Runtime.decimal_keepsIntegers run made).2 careful (by decide),
    (handle_confined_iff Runtime.decimal_keepsIntegers run made').2 careful (by decide)⟩

/-- An object that has been closed writes into the database that was opened next. -/
theorem closed_handle_writes_elsewhere : ∃ env after : Env, ∃ object : DbObject,
    Runs (Step Runtime.decimal.toV8) (start (fun _ _ => []) [] 32)
      [.openDb (intDb "a") false, .close 0, .openDb (intDb "b") false] env ∧
    env.dbs[0]? = some object ∧ object.name = "a" ∧
    object.write silent Runtime.decimal.toV8 (.put (.number (.finite 1)) (.number (.finite 7))) env =
      (.ok true, after) ∧
    (env.contents (nativeName "b")).map (· [1, 0, 0, 0]) = some [] ∧
    (after.contents (nativeName "b")).map (· [1, 0, 0, 0]) = some [[7, 0, 0, 0]] := by
  have computed : ((Prog.perform (act Runtime.decimal.toV8 silent)
      [.openDb (intDb "a") false, .close 0, .openDb (intDb "b") false]
      (start (fun _ _ => []) [] 32)).any fun env => env.dbs[0]?.any fun object =>
        let ran := object.write silent Runtime.decimal.toV8
          (.put (.number (.finite 1)) (.number (.finite 7))) env
        decide (object.name = "a" ∧ ran.1 = .ok true ∧
          (env.contents (nativeName "b")).map (· [1, 0, 0, 0]) = some [] ∧
          (ran.2.contents (nativeName "b")).map (· [1, 0, 0, 0]) = some [[7, 0, 0, 0]])) = true := by
    decide +kernel
  obtain ⟨env, ran, computed⟩ := (Option.any_eq_true ..).mp computed
  obtain ⟨object, made, computed⟩ := (Option.any_eq_true ..).mp computed
  obtain ⟨called, reply, before, after⟩ := of_decide_eq_true computed
  exact ⟨env, _, object, performed_runs ran, made, called, Prod.ext reply rfl, before, after⟩

end Runs

end NodeKv.Lmdb.Slots
