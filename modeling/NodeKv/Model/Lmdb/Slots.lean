import NodeKv.Machine.Slots
import NodeKv.Model.Lmdb.Turns

/-! # Handles of named databases

`Db` objects of one environment, and the handles behind them (`src/lmdb/db-lmdb.cpp`). A handle is a
number that `mdb_dbi_open` gives out: that of the slot in which the named database is open already,
else the lowest free slot. `close` frees the slot, but the object keeps the number, and its methods
go on to use it. Neither does `close` take the object out of `dbs`.

What `mdb_put` and `mdb_del` do is decided by the database that the slot holds at the time. LMDB
knows a database by the bytes of its name up to the first NUL, and in a `Store` it is the position
of this name among the names there are. Slots are counted from `CORE_DBS` on.
-/

namespace NodeKv.Lmdb.Slots

open Machine Machine.Slots

/-- What stands in an occupied slot. -/
structure Handle where
  name : Bytes
  /-- The type whose comparator orders the keys. -/
  keyCmp : DataType
  /-- The type whose comparator orders the duplicates. -/
  dupCmp : DataType
deriving DecidableEq, Repr

/-- A named database of the environment. -/
structure Named where
  name : Bytes
  /-- It has been created with `MDB_DUPSORT`. -/
  dupsort : Bool
deriving DecidableEq, Repr

/-- A `Db` object. -/
structure DbObject where
  /-- `_opt.name`, under which it is registered. -/
  name : String
  /-- `_dbi`. -/
  dbi : ℕ
  keyType : DataType
  valType : DataType
deriving DecidableEq, Repr

structure Env where
  native : Native
  named : List Named
  slots : List (Option Handle)
  maxDbs : ℕ
  /-- The objects of `dbs`, in the order they were made. -/
  dbs : List DbObject

namespace Env

variable (env : Env)

def names : List Bytes := env.named.map Named.name

/-- The position of a database in the store. -/
def position (name : Bytes) : ℕ := env.names.idxOf name

/-- What a named database contains, if it exists. -/
def contents (name : Bytes) : Option (Bytes → List Bytes) :=
  if name ∈ env.names then some (env.native.committed (env.position name)) else none

/-- The database that a handle leads to. -/
def target (handle : Handle) : Db where
  dbi := env.position handle.name
  keyType := handle.keyCmp
  valType := handle.dupCmp
  allowDup := env.named.any fun named => named.name = handle.name && named.dupsort

/-- The slot that `mdb_dbi_open` gives out for a name. -/
def slotFor (name : Bytes) : ℕ :=
  (holding (fun handle : Handle => handle.name = name) env.slots).getD (firstFree env.slots)

/-- There is no slot left for the name. -/
def full (name : Bytes) : Bool :=
  env.slotFor name = env.slots.length && env.maxDbs ≤ env.slots.length

end Env

/-- `mdb_cmp_setter`: only the number types set a comparator. -/
def setCmp (type before : DataType) : DataType :=
  match type with
  | .int32 | .uint32 | .int64 => type
  | _ => before

/-- A slot whose handle has been closed, or was never opened. -/
def Handle.blank : Handle := ⟨[], .binary, .binary⟩

/-- What an opening leaves in the slot for its name. -/
def Env.handleFor (env : Env) (name : Bytes) (allowDup : Bool) (keyType valType : DataType) :
    Handle :=
  let before := (lookup env.slots (env.slotFor name)).getD .blank
  { name := name
    keyCmp := setCmp keyType before.keyCmp
    dupCmp := if allowDup then setCmp valType before.dupCmp else before.dupCmp }

/-- `MDB_CREATE`: a database that does not exist is created, empty. -/
def create (name : Bytes) (allowDup : Bool) (env : Env) : Env :=
  if name ∈ env.names then env
  else
    { env with
      named := env.named ++ [⟨name, allowDup⟩]
      native.committed := Function.update env.native.committed env.named.length fun _ => [] }

/-- The tables when `mdb_dbi_open` and its transaction have succeeded. -/
def dbiOpen (name : Bytes) (allowDup : Bool) (keyType valType : DataType) (env : Env) : Env :=
  create name allowDup { env with
    slots := assign env.slots (env.slotFor name) (env.handleFor name allowDup keyType valType) }

/-- The codes of an opening; its second call is that of `mdb_dbi_open`. -/
def openCodes (returns : Returns) (name : Bytes) (env : Env) : Returns :=
  if env.full name then Function.update returns (env.native.calls + 1) (some .dbsFull) else returns

/-- `Env.prototype.openDb`. -/
def openDb (returns : Returns) (opt : DbOptions) (allowDup : Bool) : Prog Error Env := fun env =>
  match opt.name.filter (!·.isEmpty) with
  | none => .threw .nameRequired env
  | some name =>
    if hasName (env.dbs.map DbObject.name) name then .threw (.alreadyOpened name) env
    else
      match opt.keyType, opt.valType with
      | some keyType, some valType =>
        match dbCtor (openCodes returns (nativeName name) env) env.native with
        | (.never, _) => .diverged
        | (.throws error, native) => .threw error { env with native := native }
        | (.ok _, native) =>
          let object : DbObject := ⟨name, env.slotFor (nativeName name), keyType, valType⟩
          let env := dbiOpen (nativeName name) allowDup keyType valType { env with native := native }
          .returned { env with dbs := env.dbs ++ [object] }
      | _, _ => .threw .unsupportedTypes env

/-- `Db.prototype.close`. -/
def DbObject.close (object : DbObject) (env : Env) : Env :=
  { env with slots := release env.slots object.dbi }

/-- The codes of a write; its second call is that of `mdb_put` or `mdb_del`, and gives `EINVAL` for a
slot that is free. -/
def writeCodes (returns : Returns) (handle : Option Handle) (native : Native) : Returns :=
  if handle.isSome then returns else Function.update returns (native.calls + 1) (some .einval)

/-- `Db.prototype.put` and `Db.prototype.del` without a transaction. -/
def DbObject.write (returns : Returns) (v8 : V8) (object : DbObject) (write : Write) (env : Env) :
    Result Bool × Env :=
  match object.keyType.check v8 write.key, object.valType.check v8 write.val with
  | .error error, _ => (.throws error, env)
  | .ok _, .error error => (.throws error, env)
  | .ok key, .ok val =>
    let handle := lookup env.slots object.dbi
    let entry := write.entry (env.target (handle.getD .blank)) key.bytes val.bytes
    match writeScope (writeCodes returns handle env.native) .undefined entry env.native with
    | none => (.never, env)
    | some (rc, native) => (write.reply rc, { env with native := native })

/-- `Db.prototype.get` without a transaction. -/
def DbObject.get (returns : Returns) (v8 : V8) (object : DbObject) (key : Value) (env : Env) :
    Result (Option Bytes) × Env :=
  let handle := lookup env.slots object.dbi
  let returns :=
    if handle.isSome then returns
    else Function.update returns (requireReadlock returns env.native).calls (some .einval)
  let db := { env.target (handle.getD .blank) with keyType := object.keyType }
  let (reply, native) := dbGet returns v8 db key none env.native
  (reply, { env with native := native })

/-- The calls of a script; objects are known by their position in `dbs`. -/
inductive Action where
  | openDb (opt : DbOptions) (allowDup : Bool)
  | close (object : ℕ)
  | write (object : ℕ) (write : Write)
  | get (object : ℕ) (key : Value)
deriving DecidableEq, Repr

/-- The end of a call that gave a reply. -/
def ended {α : Type*} : Result α × Env → Outcome Error Env
  | (.ok _, env) => .returned env
  | (.throws error, env) => .threw error env
  | (.never, _) => .diverged

/-- Perform a call; there is none on an object that has not been made. -/
def act (v8 : V8) (returns : Returns) (action : Action) : Prog Error Env := fun env =>
  match action with
  | .openDb opt allowDup => openDb returns opt allowDup env
  | .close object =>
    match env.dbs[object]? with
    | none => .diverged
    | some object => .returned (object.close env)
  | .write object write =>
    match env.dbs[object]? with
    | none => .diverged
    | some object => ended (object.write returns v8 write env)
  | .get object key =>
    match env.dbs[object]? with
    | none => .diverged
    | some object => ended (object.get returns v8 key env)

/-- A completed call, with whatever codes LMDB returns in it. -/
def Step (v8 : V8) (env : Env) (action : Action) (next : Env) : Prop :=
  ∃ returns, (act v8 returns action env).state? = some next

/-- An environment just opened. -/
def start (store : Store) (named : List Named) (maxDbs : ℕ) : Env where
  native := .opened store
  named := named
  slots := []
  maxDbs := maxDbs
  dbs := []

end NodeKv.Lmdb.Slots
