import Mathlib.Data.Rat.Defs
import Mathlib.Data.List.Infix
import Mathlib.Tactic.Linarith
import Mathlib.Tactic.NormNum

/-! # Script numbers and error messages

The batching code compares a queue length with a number that the caller chose, so a batch size is
any JavaScript number: finite (a rational), infinite, or NaN, for which every comparison fails.
Errors carry the texts of the source, because `flushBatchOps` recognises a full map by searching
the message for `MDB_MAP_FULL`.
-/

namespace NodeKv

/-- A JavaScript number; every finite double is a rational. -/
inductive JsNumber where
  | nan
  | negInfinity
  | finite (value : ℚ)
  | posInfinity
deriving DecidableEq, Repr

namespace JsNumber

/-- The comparison `length >= number`. -/
def reached (length : ℕ) : JsNumber → Bool
  | nan => false
  | negInfinity => true
  | finite value => decide (value ≤ length)
  | posInfinity => false

/-- The comparison `length > number`. -/
def exceeded (length : ℕ) : JsNumber → Bool
  | nan => false
  | negInfinity => true
  | finite value => decide (value < length)
  | posInfinity => false

/-- The comparison `left < right`. -/
def lt : JsNumber → JsNumber → Bool
  | finite left, finite right => decide (left < right)
  | negInfinity, finite _ => true
  | negInfinity, posInfinity => true
  | finite _, posInfinity => true
  | _, _ => false

/-- A natural number to 53 significant bits, ties to even. -/
def nearest (value : ℕ) : ℕ :=
  let unit := 2 ^ (value.log2 - 52)
  let kept := value / unit
  let lost := value % unit
  if 2 * lost < unit ∨ (2 * lost = unit ∧ kept % 2 = 0) then kept * unit else (kept + 1) * unit

/-- The double that a computation with a natural number as its result gives. -/
def ofNat (value : ℕ) : JsNumber :=
  if (nearest value).log2 < 1024 then finite (nearest value) else posInfinity

/-- The sum `number + 1`, of a number that is natural if it is finite. -/
def plusOne : JsNumber → JsNumber
  | finite value => ofNat (value.num.toNat + 1)
  | number => number

/-- `Math.min(number, 256)`, which propagates NaN. -/
def min256 : JsNumber → JsNumber
  | nan => nan
  | negInfinity => negInfinity
  | finite value => finite (min value 256)
  | posInfinity => finite 256

/-- A longer queue still reaches the size a shorter one has reached. -/
theorem reached_mono {short long : ℕ} (le : short ≤ long) {size : JsNumber}
    (hit : size.reached short = true) : size.reached long = true := by
  cases size with
  | nan => exact hit
  | negInfinity => rfl
  | finite value =>
    simp only [reached, decide_eq_true_eq] at hit ⊢
    have cast : (short : ℚ) ≤ (long : ℚ) := by exact_mod_cast le
    linarith
  | posInfinity => exact hit

theorem not_reached_of_le {short long : ℕ} (le : short ≤ long) {size : JsNumber}
    (missed : size.reached long = false) : size.reached short = false := by
  by_contra hit
  simp only [Bool.not_eq_false] at hit
  rw [reached_mono le hit] at missed
  contradiction

theorem reached_natCast (size length : ℕ) :
    (finite size).reached length = decide (size ≤ length) := by
  simp [reached]

theorem nearest_of_le {value : ℕ} (le : value ≤ 2 ^ 53) : nearest value = value := by
  rcases le.lt_or_eq with lt | rfl
  · have small : value.log2 - 52 = 0 := by
      rcases Nat.eq_zero_or_pos value with rfl | pos
      · rfl
      · have := (Nat.log2_lt pos.ne').mpr lt
        omega
    simp [nearest, small, Nat.mod_one]
  · decide

/-- Below 2^53 adding one is exact. -/
theorem plusOne_finite {value : ℕ} (lt : value < 2 ^ 53) :
    plusOne (finite value) = finite (value + 1 : ℕ) := by
  have exact : nearest (value + 1) = value + 1 := nearest_of_le lt
  have bound : (value + 1).log2 < 1024 := by
    have small : value + 1 < 2 ^ 54 := by omega
    exact ((Nat.log2_lt (Nat.succ_ne_zero _)).mpr small).trans (by decide)
  simp only [plusOne, Rat.num_natCast, Int.toNat_natCast, ofNat, exact, bound, ↓reduceIte]

@[simp] theorem lt_natCast (left right : ℕ) :
    lt (finite left) (finite right) = decide (left < right) := by
  simp [lt]

end JsNumber

/-- The properties that an object literal inherits; all of them are truthy. -/
def inheritedNames : List String :=
  ["constructor", "hasOwnProperty", "isPrototypeOf", "propertyIsEnumerable", "toLocaleString",
    "toString", "valueOf", "__defineGetter__", "__defineSetter__", "__lookupGetter__",
    "__lookupSetter__", "__proto__"]

/-- The test `this.dbs[name]`, for an object literal that maps names to objects. -/
def hasName (dbs : List String) (name : String) : Bool := name ∈ dbs || name ∈ inheritedNames

/-- The nonzero return codes of LMDB, and the system errors it passes on. -/
inductive Rc where
  | keyExist
  | notFound
  | pageNotFound
  | corrupted
  | panic
  | versionMismatch
  | invalid
  | mapFull
  | dbsFull
  | readersFull
  | tlsFull
  | txnFull
  | cursorFull
  | pageFull
  | mapResized
  | incompatible
  | badRslot
  | badTxn
  | badValsize
  | badDbi
  | system (text : String)
deriving DecidableEq, Repr

/-- The code returned for a missing transaction or a closed database handle. -/
def Rc.einval : Rc := .system "Invalid argument"

/-- The code returned for a write through a read-only transaction. -/
def Rc.eacces : Rc := .system "Permission denied"

/-- `mdb_strerror`. -/
def Rc.strerror : Rc → String
  | keyExist => "MDB_KEYEXIST: Key/data pair already exists"
  | notFound => "MDB_NOTFOUND: No matching key/data pair found"
  | pageNotFound => "MDB_PAGE_NOTFOUND: Requested page not found"
  | corrupted => "MDB_CORRUPTED: Located page was wrong type"
  | panic => "MDB_PANIC: Update of meta page failed"
  | versionMismatch => "MDB_VERSION_MISMATCH: Database environment version mismatch"
  | invalid => "MDB_INVALID: File is not an LMDB file"
  | mapFull => "MDB_MAP_FULL: Environment mapsize limit reached"
  | dbsFull => "MDB_DBS_FULL: Environment maxdbs limit reached"
  | readersFull => "MDB_READERS_FULL: Environment maxreaders limit reached"
  | tlsFull => "MDB_TLS_FULL: Thread-local storage keys full - too many environments open"
  | txnFull => "MDB_TXN_FULL: Transaction has too many dirty pages - transaction too big"
  | cursorFull => "MDB_CURSOR_FULL: Internal error - cursor stack limit reached"
  | pageFull => "MDB_PAGE_FULL: Internal error - page has no more space"
  | mapResized => "MDB_MAP_RESIZED: Database contents grew beyond environment mapsize"
  | incompatible => "MDB_INCOMPATIBLE: Operation and DB incompatible, or DB flags changed"
  | badRslot => "MDB_BAD_RSLOT: Invalid reuse of reader locktable slot"
  | badTxn => "MDB_BAD_TXN: Transaction cannot recover - it must be aborted"
  | badValsize => "MDB_BAD_VALSIZE: Unsupported size of key/DB name/data, or wrong DUPFIXED size"
  | badDbi => "MDB_BAD_DBI: The specified DBI handle was closed/changed unexpectedly"
  | system text => text

/-- The exceptions the modelled code throws. -/
inductive Error where
  /-- `Nan::ThrowError(mdb_strerror(rc))`. -/
  | mdb (rc : Rc)
  /-- A failed LevelDB or RocksDB status, by its text. -/
  | status (text : String)
  | txnClosed
  | txnStillOpened
  | notResettable
  | envClosed
  | syncCallback
  | shouldNotHappend
  /-- Replaying an operation that carries no cache database. -/
  | noExtra
  /-- A sanitizer's rejection, named by its data type. -/
  | invalidData (type : String)
  | nameRequired
  | alreadyOpened (name : String)
  | alreadyRegistered (name : String)
  | unsupportedTypes
deriving DecidableEq, Repr

/-- The text of an exception. -/
def Error.message : Error → String
  | mdb rc => rc.strerror
  | status text => text
  | txnClosed => "The transaction is already closed."
  | txnStillOpened => "The transaction is still opened."
  | notResettable => "Only readonly transaction can be reset."
  | envClosed => "The environment is already closed."
  | syncCallback => "LMDB env: sync Must have a callbck to sync LMDB env."
  | shouldNotHappend => "This should not happend."
  | noExtra => "Cannot read property of undefined"
  | invalidData type => type ++ ": Invalid data type."
  | nameRequired => "LMDB env: openDb requires db name."
  | alreadyOpened name => "LMDB env: db[" ++ name ++ "] is already opened."
  | alreadyRegistered name => "LMDB env: db[" ++ name ++ "] is already registered."
  | unsupportedTypes => "Unsupported db key/value types."

/-- The test `e.message.indexOf('MDB_MAP_FULL') >= 0`. -/
def Error.mentionsMapFull (error : Error) : Bool :=
  decide ("MDB_MAP_FULL".toList <:+: error.message.toList)

@[simp] theorem Error.mentionsMapFull_mapFull : (Error.mdb .mapFull).mentionsMapFull = true := by
  decide +kernel

@[simp] theorem Error.mentionsMapFull_einval : (Error.mdb .einval).mentionsMapFull = false := by
  decide +kernel

end NodeKv
