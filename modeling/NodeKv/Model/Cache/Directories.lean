import Mathlib.Data.Finset.Image
import NodeKv.Machine.Runs
import NodeKv.Model.Types

/-! # The directories of the cache

`lib/cache/env.js` keeps every generation in a numbered subdirectory of `opt.dir` and finds its
numbers again by listing them: the constructor and `_rotate` through `_openEnv`, `rmStale` on its
own. The order in which `fs.readdirSync` lists names is left open; `_.sortBy` is stable. Opening an
environment creates its directory if it is missing, and succeeds.

Numbers are doubles, so counting on from a number is exact up to 2^53 only. `used` records every
subdirectory there has been, for use in statements.
-/

namespace NodeKv.Cache.Directories

open Machine

/-- An `lmdb.Env` of the cache, by `_opt.num` and the name of its subdirectory. -/
structure Env where
  num : JsNumber
  dir : String
deriving DecidableEq, Repr

/-- `_curEnv` and `_oldEnv`. -/
structure Envs where
  cur : Env
  old : Env
deriving DecidableEq, Repr

structure State where
  /-- The subdirectories of `opt.dir`. -/
  dirs : Finset String
  /-- The environments, while the cache is open. -/
  envs : Option Envs
  used : Finset String
deriving DecidableEq

/-- Nobody has opened a cache yet; the subdirectories are numbered as given. -/
def State.start (numbers : Finset ℕ) : State where
  dirs := numbers.image toString
  envs := none
  used := numbers.image toString

/-- `mkdirp.sync`, on a subdirectory. -/
def State.mkdirp (dir : String) (state : State) : State :=
  { state with dirs := insert dir state.dirs, used := insert dir state.used }

section Calls

variable (v8 : V8)

/-- The numbered names of a listing in numeric order. -/
def sorted (listing : List String) : List String :=
  (listing.filter fun dir => (JsNumber.finite 0).lt (v8.parseInt (.text dir))).mergeSort
    fun left right => !(v8.toNumber (.text right)).lt (v8.toNumber (.text left))

/-- The text of `num + 1`. -/
def following (num : JsNumber) : String := v8.toText (.number num.plusOne)

/-- The list `dirs` of `_openEnv`. A rotation counts on from the number of `_curEnv`, unless there
is only one directory. -/
def choose (rotating : Option Env) (listing : List String) : List String :=
  let dirs := sorted v8 listing
  let dirs := if dirs.length = 0 then ["1", "2"] else dirs
  if dirs.length = 1 then dirs ++ [following v8 (v8.parseInt (.text (dirs.getLastD "")))]
  else
    match rotating with
    | some curEnv => dirs ++ [following v8 curEnv.num]
    | none => dirs

/-- The `Env` constructor. Both environments get the number of the current one. -/
def construct (listing : List String) (state : State) : State :=
  match (choose v8 none listing).reverse with
  | cur :: old :: _ =>
    let num := v8.parseInt (.text cur)
    { (state.mkdirp cur).mkdirp old with envs := some ⟨⟨num, cur⟩, ⟨num, old⟩⟩ }
  | _ => state

/-- `Env.prototype._rotate`, of an open cache. -/
def rotate (envs : Envs) (listing : List String) (state : State) : State :=
  match (choose v8 (some envs.cur) listing).reverse with
  | cur :: _ => { state.mkdirp cur with envs := some ⟨⟨v8.parseInt (.text cur), cur⟩, envs.cur⟩ }
  | _ => state

/-- `Env.prototype.rmStale`: all but the last three directories are removed. -/
def rmStale (listing : List String) (state : State) : State :=
  let dirs := sorted v8 listing
  { state with dirs := state.dirs.filter fun dir => dir ∉ dirs.take (dirs.length - 3) }

/-- `Env.prototype.close`. -/
def close (state : State) : State := { state with envs := none }

/-- What the owner of a cache does; `rmStale` may be called on a closed cache too. -/
inductive Action where
  | construct
  | rotate
  | rmStale
  | close
deriving DecidableEq, Repr

/-- What `fs.readdirSync` can answer. -/
def Lists (listing : List String) (dirs : Finset String) : Prop :=
  listing.Nodup ∧ listing.toFinset = dirs

def Step (state : State) (action : Action) (next : State) : Prop :=
  match action with
  | .construct =>
    state.envs = none ∧ ∃ listing, Lists listing state.dirs ∧ next = construct v8 listing state
  | .rotate =>
    ∃ envs listing, state.envs = some envs ∧ Lists listing state.dirs ∧
      next = rotate v8 envs listing state
  | .rmStale => ∃ listing, Lists listing state.dirs ∧ next = rmStale v8 listing state
  | .close => state.envs.isSome ∧ next = close state

end Calls

end NodeKv.Cache.Directories
