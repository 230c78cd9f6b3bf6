import NodeKv.Machine.Simulation
import NodeKv.Model.Cache.Env

/-! # The cache as a pair of generations

An environment of the cache has one of three roles: it is current, it is old, or it is gone. The
abstract machine keeps exactly the two live generations, each with its committed contents and
queue, and of the gone ones only the queues that nobody will commit. Environments are numbered in
the order they are opened, so `epoch`, the number of the old one, says which number plays which
role. `Refines` ties this machine to the environments of `NodeKv.Cache`, and `act_refines` shows
that both make the same moves and end alike, down to the exceptions and to divergence.
-/

namespace NodeKv.Cache

open Machine Lmdb

variable {D K V : Type*}

/-- A live environment: what it has committed and what it has still queued. -/
structure Generation (D K V : Type*) where
  contents : Contents D K V
  queue : List (BatchOp D K V)

/-- The two live generations and what is left of the others. -/
structure Pair (D K V : Type*) where
  /-- The number of the old environment; the current one is the next. -/
  epoch : ℕ
  cur : Generation D K V
  old : Generation D K V
  /-- Whether the old environment has been rotated out, and so got the asserting handler. -/
  asserting : Bool
  /-- Queues of the environments already closed. -/
  gone : ℕ → List (BatchOp D K V)
  timer : Option ℕ
  attempts : ℕ
  rotations : List (Rotation D K V)

namespace Generation

/-- A newly opened environment. -/
def fresh : Generation D K V := ⟨fun _ => none, []⟩

variable [DecidableEq D] [DecidableEq K]

/-- The contents once the queue is carried out. -/
def settled (gen : Generation D K V) : Contents D K V :=
  applyAll gen.contents (gen.queue.map BatchOp.exec)

/-- The generation after a successful flush. -/
def flushed (gen : Generation D K V) : Generation D K V := ⟨gen.settled, []⟩

end Generation

namespace Pair

/-- The queue of an environment, found by its role. -/
def queue (pair : Pair D K V) (env : ℕ) : List (BatchOp D K V) :=
  if env = pair.epoch + 1 then pair.cur.queue
  else if env = pair.epoch then pair.old.queue
  else pair.gone env

/-- Replace the queue of an environment. -/
def setQueue (env : ℕ) (ops : List (BatchOp D K V)) (pair : Pair D K V) : Pair D K V :=
  if env = pair.epoch + 1 then { pair with cur.queue := ops }
  else if env = pair.epoch then { pair with old.queue := ops }
  else { pair with gone := Function.update pair.gone env ops }

/-- The old generation goes, the current one becomes old, an empty one becomes current. -/
def rotate (pair : Pair D K V) : Pair D K V where
  epoch := pair.epoch + 1
  cur := .fresh
  old := pair.cur
  asserting := true
  gone := Function.update pair.gone pair.epoch pair.old.queue
  timer := pair.timer
  attempts := pair.attempts
  rotations := pair.rotations ++ [⟨pair.cur.contents, pair.cur.queue⟩]

/-- One more transaction has been attempted. -/
def attempted (pair : Pair D K V) : Pair D K V := { pair with attempts := pair.attempts + 1 }

/-- Queue an operation; a queue that reaches the batch size is flushed, else the timer is armed. -/
def push (size : JsNumber) (flush : ℕ → Prog Error (Pair D K V)) (env : ℕ) (op : BatchOp D K V) :
    Prog Error (Pair D K V) := fun pair =>
  let pair := pair.setQueue env (pair.queue env ++ [op])
  if size.reached (pair.queue env).length then flush env pair
  else .returned { pair with timer := some env }

def put (size : JsNumber) (flush : ℕ → Prog Error (Pair D K V)) (db : D) (key : K) (val : V) :
    Prog Error (Pair D K V) := fun pair =>
  push size flush (pair.epoch + 1) ⟨db, .put key val, some db⟩ pair

def del (size : JsNumber) (flush : ℕ → Prog Error (Pair D K V)) (db : D) (key : K) :
    Prog Error (Pair D K V) := fun pair =>
  Prog.seq (push size flush (pair.epoch + 1) ⟨db, .del key, some db⟩)
    (push size flush pair.epoch ⟨db, .del key, none⟩) pair

def replayOp (size : JsNumber) (flush : ℕ → Prog Error (Pair D K V)) (op : BatchOp D K V) :
    Prog Error (Pair D K V) :=
  match op.extra, op.call with
  | none, _ => .threw .noExtra
  | some db, .put key val => put size flush db key val
  | some db, .del key => del size flush db key

def flushCur (flush : ℕ → Prog Error (Pair D K V)) : Prog Error (Pair D K V) := fun pair =>
  flush (pair.epoch + 1) pair

variable [DecidableEq D] [DecidableEq K]

/-- A flush of the current environment. -/
def flushCurrent (full : Full D K V) (size : JsNumber) (flush : ℕ → Prog Error (Pair D K V)) :
    Prog Error (Pair D K V) := fun pair =>
  if pair.cur.queue.isEmpty then .returned pair
  else if full pair.attempts pair.cur.contents pair.cur.queue then
    Prog.seq
      (Prog.seq (Prog.update rotate)
        (Prog.seq (Prog.forEach (replayOp size flush) pair.cur.queue) (flushCur flush)))
      (Prog.update (setQueue (pair.epoch + 1) [])) pair.attempted
  else .returned { pair.attempted with cur := pair.cur.flushed }

/-- A flush of the old environment, which never rotates. -/
def flushOld (full : Full D K V) : Prog Error (Pair D K V) := fun pair =>
  if pair.old.queue.isEmpty then .returned pair
  else if full pair.attempts pair.old.contents pair.old.queue then
    .threw (if pair.asserting then .shouldNotHappend else .mdb .mapFull) pair.attempted
  else .returned { pair.attempted with old := pair.old.flushed }

/-- A flush of a closed environment finds its database handles gone. -/
def flushGone (env : ℕ) : Prog Error (Pair D K V) := fun pair =>
  if (pair.gone env).isEmpty then .returned pair
  else .threw (.mdb .einval) pair.attempted

def flushBody (full : Full D K V) (size : JsNumber) (flush : ℕ → Prog Error (Pair D K V))
    (env : ℕ) : Prog Error (Pair D K V) := fun pair =>
  if env = pair.epoch + 1 then flushCurrent full size flush pair
  else if env = pair.epoch then flushOld full pair
  else flushGone env pair

/-- A flush of the environment with the given number, to a nesting depth. -/
def flush (full : Full D K V) (size : JsNumber) : ℕ → ℕ → Prog Error (Pair D K V) :=
  Prog.nest (flushBody full size)

def fire (flush : ℕ → Prog Error (Pair D K V)) : Prog Error (Pair D K V) := fun pair =>
  match pair.timer with
  | none => .returned pair
  | some env => flush env { pair with timer := none }

def act (full : Full D K V) (size : JsNumber) (depth : ℕ) :
    Action D K V → Prog Error (Pair D K V)
  | .put db key val => put size (flush full size depth) db key val
  | .del db key => del size (flush full size depth) db key
  | .flushBatchOps =>
    Prog.seq (fun pair => flush full size depth pair.epoch pair) (flushCur (flush full size depth))
  | .fire => fire (flush full size depth)

/-- The pair of a cache just opened. -/
def opened (cur old : Contents D K V) : Pair D K V where
  epoch := 0
  cur := ⟨cur, []⟩
  old := ⟨old, []⟩
  asserting := false
  gone := fun _ => []
  timer := none
  attempts := 0
  rotations := []

end Pair

end NodeKv.Cache
