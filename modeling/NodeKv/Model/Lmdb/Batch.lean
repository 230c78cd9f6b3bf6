import NodeKv.Machine.Outcome
import NodeKv.Model.Values

/-! # Batch queues of LMDB environments

The script layer of `lib/lmdb/env.js`: every environment owns a queue `_batchOps`, a batch size and
an optional `onfull` handler, and all environments share the one timer of the debounced
`_autoFlush`, whose remembered `this` is the environment that called it last. What a flush does
to the native environment is an `Engine`: one attempt to run the whole queue in a write
transaction. The engine may keep further state of its own in `host`; handlers are run by the
caller's interpretation `onfull`, which may call back into this layer.
-/

namespace NodeKv.Lmdb

open Machine

/-- What becomes of one write transaction over a queue of operations. -/
inductive TxnResult where
  /-- Every operation ran and the commit succeeded. -/
  | committed
  /-- An operation or the commit threw; the transaction is aborted. -/
  | failed (error : Error)
  /-- `beginTxn` itself threw, before the `try` block. -/
  | notBegun (error : Error)
  /-- A native call blocked forever or ended the process. -/
  | stuck
deriving DecidableEq, Repr

/-- What holds of an attempt if it commits, if it throws, and if it does not come back. -/
def TxnResult.Meets (stuck committed : Prop) (thrown : Error → Prop) : TxnResult → Prop
  | .committed => committed
  | .failed error => thrown error
  | .notBegun error => thrown error
  | .stuck => stuck

/-- All environments of the process. Environments are named by their creation number. -/
structure World (σ ω η χ : Type*) where
  /-- The native environment behind the wrapper. -/
  native : ℕ → σ
  /-- `_batchOps`. -/
  batchOps : ℕ → List ω
  /-- `_batchSize`. -/
  batchSize : ℕ → JsNumber
  /-- The handler a caller installed. -/
  onfull : ℕ → Option η
  /-- The debounce timer: while it is pending, the `this` of the last `_autoFlush` call. -/
  timer : Option ℕ
  /-- State of the engine and of the layers above. -/
  host : χ

/-- The outcome of an attempt to run a queue, with the native environment it leaves. -/
structure Attempt (σ χ : Type*) where
  result : TxnResult
  native : σ
  host : χ

/-- One attempt to run a queue against an environment. -/
abbrev Engine (σ ω χ : Type*) := χ → ℕ → σ → List ω → Attempt σ χ

variable {σ ω η χ : Type*}

namespace World

/-- Replace the queue of one environment. -/
def setOps (env : ℕ) (ops : List ω) (world : World σ ω η χ) : World σ ω η χ :=
  { world with batchOps := Function.update world.batchOps env ops }

/-- Install what an attempt left behind. -/
def after (env : ℕ) (native : σ) (host : χ) (world : World σ ω η χ) : World σ ω η χ :=
  { world with native := Function.update world.native env native, host := host }

theorem after_self (env : ℕ) (host : χ) (world : World σ ω η χ) :
    world.after env (world.native env) host = { world with host := host } := by
  rw [after, Function.update_eq_self]

end World

/-- `Env.prototype.flushBatchOps`. The queue is cleared after a commit and after a handler that
returns; every other exit leaves it alone. -/
def flushBatchOps (engine : Engine σ ω χ)
    (onfull : η → List ω → Prog Error (World σ ω η χ)) (env : ℕ) :
    Prog Error (World σ ω η χ) := fun world =>
  if (world.batchOps env).isEmpty then .returned world
  else
    let attempt := engine world.host env (world.native env) (world.batchOps env)
    let world := world.after env attempt.native attempt.host
    match attempt.result with
    | .committed => .returned (world.setOps env [])
    | .failed error =>
      match world.onfull env with
      | some handler =>
        if error.mentionsMapFull then
          Prog.seq (onfull handler (world.batchOps env)) (Prog.update (·.setOps env [])) world
        else .threw error world
      | none => .threw error world
    | .notBegun error => .threw error world
    | .stuck => .diverged

/-- `Env.prototype._autoFlush`: record the caller and re-arm the timer. -/
def autoFlush (env : ℕ) : Prog Error (World σ ω η χ) :=
  Prog.update fun world => { world with timer := some env }

/-- `Env.prototype._pushBatch`. -/
def pushBatch (flush : ℕ → Prog Error (World σ ω η χ)) (env : ℕ) (op : ω) :
    Prog Error (World σ ω η χ) := fun world =>
  let world := world.setOps env (world.batchOps env ++ [op])
  if (world.batchSize env).reached (world.batchOps env).length then flush env world
  else autoFlush env world

/-- `Env.prototype.setBatchSize` on a number. -/
def setBatchSize (flush : ℕ → Prog Error (World σ ω η χ)) (env : ℕ) (num : JsNumber) :
    Prog Error (World σ ω η χ) := fun world =>
  let world := { world with batchSize := Function.update world.batchSize env num.min256 }
  if (world.batchSize env).exceeded (world.batchOps env).length then flush env world
  else .returned world

/-- The debounce timer fires: one flush of the environment recorded last. -/
def fire (flush : ℕ → Prog Error (World σ ω η χ)) : Prog Error (World σ ω η χ) := fun world =>
  match world.timer with
  | none => .returned world
  | some env => flush env { world with timer := none }

/-- What the owners of the environments do, and the timer, whatever the engine. -/
inductive Call (ω : Type*) where
  /-- `batchPut` or `batchDel`, with sanitized arguments. -/
  | push (env : ℕ) (op : ω)
  | setBatchSize (env : ℕ) (num : JsNumber)
  | flushBatchOps (env : ℕ)
  | fire
deriving DecidableEq, Repr

def call (flush : ℕ → Prog Error (World σ ω η χ)) : Call ω → Prog Error (World σ ω η χ)
  | .push env op => pushBatch flush env op
  | .setBatchSize env num => setBatchSize flush env num
  | .flushBatchOps env => flush env
  | .fire => fire flush

section Laws

variable {engine : Engine σ ω χ} {onfull : η → List ω → Prog Error (World σ ω η χ)}
  {env : ℕ} {world : World σ ω η χ}

theorem flushBatchOps_empty (empty : world.batchOps env = []) :
    flushBatchOps engine onfull env world = .returned world := by
  simp only [flushBatchOps, empty, List.isEmpty_nil, ↓reduceIte]

theorem flushBatchOps_committed (nonempty : world.batchOps env ≠ []) {native : σ} {host : χ}
    (attempt : engine world.host env (world.native env) (world.batchOps env) =
      ⟨.committed, native, host⟩) :
    flushBatchOps engine onfull env world =
      .returned ((world.after env native host).setOps env []) := by
  simp only [flushBatchOps, List.isEmpty_iff, nonempty, ↓reduceIte, attempt]

/-- A full map hands the queue to the handler and clears it once the handler has returned. -/
theorem flushBatchOps_full (nonempty : world.batchOps env ≠ []) {native : σ} {host : χ}
    {handler : η}
    (attempt : engine world.host env (world.native env) (world.batchOps env) =
      ⟨.failed (.mdb .mapFull), native, host⟩) (installed : world.onfull env = some handler) :
    flushBatchOps engine onfull env world =
      Prog.seq (onfull handler (world.batchOps env)) (Prog.update (·.setOps env []))
        (world.after env native host) := by
  simp only [flushBatchOps, List.isEmpty_iff, nonempty, ↓reduceIte, attempt, World.after,
    installed, Error.mentionsMapFull_mapFull]

theorem flushBatchOps_other (nonempty : world.batchOps env ≠ []) {native : σ} {host : χ}
    {error : Error}
    (attempt : engine world.host env (world.native env) (world.batchOps env) =
      ⟨.failed error, native, host⟩)
    (unhandled : world.onfull env = none ∨ error.mentionsMapFull = false) :
    flushBatchOps engine onfull env world = .threw error (world.after env native host) := by
  simp only [flushBatchOps, List.isEmpty_iff, nonempty, ↓reduceIte, attempt, World.after]
  rcases unhandled with absent | other
  · simp only [absent]
  · cases world.onfull env <;> simp only [other, Bool.false_eq_true, ↓reduceIte]

theorem flushBatchOps_notBegun (nonempty : world.batchOps env ≠ []) {native : σ} {host : χ}
    {error : Error}
    (attempt : engine world.host env (world.native env) (world.batchOps env) =
      ⟨.notBegun error, native, host⟩) :
    flushBatchOps engine onfull env world = .threw error (world.after env native host) := by
  simp only [flushBatchOps, List.isEmpty_iff, nonempty, ↓reduceIte, attempt]

theorem flushBatchOps_stuck (nonempty : world.batchOps env ≠ [])
    (stuck : (engine world.host env (world.native env) (world.batchOps env)).result = .stuck) :
    flushBatchOps engine onfull env world = .diverged := by
  simp only [flushBatchOps, List.isEmpty_iff, nonempty, ↓reduceIte, stuck]

/-- The rule of a flush: what holds after it follows from what holds after the attempt, and after
the handler where there is one. -/
theorem flushBatchOps_meets {stuck : Prop} {normal : World σ ω η χ → Prop}
    {thrown : Error → World σ ω η χ → Prop} {result : TxnResult} {native : σ} {host : χ}
    (attempted : engine world.host env (world.native env) (world.batchOps env) =
      ⟨result, native, host⟩)
    (empty : world.batchOps env = [] → normal world)
    (ended : result.Meets stuck (normal ((world.after env native host).setOps env []))
      fun error => thrown error (world.after env native host))
    (handled : ∀ handler, world.onfull env = some handler →
      (onfull handler (world.batchOps env) (world.after env native host)).Meets stuck
        (fun next => normal (next.setOps env [])) thrown) :
    (flushBatchOps engine onfull env world).Meets stuck normal thrown := by
  by_cases nothing : world.batchOps env = []
  · rw [flushBatchOps_empty nothing]
    exact empty nothing
  · cases result with
    | committed =>
      rw [flushBatchOps_committed nothing attempted]
      exact ended
    | notBegun error =>
      rw [flushBatchOps_notBegun nothing attempted]
      exact ended
    | stuck =>
      rw [flushBatchOps_stuck nothing (by rw [attempted])]
      exact ended
    | failed error =>
      simp only [flushBatchOps, List.isEmpty_iff, nothing, ↓reduceIte, attempted]
      cases installed : world.onfull env with
      | none =>
        simp only [World.after, installed]
        exact ended
      | some handler =>
        have meets := handled handler installed
        simp only [World.after, installed] at meets ended ⊢
        split_ifs
        · exact Prog.seq_meets meets fun _ holds => holds
        · exact ended

end Laws

end NodeKv.Lmdb
