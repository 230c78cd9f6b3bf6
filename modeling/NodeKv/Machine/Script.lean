import NodeKv.Machine.Runs

/-! # Scripts that share memory with a component

A client calls a component and, between its calls, changes memory that it has passed to the
component. A call is stamped with the memory at its time. A component that reads its arguments in the
call itself goes through the stamped calls, whatever the client does to the memory later.
-/

namespace NodeKv.Machine

/-- A step of the client. -/
inductive Script (α δ : Type*) where
  | call (call : α)
  | change (change : δ)
deriving DecidableEq, Repr

namespace Script

variable {α β δ μ σ : Type*} (apply : δ → μ → μ)

/-- The memory after a step. -/
def memory (before : μ) : Script α δ → μ
  | call _ => before
  | change made => apply made before

/-- The memory after a script. -/
def after (before : μ) (script : List (Script α δ)) : μ := script.foldl (memory apply) before

/-- The call that a step is, with the memory at its time. -/
def stamp (before : μ) : Script α δ → List (α × μ)
  | call made => [(made, before)]
  | change _ => []

/-- The calls of a script, with the memory at their times. -/
def stamped : μ → List (Script α δ) → List (α × μ)
  | _, [] => []
  | before, step :: rest => step.stamp before ++ stamped (step.memory apply before) rest

theorem after_snoc (before : μ) (script : List (Script α δ)) (step : Script α δ) :
    after apply before (script ++ [step]) = step.memory apply (after apply before script) :=
  List.foldl_append ..

theorem stamped_snoc (before : μ) (script : List (Script α δ)) (step : Script α δ) :
    stamped apply before (script ++ [step]) =
      stamped apply before script ++ step.stamp (after apply before script) := by
  induction script generalizing before with
  | nil => exact List.append_nil _
  | cons first rest ih =>
    rw [List.cons_append, stamped, ih, stamped, List.append_assoc]
    rfl

/-- The steps of a component that reads the arguments of a call in the call. -/
def Reading (step : σ → β → σ → Prop) (read : μ → α → β) (state : σ × μ) (item : Script α δ)
    (next : σ × μ) : Prop :=
  next.2 = item.memory apply state.2 ∧
    match item with
    | .call made => step state.1 (read state.2 made) next.1
    | .change _ => next.1 = state.1

/-- Such a component takes the steps of the calls as they were made. -/
theorem runs_of_reading {step : σ → β → σ → Prop} {read : μ → α → β} {start : σ × μ}
    {script : List (Script α δ)} {state : σ × μ}
    (run : Runs (Reading apply step read) start script state) :
    state.2 = after apply start.2 script ∧
      Runs step start.1 ((stamped apply start.2 script).map fun made => read made.2 made.1)
        state.1 := by
  refine run.preserves (fun script state => state.2 = after apply start.2 script ∧
    Runs step start.1 ((stamped apply start.2 script).map fun made => read made.2 made.1) state.1)
    ⟨rfl, .nil⟩ ?_
  rintro script state item next ⟨same, sofar⟩ ⟨changed, stepped⟩
  rw [after_snoc, stamped_snoc, List.map_append, ← same]
  refine ⟨changed, ?_⟩
  cases item with
  | call made => exact .snoc sofar stepped
  | change made =>
    rw [stepped, stamp, List.map_nil, List.append_nil]
    exact sofar

end Script

end NodeKv.Machine
