import NodeKv.Machine.Outcome

/-! # Finite runs

A run takes labelled steps one after the other. Properties of runs are proved by the one
induction here, over the last step. Programs give steps: a labelled family of calls on a shared
state steps to whatever state a call leaves, whether it returns or throws, because the caller may
catch the exception and go on. `perform` computes such runs.
-/

namespace NodeKv.Machine

variable {ε σ α : Type*}

/-- The states a system can reach, with the labels of the steps taken. -/
inductive Runs (step : σ → α → σ → Prop) (start : σ) : List α → σ → Prop
  | nil : Runs step start [] start
  | snoc {labels : List α} {state next : σ} {label : α} (prior : Runs step start labels state)
      (stepped : step state label next) : Runs step start (labels ++ [label]) next

/-- The steps that are taken from a state of a given kind. -/
def Guarded (guard : σ → α → Prop) (step : σ → α → σ → Prop) (state : σ) (label : α) (next : σ) :
    Prop :=
  guard state label ∧ step state label next

namespace Runs

variable {step step' : σ → α → σ → Prop} {start state : σ} {labels : List α}

/-- What holds at the start and is kept by every step holds along every run. -/
theorem preserves (run : Runs step start labels state) (property : List α → σ → Prop)
    (initial : property [] start)
    (kept : ∀ labels state label next, property labels state → step state label next →
      property (labels ++ [label]) next) : property labels state := by
  induction run with
  | nil => exact initial
  | snoc prior stepped ih => exact kept _ _ _ _ ih stepped

theorem append (run : Runs step start labels state) {more : List α} {next : σ}
    (onward : Runs step state more next) : Runs step start (labels ++ more) next := by
  induction onward with
  | nil => rwa [List.append_nil]
  | snoc prior stepped ih =>
    rw [← List.append_assoc]
    exact .snoc ih stepped

theorem mono (run : Runs step start labels state)
    (weaker : ∀ state label next, step state label next → step' state label next) :
    Runs step' start labels state := by
  induction run with
  | nil => exact .nil
  | snoc prior stepped ih => exact .snoc ih (weaker _ _ _ stepped)

/-- A run whose steps have related steps elsewhere has a related run there. -/
theorem simulate {τ : Type*} {step' : τ → α → τ → Prop} {start' : τ} {related : σ → τ → Prop}
    {allowed : α → Prop} (initial : related start start')
    (steps : ∀ state state' label next, related state state' → allowed label →
      step state label next → ∃ next', step' state' label next' ∧ related next next')
    (run : Runs step start labels state) (within : ∀ label ∈ labels, allowed label) :
    ∃ state', Runs step' start' labels state' ∧ related state state' := by
  induction run with
  | nil => exact ⟨start', .nil, initial⟩
  | @snoc labels state next label prior stepped ih =>
    obtain ⟨state', run', states⟩ := ih fun other member =>
      within other (List.mem_append_left _ member)
    obtain ⟨next', stepped', states⟩ := steps state state' label next states
      (within label (List.mem_append_right _ (List.mem_singleton_self label))) stepped
    exact ⟨next', .snoc run' stepped', states⟩

end Runs

namespace Prog

/-- The steps of a labelled family of programs. -/
def Steps (act : α → Prog ε σ) (state : σ) (label : α) (next : σ) : Prop :=
  (act label state).state? = some next

/-- Perform calls one after the other, catching what they throw. -/
def perform (act : α → Prog ε σ) : List α → σ → Option σ
  | [], state => some state
  | label :: rest, state => (act label state).state?.bind (perform act rest)

theorem perform_runs {act : α → Prog ε σ} {step : σ → α → σ → Prop}
    (steps : ∀ state label next, (act label state).state? = some next → step state label next)
    {start state next : σ} {labels rest : List α} (prior : Runs step start labels state)
    (performed : perform act rest state = some next) : Runs step start (labels ++ rest) next := by
  induction rest generalizing labels state with
  | nil =>
    obtain rfl := Option.some.inj performed
    rwa [List.append_nil]
  | cons label rest ih =>
    obtain ⟨middle, ended, onward⟩ := Option.bind_eq_some_iff.mp performed
    have run := ih (.snoc prior (steps _ _ _ ended)) onward
    rwa [List.append_assoc, List.singleton_append] at run

end Prog

end NodeKv.Machine
