import Mathlib.Data.List.Forall2
import NodeKv.Machine.Outcome

/-! # Lockstep simulation of programs

Two programs on different states simulate each other when calls from related states end the same
way, with the same exception, in related states. Sequencing and loops preserve this; so does
unrolling two self-calling bodies to the same depth, which makes a small abstract recursion an
exact account of a larger concrete one, divergence included.
-/

namespace NodeKv.Machine

variable {ε σ τ α ι κ : Type*}

/-- Both calls return, both throw the same exception, or both diverge. -/
inductive Outcome.Rel (related : σ → τ → Prop) : Outcome ε σ → Outcome ε τ → Prop
  | returned {left : σ} {right : τ} (states : related left right) :
      Rel related (.returned left) (.returned right)
  | threw (error : ε) {left : σ} {right : τ} (states : related left right) :
      Rel related (.threw error left) (.threw error right)
  | diverged : Rel related .diverged .diverged

namespace Outcome.Rel

variable {related : σ → τ → Prop} {left : Outcome ε σ} {right : Outcome ε τ}

theorem mono {weaker : σ → τ → Prop} (rel : Rel related left right)
    (imp : ∀ state state', related state state' → weaker state state') :
    Rel weaker left right := by
  cases rel with
  | returned states => exact .returned (imp _ _ states)
  | threw error states => exact .threw error (imp _ _ states)
  | diverged => exact .diverged

theorem diverged_iff (rel : Rel related left right) : left = .diverged ↔ right = .diverged := by
  cases rel <;> simp

theorem error?_eq (rel : Rel related left right) : left.error? = right.error? := by
  cases rel <;> rfl

/-- A finished call on the left has a related finished call on the right. -/
theorem of_state? (rel : Rel related left right) {state : σ} (ended : left.state? = some state) :
    ∃ state', right.state? = some state' ∧ related state state' := by
  cases rel with
  | returned states => exact ⟨_, rfl, Option.some.inj ended ▸ states⟩
  | threw error states => exact ⟨_, rfl, Option.some.inj ended ▸ states⟩
  | diverged => contradiction

/-- Related calls both go on forever, or both end. -/
theorem ends (rel : Rel related left right) : left = .diverged ∧ right = .diverged ∨
    ∃ state state', left.state? = some state ∧ right.state? = some state' ∧ related state state' := by
  cases rel with
  | returned states => exact .inr ⟨_, _, rfl, rfl, states⟩
  | threw error states => exact .inr ⟨_, _, rfl, rfl, states⟩
  | diverged => exact .inl ⟨rfl, rfl⟩

theorem of_returned {state : σ} (rel : Rel related (.returned state) right) :
    ∃ state', right = .returned state' ∧ related state state' := by
  cases rel with
  | returned states => exact ⟨_, rfl, states⟩

theorem to_returned {state' : τ} (rel : Rel related left (.returned state')) :
    ∃ state, left = .returned state ∧ related state state' := by
  cases rel with
  | returned states => exact ⟨_, rfl, states⟩

end Outcome.Rel

namespace Prog

variable {related : σ → τ → Prop}

theorem seq_rel {first second : Prog ε σ} {first' second' : Prog ε τ} {state : σ} {state' : τ}
    {between : σ → τ → Prop} (left : Outcome.Rel between (first state) (first' state'))
    (weaker : ∀ next next', between next next' → related next next')
    (right : ∀ next next', between next next' →
      Outcome.Rel related (second next) (second' next')) :
    Outcome.Rel related (seq first second state) (seq first' second' state') := by
  generalize ran : first state = outcome at left
  generalize ran' : first' state' = outcome' at left
  cases left with
  | returned states =>
    rw [seq_returned ran, seq_returned ran']
    exact right _ _ states
  | threw error states =>
    rw [seq_threw ran, seq_threw ran']
    exact .threw error (weaker _ _ states)
  | diverged =>
    rw [seq_diverged ran, seq_diverged ran']
    exact .diverged

theorem forEach_rel {body : α → Prog ε σ} {body' : α → Prog ε τ}
    (step : ∀ item state state', related state state' →
      Outcome.Rel related (body item state) (body' item state'))
    (items : List α) {state : σ} {state' : τ} (states : related state state') :
    Outcome.Rel related (forEach body items state) (forEach body' items state') := by
  induction items generalizing state state' with
  | nil => exact .returned states
  | cons item rest ih =>
    exact seq_rel (step item state state' states) (fun _ _ => id) (fun _ _ => ih)

/-- Loops over items that have the same effect one by one. -/
theorem forEach_congr {body : α → Prog ε σ} {body' : ι → Prog ε σ} {same : α → ι → Prop}
    (bodies : ∀ item item', same item item' → body item = body' item') {items : List α}
    {items' : List ι} (alike : List.Forall₂ same items items') :
    forEach body items = forEach body' items' := by
  induction alike with
  | nil => rfl
  | cons head tail ih => rw [forEach, forEach, bodies _ _ head, ih]

/-- Programs on parts of two states. -/
theorem zoom_rel {σ' τ' : Type*} {part : σ' → σ} {put : σ' → σ → σ'} {part' : τ' → τ}
    {put' : τ' → τ → τ'} {outer : σ' → τ' → Prop} {program : Prog ε σ} {program' : Prog ε τ}
    {state : σ'} {state' : τ'}
    (inner : Outcome.Rel related (program (part state)) (program' (part' state')))
    (back : ∀ next next', related next next' → outer (put state next) (put' state' next')) :
    Outcome.Rel outer (zoom part put program state) (zoom part' put' program' state') := by
  unfold zoom
  generalize program (part state) = outcome at inner
  generalize program' (part' state') = outcome' at inner
  cases inner with
  | returned states => exact .returned (back _ _ states)
  | threw error states => exact .threw error (back _ _ states)
  | diverged => exact .diverged

/-- A program on a part of the state on the right alone. -/
theorem zoom_right_rel {τ' : Type*} {part' : τ' → τ} {put' : τ' → τ → τ'} {outer : σ → τ' → Prop}
    {outcome : Outcome ε σ} {program' : Prog ε τ} {state' : τ'}
    (inner : Outcome.Rel (fun next next' => outer next (put' state' next')) outcome
      (program' (part' state'))) :
    Outcome.Rel outer outcome (zoom part' put' program' state') := by
  unfold zoom
  generalize program' (part' state') = outcome' at inner
  cases inner with
  | returned states => exact .returned states
  | threw error states => exact .threw error states
  | diverged => exact .diverged

/-- Matching calls of two recursive programs end alike, if their bodies do for all callees whose
matching calls end alike. The relation carries a frame, a fact about the start that every call
preserves; which calls match may depend on the states. -/
theorem nest_rel {φ : Type*} {related : φ → σ → τ → Prop} (matching : ι → κ → σ → τ → Prop)
    {body : (ι → Prog ε σ) → ι → Prog ε σ} {body' : (κ → Prog ε τ) → κ → Prog ε τ}
    (step : ∀ callee callee',
      (∀ frame call call' state state', related frame state state' →
        matching call call' state state' →
        Outcome.Rel (related frame) (callee call state) (callee' call' state')) →
      ∀ frame call call' state state', related frame state state' →
        matching call call' state state' →
        Outcome.Rel (related frame) (body callee call state) (body' callee' call' state'))
    (depth : ℕ) {frame : φ} {call : ι} {call' : κ} {state : σ} {state' : τ}
    (states : related frame state state') (same : matching call call' state state') :
    Outcome.Rel (related frame) (nest body depth call state) (nest body' depth call' state') := by
  induction depth generalizing frame call call' state state' with
  | zero => exact .diverged
  | succ depth ih =>
    exact step _ _ (fun _ _ _ _ _ => ih) frame call call' state state' states same

end Prog

end NodeKv.Machine
