import Mathlib.Data.List.Nodup
import Mathlib.Data.Nat.Init
import Mathlib.Logic.Basic

/-! # Calls that return, throw, or never come back

A program acts on a shared state. Its call ends normally, ends with an exception that leaves
whatever state had been reached, or does not end. Recursive programs are given by a body that
receives its own callee; `nest` unrolls such a body to a bounded nesting depth, and a call
terminates when some depth is enough. Raising the depth never changes a finished call, and a
relation kept by the body for every callee that keeps it is kept at every depth.
-/

namespace NodeKv.Machine

variable {ε σ τ α ι : Type*}

/-- How a call ends. A thrown exception keeps the state reached before it. -/
inductive Outcome (ε σ : Type*) where
  | returned (state : σ)
  | threw (error : ε) (state : σ)
  | diverged
deriving DecidableEq, Repr

namespace Outcome

/-- The state a call leaves behind, if it ends at all. -/
def state? : Outcome ε σ → Option σ
  | returned state => some state
  | threw _ state => some state
  | diverged => none

/-- The state after a call that returned. -/
def returned? : Outcome ε σ → Option σ
  | returned state => some state
  | _ => none

/-- The exception a call threw. -/
def error? : Outcome ε σ → Option ε
  | threw error _ => some error
  | _ => none

@[simp] theorem state?_returned (state : σ) : (returned state : Outcome ε σ).state? = some state := rfl

@[simp] theorem state?_threw (error : ε) (state : σ) :
    (threw error state : Outcome ε σ).state? = some state := rfl

@[simp] theorem state?_diverged : (diverged : Outcome ε σ).state? = none := rfl

theorem exists_state? {outcome : Outcome ε σ} (ends : outcome ≠ .diverged) :
    ∃ state, outcome.state? = some state := by
  cases outcome with
  | returned state => exact ⟨state, rfl⟩
  | threw error state => exact ⟨state, rfl⟩
  | diverged => exact absurd rfl ends

theorem eq_returned {outcome : Outcome ε σ} {state : σ} (ended : outcome.returned? = some state) :
    outcome = .returned state := by
  cases outcome with
  | returned reached => exact congrArg _ (Option.some.inj ended)
  | threw error reached => contradiction
  | diverged => contradiction

/-- What holds of a call if it returns, if it throws, and if it goes on forever. Partial
correctness allows the last by `True`; total correctness rules it out by `False`. -/
def Meets (stuck : Prop) (normal : σ → Prop) (thrown : ε → σ → Prop) : Outcome ε σ → Prop
  | returned state => normal state
  | threw error state => thrown error state
  | diverged => stuck

theorem Meets.mono {stuck stuck' : Prop} {normal normal' : σ → Prop}
    {thrown thrown' : ε → σ → Prop} {outcome : Outcome ε σ}
    (meets : outcome.Meets stuck normal thrown) (diverges : stuck → stuck')
    (returns : ∀ state, normal state → normal' state)
    (throws : ∀ error state, thrown error state → thrown' error state) :
    outcome.Meets stuck' normal' thrown' := by
  cases outcome with
  | returned state => exact returns state meets
  | threw error state => exact throws error state meets
  | diverged => exact diverges meets

/-- A property of the state left behind, however the call ends. -/
theorem Meets.state? {stuck : Prop} {property : σ → Prop} {outcome : Outcome ε σ}
    (meets : outcome.Meets stuck property fun _ => property) {state : σ}
    (left : outcome.state? = some state) : property state := by
  cases outcome with
  | returned reached => exact Option.some.inj left ▸ meets
  | threw error reached => exact Option.some.inj left ▸ meets
  | diverged => contradiction

theorem Meets.eq_diverged {stuck : Prop} {outcome : Outcome ε σ}
    (meets : outcome.Meets stuck (fun _ => False) fun _ _ => False) : outcome = .diverged := by
  cases outcome with
  | returned state => exact meets.elim
  | threw error state => exact meets.elim
  | diverged => rfl

/-- The condition under which a call goes on forever may be stated in another way. -/
theorem Meets.of_iff {forever forever' : Prop} {outcome : Outcome ε σ}
    (meets : outcome.Meets forever (fun _ => ¬forever) fun _ _ => ¬forever)
    (iff : forever ↔ forever') :
    outcome.Meets forever' (fun _ => ¬forever') fun _ _ => ¬forever' :=
  meets.mono iff.mp (fun _ => mt iff.mpr) (fun _ _ => mt iff.mpr)

/-- A call that does not go on forever leaves a state. -/
theorem Meets.ends {normal : σ → Prop} {thrown : ε → σ → Prop} {outcome : Outcome ε σ}
    (meets : outcome.Meets False normal thrown) : ∃ state, outcome.state? = some state := by
  apply exists_state?
  rintro rfl
  exact meets

/-- A call that can neither throw nor go on forever returns. -/
theorem Meets.returns {normal : σ → Prop} {outcome : Outcome ε σ}
    (meets : outcome.Meets False normal fun _ _ => False) :
    ∃ state, outcome = .returned state ∧ normal state := by
  cases outcome with
  | returned state => exact ⟨state, rfl, meets⟩
  | threw error state => exact meets.elim
  | diverged => exact meets.elim

end Outcome

/-- A program reads and replaces the shared state. -/
abbrev Prog (ε σ : Type*) := σ → Outcome ε σ

namespace Prog

/-- Replace the state and return. -/
def update (change : σ → σ) : Prog ε σ := fun state => .returned (change state)

/-- Run two programs in order; an exception or a divergence skips the second. -/
def seq (first second : Prog ε σ) : Prog ε σ := fun state =>
  match first state with
  | .returned next => second next
  | .threw error next => .threw error next
  | .diverged => .diverged

/-- Run the body on every element in order, stopping at the first exception. -/
def forEach (body : α → Prog ε σ) : List α → Prog ε σ
  | [] => .returned
  | item :: rest => seq (body item) (forEach body rest)

@[simp] theorem seq_returned {first second : Prog ε σ} {state next : σ}
    (returned : first state = .returned next) : seq first second state = second next := by
  simp only [seq, returned]

theorem seq_threw {first second : Prog ε σ} {state next : σ} {error : ε}
    (threw : first state = .threw error next) : seq first second state = .threw error next := by
  simp only [seq, threw]

theorem seq_diverged {first second : Prog ε σ} {state : σ}
    (diverged : first state = .diverged) : seq first second state = .diverged := by
  simp only [seq, diverged]

@[simp] theorem seq_update (change : σ → σ) (second : Prog ε σ) (state : σ) :
    seq (update change) second state = second (change state) := rfl

/-- Returning is neutral after a program. -/
theorem seq_return (program : Prog ε σ) : seq program .returned = program := by
  funext state
  cases ran : program state with
  | returned next => rw [seq_returned ran]
  | threw error next => rw [seq_threw ran]
  | diverged => rw [seq_diverged ran]

@[simp] theorem forEach_nil (body : α → Prog ε σ) (state : σ) :
    forEach body [] state = .returned state := rfl

@[simp] theorem forEach_cons (body : α → Prog ε σ) (item : α) (rest : List α) (state : σ) :
    forEach body (item :: rest) state = seq (body item) (forEach body rest) state := rfl

theorem seq_assoc (first second third : Prog ε σ) :
    seq (seq first second) third = seq first (seq second third) := by
  funext state
  cases ran : first state <;> simp only [seq, ran]

theorem forEach_singleton (body : α → Prog ε σ) (item : α) : forEach body [item] = body item :=
  seq_return (body item)

/-- A loop over two lists is the loop over the first and then over the second. -/
theorem forEach_append (body : α → Prog ε σ) (front back : List α) :
    forEach body (front ++ back) = seq (forEach body front) (forEach body back) := by
  induction front with
  | nil => rfl
  | cons item rest ih =>
    calc
      forEach body (item :: rest ++ back)
          = seq (body item) (forEach body (rest ++ back)) := rfl
      _ = seq (body item) (seq (forEach body rest) (forEach body back)) := by rw [ih]
      _ = seq (forEach body (item :: rest)) (forEach body back) := (seq_assoc _ _ _).symm

/-- The sequencing rule: the middle assertion holds between the two programs. -/
theorem seq_meets {first second : Prog ε σ} {stuck : Prop} {middle normal : σ → Prop}
    {thrown : ε → σ → Prop} {state : σ} (left : (first state).Meets stuck middle thrown)
    (right : ∀ next, middle next → (second next).Meets stuck normal thrown) :
    (seq first second state).Meets stuck normal thrown := by
  cases ran : first state with
  | returned next => rw [ran] at left; rw [seq_returned ran]; exact right next left
  | threw error next => rw [ran] at left; rw [seq_threw ran]; exact left
  | diverged => rw [ran] at left; rw [seq_diverged ran]; exact left

/-- The rule of a loop. The invariant speaks of the elements that are done. -/
theorem forEach_meets (invariant : List α → σ → Prop) {body : α → Prog ε σ} {stuck : Prop}
    {thrown : ε → σ → Prop} {items : List α}
    (step : ∀ done item rest, items = done ++ item :: rest → ∀ state, invariant done state →
      (body item state).Meets stuck (invariant (done ++ [item])) thrown)
    {state : σ} (holds : invariant [] state) :
    (forEach body items state).Meets stuck (invariant items) thrown := by
  have onward : ∀ rest done, items = done ++ rest → ∀ state, invariant done state →
      (forEach body rest state).Meets stuck (invariant items) thrown := by
    intro rest
    induction rest with
    | nil =>
      rintro done split state holds
      rw [split, List.append_nil]
      exact holds
    | cons item rest ih =>
      intro done split state holds
      refine seq_meets (step done item rest split state holds) (ih (done ++ [item]) ?_)
      rw [split, List.append_assoc, List.singleton_append]
  exact onward items [] rfl state holds

/-- The rule of a loop over different elements. -/
theorem forEach_meets_of_nodup (invariant : List α → σ → Prop) {body : α → Prog ε σ} {stuck : Prop}
    {thrown : ε → σ → Prop} {items : List α} (nodup : items.Nodup)
    (step : ∀ done, ∀ item ∈ items, item ∉ done → ∀ state, invariant done state →
      (body item state).Meets stuck (invariant (done ++ [item])) thrown)
    {state : σ} (holds : invariant [] state) :
    (forEach body items state).Meets stuck (invariant items) thrown := by
  refine forEach_meets invariant ?_ holds
  intro done item rest split
  rw [split, List.nodup_middle, List.nodup_cons] at nodup
  refine step done item ?_ fun member => nodup.1 (List.mem_append_left _ member)
  rw [split]
  exact List.mem_append_right _ List.mem_cons_self

/-- Run a program on a part of the state. -/
def zoom (part : τ → σ) (put : τ → σ → τ) (program : Prog ε σ) : Prog ε τ := fun state =>
  match program (part state) with
  | .returned next => .returned (put state next)
  | .threw error next => .threw error (put state next)
  | .diverged => .diverged

theorem zoom_meets {part : τ → σ} {put : τ → σ → τ} {program : Prog ε σ} {stuck : Prop}
    {normal : τ → Prop} {thrown : ε → τ → Prop} {state : τ}
    (meets : (program (part state)).Meets stuck (fun next => normal (put state next))
      fun error next => thrown error (put state next)) :
    (zoom part put program state).Meets stuck normal thrown := by
  unfold zoom
  cases ran : program (part state) <;> rw [ran] at meets <;> exact meets

/-- Every state the program leaves stands in the relation to the state it started from. -/
def Keeps (relation : σ → σ → Prop) (program : Prog ε σ) : Prop :=
  ∀ state, (program state).Meets True (relation state) fun _ => relation state

namespace Keeps

variable {relation : σ → σ → Prop}

theorem update {change : σ → σ} (kept : ∀ state, relation state (change state)) :
    Keeps relation (Prog.update change : Prog ε σ) := kept

theorem seq (trans : ∀ a b c, relation a b → relation b c → relation a c)
    {first second : Prog ε σ} (left : Keeps relation first) (right : Keeps relation second) :
    Keeps relation (Prog.seq first second) := by
  intro state
  refine seq_meets (left state) ?_
  intro next reached
  exact (right next).mono id (fun _ => trans _ _ _ reached) (fun _ _ => trans _ _ _ reached)

theorem forEach (refl : ∀ a, relation a a)
    (trans : ∀ a b c, relation a b → relation b c → relation a c)
    {body : α → Prog ε σ} (kept : ∀ item, Keeps relation (body item)) (items : List α) :
    Keeps relation (Prog.forEach body items) := by
  induction items with
  | nil => exact refl
  | cons item rest ih => exact seq trans (kept item) ih

end Keeps

/-- The program leaves every state of a kind in a state of the kind. -/
def Preserves (invariant : σ → Prop) (program : Prog ε σ) : Prop :=
  ∀ state, invariant state → (program state).Meets True invariant fun _ => invariant

namespace Preserves

variable {invariant : σ → Prop}

theorem seq {first second : Prog ε σ} (left : Preserves invariant first)
    (right : Preserves invariant second) : Preserves invariant (Prog.seq first second) := by
  intro state holds
  exact seq_meets (left state holds) right

theorem forEach {body : α → Prog ε σ} (kept : ∀ item, Preserves invariant (body item))
    (items : List α) : Preserves invariant (Prog.forEach body items) := by
  induction items with
  | nil => exact fun _ holds => holds
  | cons item rest ih => exact seq (kept item) ih

/-- An invariant of a part of the state, where the rest of the state does not matter. -/
theorem zoom {outer : τ → Prop} {part : τ → σ} {put : τ → σ → τ} {program : Prog ε σ}
    (kept : Preserves invariant program) (inner : ∀ state, outer state → invariant (part state))
    (back : ∀ state next, outer state → invariant next → outer (put state next)) :
    Preserves outer (Prog.zoom part put program) := by
  intro state holds
  apply zoom_meets
  exact (kept (part state) (inner state holds)).mono id (fun next => back state next holds)
    fun _ next => back state next holds

end Preserves

/-- The left program agrees with the right one wherever it comes back. -/
def Below (lower upper : Prog ε σ) : Prop :=
  ∀ state, lower state = .diverged ∨ lower state = upper state

namespace Below

theorem refl (program : Prog ε σ) : Below program program := fun _ => Or.inr rfl

theorem seq {first first' second second' : Prog ε σ} (left : Below first first')
    (right : Below second second') : Below (Prog.seq first second) (Prog.seq first' second') := by
  intro state
  rcases left state with stopped | same
  · exact Or.inl (seq_diverged stopped)
  · cases ran : first' state with
    | returned next =>
      rw [seq_returned (same.trans ran), seq_returned ran]
      exact right next
    | threw error next =>
      rw [seq_threw (same.trans ran), seq_threw ran]
      exact Or.inr rfl
    | diverged => exact Or.inl (seq_diverged (same.trans ran))

theorem forEach {body body' : α → Prog ε σ} (below : ∀ item, Below (body item) (body' item))
    (items : List α) : Below (Prog.forEach body items) (Prog.forEach body' items) := by
  induction items with
  | nil => exact refl _
  | cons item rest ih => exact seq (below item) ih

end Below

/-- Unroll a self-calling body; at depth zero no call comes back. -/
def nest (body : (ι → Prog ε σ) → ι → Prog ε σ) : ℕ → ι → Prog ε σ
  | 0 => fun _ _ => .diverged
  | depth + 1 => body (nest body depth)

/-- Some nesting depth lets the call come back. -/
def Terminates (body : (ι → Prog ε σ) → ι → Prog ε σ) (call : ι) (state : σ) : Prop :=
  ∃ depth, nest body depth call state ≠ .diverged

/-- The body uses its callee only by calling it. -/
def Monotone (body : (ι → Prog ε σ) → ι → Prog ε σ) : Prop :=
  ∀ callee callee', (∀ call, Below (callee call) (callee' call)) →
    ∀ call, Below (body callee call) (body callee' call)

theorem nest_below_succ {body : (ι → Prog ε σ) → ι → Prog ε σ} (monotone : Monotone body)
    (depth : ℕ) (call : ι) : Below (nest body depth call) (nest body (depth + 1) call) := by
  induction depth generalizing call with
  | zero => exact fun _ => Or.inl rfl
  | succ depth ih => exact monotone _ _ ih call

/-- A call that comes back at one depth comes back the same way at every larger depth. -/
theorem nest_stable {body : (ι → Prog ε σ) → ι → Prog ε σ} (monotone : Monotone body)
    {depth larger : ℕ} (le : depth ≤ larger) {call : ι} {state : σ}
    (finished : nest body depth call state ≠ .diverged) :
    nest body larger call state = nest body depth call state := by
  induction larger, le using Nat.le_induction with
  | base => rfl
  | succ larger _ ih =>
    rcases nest_below_succ monotone larger call state with stopped | same
    · exact absurd (ih.symm.trans stopped) finished
    · exact same.symm.trans ih

/-- A relation that the body keeps whenever its callee does is kept at every depth. -/
theorem nest_keeps {relation : σ → σ → Prop} {body : (ι → Prog ε σ) → ι → Prog ε σ}
    (kept : ∀ callee, (∀ call, Keeps relation (callee call)) → ∀ call, Keeps relation (body callee call))
    (depth : ℕ) (call : ι) : Keeps relation (nest body depth call) := by
  induction depth generalizing call with
  | zero => exact fun _ => trivial
  | succ depth ih => exact kept _ ih call

/-- An invariant that the body keeps whenever its callee does is kept at every depth. -/
theorem nest_preserves {invariant : σ → Prop} {body : (ι → Prog ε σ) → ι → Prog ε σ}
    (kept : ∀ callee, (∀ call, Preserves invariant (callee call)) →
      ∀ call, Preserves invariant (body callee call))
    (depth : ℕ) (call : ι) : Preserves invariant (nest body depth call) := by
  induction depth generalizing call with
  | zero => exact fun _ _ => trivial
  | succ depth ih => exact kept _ ih call

end Prog

end NodeKv.Machine
