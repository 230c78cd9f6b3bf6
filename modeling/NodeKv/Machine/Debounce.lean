import Mathlib.Tactic.ByContra
import NodeKv.Machine.Runs

/-! # One debounced call shared by many instances

A debounced function has one timer. Each call records its caller and re-arms the timer; when the
timer fires, the function runs once, for the caller recorded last. Instances accumulate work and
rely on the timer to have it done. Nothing is forgotten as long as, whenever the timer fires, no
instance but the recorded one has work waiting, and this is exactly what is needed.
-/

namespace NodeKv.Machine

variable {ι σ α : Type*}

/-- Which instances have work waiting, and the caller recorded while the timer is pending. -/
structure Debounced (ι : Type*) where
  waiting : ι → Prop
  timer : Option ι

namespace Debounced

variable {before after : Debounced ι} {firing : Prop}

/-- Without a pending timer nothing is waiting. -/
def Covered (view : Debounced ι) : Prop := view.timer = none → ∀ other, ¬view.waiting other

/-- Only the recorded caller has work waiting. -/
def Alone (view : Debounced ι) : Prop :=
  ∀ caller, view.timer = some caller → ∀ other, view.waiting other → other = caller

/-- What a step can do to waiting work and the timer. -/
inductive Moves (before after : Debounced ι) (firing : Prop) : Prop
  /-- A debounced call. -/
  | called (quiet : ¬firing) (caller : ι) (armed : after.timer = some caller)
  /-- Work is done without the timer, or nothing happens. -/
  | drained (quiet : firing → before.timer = none) (timer : after.timer = before.timer)
      (fewer : ∀ other, after.waiting other → before.waiting other)
  /-- The timer fires and the recorded caller's work is done. -/
  | fired (fires : firing) (caller : ι) (recorded : before.timer = some caller)
      (off : after.timer = none)
      (left : ∀ other, after.waiting other ↔ before.waiting other ∧ other ≠ caller)

theorem Moves.covered_iff (moves : Moves before after firing) (covered : before.Covered) :
    after.Covered ↔ (firing → before.Alone) := by
  cases moves with
  | called quiet caller armed =>
    have vacuous : after.Covered := by
      intro off
      cases armed.symm.trans off
    exact ⟨fun _ fires => absurd fires quiet, fun _ => vacuous⟩
  | drained quiet timer fewer =>
    constructor
    · intro _ fires caller recorded
      cases (quiet fires).symm.trans recorded
    · intro _ off other waits
      exact covered (timer.symm.trans off) other (fewer other waits)
  | fired fires caller recorded off left =>
    constructor
    · intro drained _ last same other waits
      obtain rfl := Option.some.inj (recorded.symm.trans same)
      by_contra ne
      exact drained off other ((left other).mpr ⟨waits, ne⟩)
    · intro alone _ other waits
      obtain ⟨waited, ne⟩ := (left other).mp waits
      exact ne (alone fires caller recorded other waited)

/-- The firings of a run that find only the recorded caller with work waiting. -/
def Fires (view : σ → Debounced ι) (firing : α → Prop) (state : σ) (label : α) : Prop :=
  firing label → (view state).Alone

theorem covered_of_runs {step : σ → α → σ → Prop} {view : σ → Debounced ι} {firing : α → Prop}
    {start state : σ} {labels : List α}
    (run : Runs (Guarded (Fires view firing) step) start labels state)
    (moves : ∀ state label next, step state label next →
      Moves (view state) (view next) (firing label))
    (initial : (view start).Covered) : (view state).Covered := by
  refine run.preserves (fun _ state => (view state).Covered) initial ?_
  rintro labels state label next covered ⟨guard, stepped⟩
  exact ((moves state label next stepped).covered_iff covered).mpr guard

end Debounced

end NodeKv.Machine
