import Mathlib.Data.List.Infix
import NodeKv.Machine.Runs

/-! # Accepted, pending and settled work

A component that batches work keeps a ledger: the entries that have taken effect, and those still
waiting, both in order of acceptance. The ledger is conserved when new entries are only added at
the end and entries only settle from the front. Conservation composes along a run, and an
empty queue then means that exactly what was accepted has taken effect.
-/

namespace NodeKv.Machine

/-- What has taken effect, and what is waiting to. -/
structure Ledger (α : Type*) where
  settled : List α
  pending : List α

namespace Ledger

variable {α σ ι : Type*}

def entries (ledger : Ledger α) : List α := ledger.settled ++ ledger.pending

/-- Nothing lost, repeated or reordered, while the given entries are accepted. -/
structure Conserves (before : Ledger α) (accepted : List α) (after : Ledger α) : Prop where
  settled : before.settled <+: after.settled
  entries : after.entries = before.entries ++ accepted

namespace Conserves

variable {before middle after : Ledger α} {first second : List α}

theorem refl (ledger : Ledger α) : Conserves ledger [] ledger :=
  ⟨List.prefix_rfl, (List.append_nil _).symm⟩

theorem trans (left : Conserves before first middle) (right : Conserves middle second after) :
    Conserves before (first ++ second) after := by
  refine ⟨left.settled.trans right.settled, ?_⟩
  rw [right.entries, left.entries, List.append_assoc]

/-- New entries wait behind the others. -/
theorem accept (ledger : Ledger α) (new : List α) :
    Conserves ledger new ⟨ledger.settled, ledger.pending ++ new⟩ :=
  ⟨List.prefix_rfl, (List.append_assoc ..).symm⟩

/-- Everything waiting settles at once. -/
theorem settle (ledger : Ledger α) :
    Conserves ledger [] ⟨ledger.settled ++ ledger.pending, []⟩ :=
  ⟨List.prefix_append .., rfl⟩

/-- With nothing waiting, what has settled is what there was and what was accepted. -/
theorem settled_eq (conserves : Conserves before first after) (drained : after.pending = []) :
    after.settled = before.entries ++ first := by
  rw [← conserves.entries, Ledger.entries, drained, List.append_nil]

/-- Where nothing was waiting and nothing is accepted, nothing waits afterwards. -/
theorem drained (conserves : Conserves before [] after) (empty : before.pending = []) :
    after.pending = [] := by
  have entries := conserves.entries
  rw [Ledger.entries, Ledger.entries, empty, List.append_nil, List.append_nil] at entries
  have settled := conserves.settled.length_le
  have lengths := congrArg List.length entries
  rw [List.length_append] at lengths
  apply List.eq_nil_of_length_eq_zero
  omega

/-- Steps that conserve the ledger while an invariant holds conserve it along every run. -/
theorem of_runs {step : σ → ι → σ → Prop} {start state : σ} {labels : List ι}
    (run : Runs step start labels state) (invariant : σ → Prop) (view : σ → Ledger α)
    (accepted : ι → List α) (initial : invariant start)
    (kept : ∀ state label next, invariant state → step state label next →
      invariant next ∧ Conserves (view state) (accepted label) (view next)) :
    invariant state ∧ Conserves (view start) (labels.flatMap accepted) (view state) := by
  refine run.preserves (fun labels state =>
    invariant state ∧ Conserves (view start) (labels.flatMap accepted) (view state))
    ⟨initial, refl _⟩ ?_
  rintro labels state label next ⟨holds, sofar⟩ stepped
  obtain ⟨holds', step⟩ := kept state label next holds stepped
  refine ⟨holds', ?_⟩
  rw [List.flatMap_append, List.flatMap_singleton]
  exact sofar.trans step

end Conserves

end Ledger

end NodeKv.Machine
