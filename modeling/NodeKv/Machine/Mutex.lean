import Mathlib.Data.Nat.Notation
import Mathlib.Logic.Basic
import Mathlib.Tactic.ByContra

/-! # A lock that one party at a time holds

The lock only knows whether it is taken; the parties know whether they hold it. Both views agree as
long as every step moves the lock through one party: the party takes it while it is free, or gives
it back.
-/

namespace NodeKv.Machine.Mutex

/-- While the lock is taken exactly one party holds it, otherwise none. -/
structure Consistent (taken : Bool) (holds : ℕ → Bool) : Prop where
  free : taken = false → ∀ party, holds party = false
  taken : taken = true → ∃ party, holds party = true ∧ ∀ other, holds other = true → other = party

/-- A step of one party: the lock before and after, and whether the party held and holds it. -/
inductive Move : Bool → Bool → Bool → Bool → Prop
  | kept (taken held : Bool) : Move taken taken held held
  | acquired (held : Bool) : Move false true held true
  | released (taken : Bool) : Move taken false true false

variable {taken taken' : Bool} {holds holds' : ℕ → Bool}

theorem Consistent.alone (consistent : Consistent taken holds) {party other : ℕ}
    (held : holds party = true) (held' : holds other = true) : other = party := by
  cases taken with
  | false => exact nomatch (consistent.free rfl party).symm.trans held
  | true =>
    obtain ⟨holder, -, only⟩ := consistent.taken rfl
    exact (only other held').trans (only party held).symm

theorem Consistent.taken_iff (consistent : Consistent taken holds) :
    taken = true ↔ ∃ party, holds party = true := by
  constructor
  · intro locked
    obtain ⟨party, held, -⟩ := consistent.taken locked
    exact ⟨party, held⟩
  · rintro ⟨party, held⟩
    cases taken with
    | true => rfl
    | false => exact nomatch (consistent.free rfl party).symm.trans held

/-- A step that moves the lock through one party keeps both views in agreement. -/
theorem Consistent.move (consistent : Consistent taken holds) {party : ℕ}
    (others : ∀ other, other ≠ party → holds' other = holds other)
    (move : Move taken taken' (holds party) (holds' party)) : Consistent taken' holds' := by
  generalize before : holds party = held at move
  generalize after : holds' party = held' at move
  cases move with
  | kept =>
    have same : holds' = holds := by
      funext other
      by_cases moved : other = party
      · rw [moved, after, before]
      · exact others other moved
    exact same ▸ consistent
  | acquired =>
    refine ⟨nofun, fun _ => ⟨party, after, ?_⟩⟩
    intro other held
    by_contra ne
    rw [others other ne, consistent.free rfl other] at held
    exact nomatch held
  | released =>
    refine ⟨fun _ other => ?_, nofun⟩
    by_cases moved : other = party
    · rw [moved, after]
    · rw [others other moved]
      cases still : holds other with
      | false => rfl
      | true => exact absurd (consistent.alone before still) moved

end NodeKv.Machine.Mutex
