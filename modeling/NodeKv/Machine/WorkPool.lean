import Mathlib

/-! # Work on a thread pool

Requests are queued by a main thread, started and finished by workers in any order, and completed
by the main thread in any order, which then runs the request's callback. Nothing relates two
requests to each other. Workers keep the callbacks of the pool, completing takes one out, and
every step brings the pool nearer to being empty; a pool that is not empty can take a step.

What happened is kept as a history. A rule says which events may follow which past; a history is
governed by the rule when each of its events was allowed at its time.
-/

namespace NodeKv.Machine

variable {κ ρ α : Type*}

/-- How far a request has come. -/
inductive Stage (ρ : Type*) where
  | queued
  | running
  | finished (result : ρ)
deriving DecidableEq, Repr

structure Work (κ ρ : Type*) where
  id : ℕ
  callback : κ
  stage : Stage ρ
deriving DecidableEq, Repr

namespace Stage

def isFinished : Stage ρ → Bool
  | finished _ => true
  | _ => false

/-- The steps a request still has to take. -/
def remaining : Stage ρ → ℕ
  | queued => 3
  | running => 2
  | finished _ => 1

end Stage

namespace Work

/-- A worker takes up a queued request. -/
inductive Starts : List (Work κ ρ) → ℕ → List (Work κ ρ) → Prop
  | intro (before after : List (Work κ ρ)) (id : ℕ) (callback : κ) :
      Starts (before ++ ⟨id, callback, .queued⟩ :: after) id
        (before ++ ⟨id, callback, .running⟩ :: after)

/-- A worker is done with a request. -/
inductive Finishes (result : ρ) : List (Work κ ρ) → ℕ → List (Work κ ρ) → Prop
  | intro (before after : List (Work κ ρ)) (id : ℕ) (callback : κ) :
      Finishes result (before ++ ⟨id, callback, .running⟩ :: after) id
        (before ++ ⟨id, callback, .finished result⟩ :: after)

/-- The main thread takes a finished request out of the pool, to run its callback. -/
inductive Completes (callback : κ) (result : ρ) :
    List (Work κ ρ) → ℕ → List (Work κ ρ) → Prop
  | intro (before after : List (Work κ ρ)) (id : ℕ) :
      Completes callback result (before ++ ⟨id, callback, .finished result⟩ :: after) id
        (before ++ after)

/-- The steps the pool still has to take. -/
def remaining (works : List (Work κ ρ)) : ℕ := (works.map fun work => work.stage.remaining).sum

variable {works next : List (Work κ ρ)} {id : ℕ} {callback : κ} {result : ρ}

theorem Starts.remaining_lt (starts : Starts works id next) : remaining next < remaining works := by
  cases starts
  simp [remaining, Stage.remaining]

theorem Finishes.remaining_lt (finishes : Finishes result works id next) :
    remaining next < remaining works := by
  cases finishes
  simp [remaining, Stage.remaining]

theorem Completes.remaining_lt (completes : Completes callback result works id next) :
    remaining next < remaining works := by
  cases completes
  simp [remaining, Stage.remaining]

theorem Starts.callbacks (starts : Starts works id next) :
    next.map Work.callback = works.map Work.callback := by
  cases starts
  simp

theorem Finishes.callbacks (finishes : Finishes result works id next) :
    next.map Work.callback = works.map Work.callback := by
  cases finishes
  simp

theorem Completes.callbacks (completes : Completes callback result works id next) :
    (works.map Work.callback).Perm (callback :: next.map Work.callback) := by
  cases completes
  simp

theorem Completes.mem (completes : Completes callback result works id next) :
    ⟨id, callback, .finished result⟩ ∈ works := by
  cases completes
  simp

theorem Completes.subset (completes : Completes callback result works id next) : next ⊆ works := by
  cases completes
  simp

theorem Starts.mem (starts : Starts works id next) :
    ∃ callback, ⟨id, callback, .queued⟩ ∈ works := by
  cases starts with
  | intro before after id callback => exact ⟨callback, by simp⟩

theorem Starts.length_eq (starts : Starts works id next) : next.length = works.length := by
  cases starts
  simp

theorem Finishes.length_eq (finishes : Finishes result works id next) :
    next.length = works.length := by
  cases finishes
  simp

/-- Starting a request finishes none. -/
theorem Starts.mem_of_finished (starts : Starts works id next) {work : Work κ ρ}
    (member : work ∈ next) (finished : work.stage = .finished result) : work ∈ works := by
  cases starts with
  | intro before after id callback =>
    rcases List.mem_append.mp member with old | new
    · exact List.mem_append_left _ old
    rcases List.mem_cons.mp new with rfl | old
    · cases finished
    · simp [old]

theorem Finishes.mem_of_finished (finishes : Finishes result works id next) {work : Work κ ρ}
    (member : work ∈ next) {other : ρ} (finished : work.stage = .finished other) :
    work ∈ works ∨ other = result := by
  cases finishes with
  | intro before after id callback =>
    rcases List.mem_append.mp member with old | new
    · exact .inl (List.mem_append_left _ old)
    rcases List.mem_cons.mp new with rfl | old
    · cases finished
      exact .inr rfl
    · exact .inl (by simp [old])

/-- The only request of a pool is the one taken out. -/
theorem Completes.of_length_one (completes : Completes callback result works id next)
    (single : works.length = 1) : works = [⟨id, callback, .finished result⟩] ∧ next = [] := by
  cases completes with
  | intro before after id =>
    rw [List.length_append, List.length_cons] at single
    obtain rfl : before = [] := List.length_eq_zero_iff.mp (by omega)
    obtain rfl : after = [] := List.length_eq_zero_iff.mp (by simpa using single)
    exact ⟨rfl, rfl⟩

/-- A request of that number has not been finished. -/
def Unfinished (works : List (Work κ ρ)) (id : ℕ) : Prop :=
  ∃ work ∈ works, work.id = id ∧ work.stage.isFinished = false

theorem Starts.pending (starts : Starts works id next) : Unfinished works id := by
  cases starts with
  | intro before after id callback => exact ⟨⟨id, callback, .queued⟩, by simp, rfl, rfl⟩

theorem Finishes.pending (finishes : Finishes result works id next) : Unfinished works id := by
  cases finishes with
  | intro before after id callback => exact ⟨⟨id, callback, .running⟩, by simp, rfl, rfl⟩

theorem Starts.unfinished (starts : Starts works id next) {other : ℕ}
    (unfinished : Unfinished works other) : Unfinished next other := by
  cases starts with
  | intro before after id callback =>
    obtain ⟨work, member, rfl, pending⟩ := unfinished
    rcases List.mem_append.mp member with old | new
    · exact ⟨work, List.mem_append_left _ old, rfl, pending⟩
    rcases List.mem_cons.mp new with rfl | old
    · exact ⟨⟨id, callback, .running⟩, by simp, rfl, rfl⟩
    · exact ⟨work, by simp [old], rfl, pending⟩

theorem Finishes.unfinished (finishes : Finishes result works id next) {other : ℕ}
    (unfinished : Unfinished works other) : other = id ∨ Unfinished next other := by
  cases finishes with
  | intro before after id callback =>
    obtain ⟨work, member, rfl, pending⟩ := unfinished
    rcases List.mem_append.mp member with old | new
    · exact .inr ⟨work, List.mem_append_left _ old, rfl, pending⟩
    rcases List.mem_cons.mp new with rfl | old
    · exact .inl rfl
    · exact .inr ⟨work, by simp [old], rfl, pending⟩

theorem Completes.unfinished (completes : Completes callback result works id next) {other : ℕ}
    (unfinished : Unfinished works other) : Unfinished next other := by
  cases completes with
  | intro before after id =>
    obtain ⟨work, member, rfl, pending⟩ := unfinished
    rcases List.mem_append.mp member with old | new
    · exact ⟨work, List.mem_append_left _ old, rfl, pending⟩
    rcases List.mem_cons.mp new with rfl | old
    · exact nomatch pending
    · exact ⟨work, List.mem_append_right _ old, rfl, pending⟩

/-- Some worker can go on, or everything is finished and some request can be completed. -/
theorem progress (nonempty : works ≠ []) :
    (∃ id next, Starts works id next) ∨ (∀ result, ∃ id next, Finishes result works id next) ∨
      ((∀ work ∈ works, work.stage.isFinished = true) ∧
        ∃ callback result id next, Completes callback result works id next) := by
  by_cases settled : ∀ work ∈ works, work.stage.isFinished = true
  · obtain ⟨⟨id, callback, stage⟩, rest, rfl⟩ := List.exists_cons_of_ne_nil nonempty
    refine .inr (.inr ⟨settled, ?_⟩)
    cases stage with
    | queued => exact nomatch settled _ (List.mem_cons_self ..)
    | running => exact nomatch settled _ (List.mem_cons_self ..)
    | finished result => exact ⟨callback, result, id, rest, .intro [] rest id⟩
  · push Not at settled
    obtain ⟨⟨id, callback, stage⟩, member, unfinished⟩ := settled
    obtain ⟨before, after, rfl⟩ := List.append_of_mem member
    cases stage with
    | queued => exact .inl ⟨id, _, .intro before after id callback⟩
    | running => exact .inr (.inl fun result => ⟨id, _, .intro before after id callback⟩)
    | finished result => exact absurd rfl unfinished

end Work

/-- Every event was allowed by what came before it. -/
def Governed (rule : List α → α → Prop) (history : List α) : Prop :=
  ∀ past event later, history = past ++ event :: later → rule past event

namespace Governed

variable {rule : List α → α → Prop} {history : List α}

theorem nil : Governed rule [] := by
  intro past event later split
  simp at split

theorem snoc (governed : Governed rule history) {event : α} (allowed : rule history event) :
    Governed rule (history ++ [event]) := by
  intro past other later split
  rcases List.eq_nil_or_concat later with rfl | ⟨later, last, rfl⟩
  · obtain ⟨rfl, same⟩ := List.append_inj' split rfl
    rwa [← List.head_eq_of_cons_eq same]
  · rw [List.concat_eq_append, ← List.cons_append, ← List.append_assoc] at split
    exact governed past other later (List.append_inj' split rfl).1

end Governed

end NodeKv.Machine
