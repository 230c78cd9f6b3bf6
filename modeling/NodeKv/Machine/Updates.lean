import Mathlib.Data.Option.Basic
import Mathlib.Logic.Function.Basic

/-! # Update histories of a key-value map

A history is a list of puts and deletes in the order they are performed. Replaying it on a map
depends, key by key, only on the last update of that key: `lastOn` computes what that update
wrote, and `applyAll_apply` reads the replayed map off it. Histories compose by concatenation,
where a later update of a key hides every earlier one.
-/

namespace NodeKv.Machine

variable {κ ν : Type*}

/-- One write to a map: set a key to a value, or remove it. -/
inductive Update (κ ν : Type*) where
  | put (key : κ) (val : ν)
  | del (key : κ)
deriving DecidableEq, Repr

namespace Update

/-- The key the update writes. -/
def key : Update κ ν → κ
  | put key _ => key
  | del key => key

/-- What the update leaves at its key. -/
def written : Update κ ν → Option ν
  | put _ val => some val
  | del _ => none

/-- Whether the update removes its key. -/
def isDel : Update κ ν → Bool
  | put _ _ => false
  | del _ => true

@[simp] theorem key_put (key : κ) (val : ν) : (put key val).key = key := rfl
@[simp] theorem key_del (key : κ) : (del key : Update κ ν).key = key := rfl
@[simp] theorem written_put (key : κ) (val : ν) : (put key val).written = some val := rfl
@[simp] theorem written_del (key : κ) : (del key : Update κ ν).written = none := rfl
@[simp] theorem isDel_put (key : κ) (val : ν) : (put key val).isDel = false := rfl
@[simp] theorem isDel_del (key : κ) : (del key : Update κ ν).isDel = true := rfl

variable [DecidableEq κ]

/-- Perform one update. -/
def apply (map : κ → Option ν) (update : Update κ ν) : κ → Option ν :=
  Function.update map update.key update.written

theorem apply_self (map : κ → Option ν) (update : Update κ ν) :
    update.apply map update.key = update.written := Function.update_self ..

theorem apply_of_ne (map : κ → Option ν) {update : Update κ ν} {key : κ}
    (other : key ≠ update.key) :
    update.apply map key = map key := Function.update_of_ne other ..

end Update

variable [DecidableEq κ]

/-- Perform a history of updates in order. -/
def applyAll (map : κ → Option ν) (history : List (Update κ ν)) : κ → Option ν :=
  history.foldl Update.apply map

/-- What the last update of a key wrote; `none` when the history does not touch the key. -/
def lastOn (key : κ) : List (Update κ ν) → Option (Option ν)
  | [] => none
  | update :: rest => (lastOn key rest).or (if update.key = key then some update.written else none)

@[simp] theorem applyAll_nil (map : κ → Option ν) : applyAll map [] = map := rfl

@[simp] theorem applyAll_append (map : κ → Option ν) (front back : List (Update κ ν)) :
    applyAll map (front ++ back) = applyAll (applyAll map front) back :=
  List.foldl_append

theorem applyAll_concat (map : κ → Option ν) (history : List (Update κ ν)) (update : Update κ ν) :
    applyAll map (history ++ [update]) = update.apply (applyAll map history) := by
  rw [applyAll_append]
  rfl

@[simp] theorem lastOn_nil (key : κ) : lastOn key ([] : List (Update κ ν)) = none := rfl

/-- A later update of a key hides every earlier one. -/
@[simp] theorem lastOn_append (key : κ) (front back : List (Update κ ν)) :
    lastOn key (front ++ back) = (lastOn key back).or (lastOn key front) := by
  induction front with
  | nil => simp
  | cons update rest ih => simp only [List.cons_append, lastOn, ih, Option.or_assoc]

theorem lastOn_singleton (key : κ) (update : Update κ ν) :
    lastOn key [update] = if update.key = key then some update.written else none := rfl

/-- Untouched keys are those that no update of the history writes. -/
theorem lastOn_eq_none {history : List (Update κ ν)} {key : κ} :
    lastOn key history = none ↔ ∀ update ∈ history, update.key ≠ key := by
  induction history with
  | nil => simp
  | cons update rest ih =>
    rw [lastOn, Option.or_eq_none_iff, ih, List.forall_mem_cons, and_comm]
    simp

theorem exists_of_lastOn {history : List (Update κ ν)} {key : κ} {written : Option ν}
    (last : lastOn key history = some written) :
    ∃ update ∈ history, update.key = key ∧ update.written = written := by
  induction history with
  | nil => exact nomatch last
  | cons update rest ih =>
    rw [lastOn, Option.or_eq_some_iff] at last
    rcases last with later | ⟨-, here⟩
    · obtain ⟨update, member, wrote⟩ := ih later
      exact ⟨update, List.mem_cons_of_mem _ member, wrote⟩
    · obtain ⟨same, wrote⟩ := Option.ite_none_right_eq_some.mp here
      exact ⟨update, List.mem_cons_self .., same, Option.some.inj wrote⟩

/-- The replayed map at a key is what the last update of that key wrote. -/
theorem applyAll_apply (map : κ → Option ν) (history : List (Update κ ν)) (key : κ) :
    applyAll map history key = (lastOn key history).getD (map key) := by
  induction history generalizing map with
  | nil => rfl
  | cons update rest ih =>
    change applyAll (update.apply map) rest key = _
    rw [ih]
    by_cases same : update.key = key
    · subst same
      cases later : lastOn update.key rest <;> simp [lastOn, later, Update.apply]
    · have other : update.apply map key = map key := Update.apply_of_ne map (Ne.symm same)
      simp [lastOn, other, same]

/-- The values of the replayed map were there before, or the history has put them. -/
theorem applyAll_values {property : ν → Prop} {map : κ → Option ν} {history : List (Update κ ν)}
    (before : ∀ key val, map key = some val → property val)
    (wrote : ∀ update ∈ history, ∀ val, update.written = some val → property val) (key : κ) (val : ν)
    (found : applyAll map history key = some val) : property val := by
  rw [applyAll_apply] at found
  cases last : lastOn key history with
  | none =>
    rw [last, Option.getD_none] at found
    exact before key val found
  | some written =>
    rw [last, Option.getD_some] at found
    obtain ⟨update, member, -, same⟩ := exists_of_lastOn last
    exact wrote update member val (same.trans found)

/-- A history of deletes alone can only have deleted a key it touches. -/
theorem lastOn_of_dels {history : List (Update κ ν)} (dels : ∀ update ∈ history, update.isDel)
    (key : κ) : lastOn key history = none ∨ lastOn key history = some none := by
  induction history with
  | nil => exact Or.inl rfl
  | cons update rest ih =>
    have head := dels update (List.mem_cons_self ..)
    rcases ih (fun other member => dels other (List.mem_cons_of_mem _ member)) with none | deleted
    · cases update with
      | put key val => exact absurd head (by simp)
      | del other => by_cases same : other = key <;> simp [lastOn, none, same]
    · simp [lastOn, deleted]

/-- A history of puts alone has left a value under every key it touches. -/
theorem lastOn_of_puts {history : List (Update κ ν)}
    (puts : ∀ update ∈ history, update.isDel = false) {update : Update κ ν}
    (member : update ∈ history) : ∃ val, lastOn update.key history = some (some val) := by
  have touched : lastOn update.key history ≠ none :=
    fun untouched => lastOn_eq_none.mp untouched update member rfl
  generalize update.key = key at touched
  clear member
  induction history with
  | nil => exact absurd rfl touched
  | cons first rest ih =>
    rw [lastOn] at touched ⊢
    cases later : lastOn key rest with
    | some written =>
      have found := ih (fun other member => puts other (List.mem_cons_of_mem _ member))
        (by simp [later])
      simpa [later] using found
    | none =>
      cases first with
      | put other val => by_cases same : other = key <;> simp_all
      | del other => exact absurd (puts _ (List.mem_cons_self ..)) (by simp)

end NodeKv.Machine
