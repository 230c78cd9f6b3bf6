import Mathlib.Data.Finset.Lattice.Fold
import Mathlib.Data.List.Infix
import Mathlib.Data.List.Nodup
import Mathlib.Logic.Function.Basic

/-! # Finite trees by paths

A tree is known by the nodes at its paths, where a path is the list of names from the root. Only
nodes of one kind have others below them, and the root is of this kind. Nodes are removed one by one,
when nothing is below them. The part of a tree at a path and below is pruned when all of it is removed
and nothing else.
-/

namespace NodeKv.Machine

structure PathTree (ν κ : Type*) (inner : κ) where
  get? : List ν → Option κ
  /-- The paths of all nodes. -/
  paths : List (List ν)
  mem_paths : ∀ path, path ∈ paths ↔ (get? path).isSome
  nodup : paths.Nodup
  root : get? [] = some inner
  parent : ∀ path name, (get? (path ++ [name])).isSome → get? path = some inner

namespace PathTree

variable {ν κ : Type*} {inner : κ} (tree : PathTree ν κ inner)

section Order

variable {tree}

theorem isSome_root (tree : PathTree ν κ inner) : (tree.get? []).isSome := by
  rw [tree.root]
  rfl

theorem get?_of_append {path rest : List ν} (present : (tree.get? (path ++ rest)).isSome)
    (below : rest ≠ []) : tree.get? path = some inner := by
  induction rest using List.reverseRecOn with
  | nil => exact absurd rfl below
  | append_singleton front name ih =>
    rw [← List.append_assoc] at present
    have up := tree.parent _ _ present
    rcases eq_or_ne front [] with rfl | more
    · rwa [List.append_nil] at up
    · exact ih (by rw [up]; rfl) more

/-- What is below a missing node is missing. -/
theorem get?_eq_none_of_append {path rest : List ν} (missing : tree.get? path = none) :
    tree.get? (path ++ rest) = none := by
  rcases eq_or_ne rest [] with rfl | below
  · rwa [List.append_nil]
  · by_contra present
    have up := get?_of_append (Option.isSome_iff_ne_none.mpr present) below
    exact nomatch missing.symm.trans up

/-- All nodes of a tree are nodes of another one. -/
def Part (tree other : PathTree ν κ inner) : Prop :=
  ∀ path kind, tree.get? path = some kind → other.get? path = some kind

theorem Part.refl (tree : PathTree ν κ inner) : tree.Part tree := fun _ _ => id

theorem Part.trans {other third : PathTree ν κ inner} (left : tree.Part other)
    (right : other.Part third) : tree.Part third :=
  fun path kind present => right path kind (left path kind present)

theorem Part.get?_eq_none {other : PathTree ν κ inner} (part : tree.Part other) {path : List ν}
    (missing : other.get? path = none) : tree.get? path = none := by
  cases present : tree.get? path with
  | none => rfl
  | some kind => exact nomatch missing.symm.trans (part path kind present)

end Order

variable [DecidableEq ν]

/-- The names of the nodes right below a path. -/
def names (path : List ν) : List ν :=
  tree.paths.filterMap fun other => if other.dropLast = path then other.getLast? else none

section Names

variable {tree} {path : List ν} {name : ν}

theorem mem_names : name ∈ tree.names path ↔ (tree.get? (path ++ [name])).isSome := by
  rw [names, List.mem_filterMap, ← tree.mem_paths]
  constructor
  · rintro ⟨other, member, found⟩
    obtain ⟨front, last⟩ := Option.ite_none_right_eq_some.mp found
    rw [← front, List.dropLast_append_getLast? name last]
    exact member
  · intro member
    exact ⟨_, member, by simp⟩

/-- Only nodes of the one kind have others below them. -/
theorem names_eq_nil (leaf : tree.get? path ≠ some inner) : tree.names path = [] := by
  refine List.eq_nil_iff_forall_not_mem.mpr fun name member => ?_
  exact leaf (tree.parent path name (mem_names.mp member))

/-- There are finitely many nodes, so their paths are not longer than some number. -/
theorem exists_depth (tree : PathTree ν κ inner) :
    ∃ depth, ∀ path, (tree.get? path).isSome → path.length ≤ depth := by
  refine ⟨tree.paths.toFinset.sup List.length, fun path present => ?_⟩
  exact Finset.le_sup (List.mem_toFinset.mpr ((tree.mem_paths path).mpr present))

variable (tree path)

theorem nodup_names : (tree.names path).Nodup := by
  refine tree.nodup.filterMap ?_
  intro left right name found found'
  obtain ⟨front, last⟩ := Option.ite_none_right_eq_some.mp found
  obtain ⟨front', last'⟩ := Option.ite_none_right_eq_some.mp found'
  rw [← List.dropLast_append_getLast? name last, ← List.dropLast_append_getLast? name last', front,
    front']

end Names

section Insert

/-- A tree of the root alone. -/
def bare (ν : Type*) [DecidableEq ν] {κ : Type*} (inner : κ) : PathTree ν κ inner where
  get? path := if path = [] then some inner else none
  paths := [[]]
  mem_paths path := by
    rw [List.mem_singleton]
    split_ifs with root <;> simp [root]
  nodup := List.nodup_singleton _
  root := if_pos rfl
  parent path name present := by simp at present

/-- Add a node under an inner one. -/
def insert (path : List ν) (name : ν) (kind : κ) (inside : tree.get? path = some inner)
    (fresh : tree.get? (path ++ [name]) = none) : PathTree ν κ inner where
  get? := Function.update tree.get? (path ++ [name]) (some kind)
  paths := (path ++ [name]) :: tree.paths
  mem_paths := by
    intro other
    rw [List.mem_cons, tree.mem_paths]
    rcases eq_or_ne other (path ++ [name]) with rfl | ne
    · simp
    · simp [ne]
  nodup := by
    refine tree.nodup.cons fun member => ?_
    rw [tree.mem_paths, fresh] at member
    exact nomatch member
  root := by
    rw [Function.update_of_ne (List.append_ne_nil_of_right_ne_nil _ (List.cons_ne_nil _ _)).symm]
    exact tree.root
  parent := by
    intro other last present
    have up : tree.get? other = some inner := by
      rcases eq_or_ne (other ++ [last]) (path ++ [name]) with same | ne
      · rw [(List.append_inj' same rfl).1]
        exact inside
      · rw [Function.update_of_ne ne] at present
        exact tree.parent other last present
    rw [Function.update_of_ne, up]
    rintro rfl
    exact nomatch fresh.symm.trans up

end Insert

section Remove

/-- Remove a node with nothing below it. -/
def remove (path : List ν) (leaf : tree.names path = []) (below : path ≠ []) :
    PathTree ν κ inner where
  get? := Function.update tree.get? path none
  paths := tree.paths.filter (· ≠ path)
  mem_paths := by
    intro other
    rw [List.mem_filter, tree.mem_paths, decide_eq_true_eq]
    rcases eq_or_ne other path with rfl | ne
    · simp
    · simp [ne]
  nodup := tree.nodup.filter _
  root := by
    rw [Function.update_of_ne below.symm]
    exact tree.root
  parent := by
    intro other name present
    have kept : (tree.get? (other ++ [name])).isSome := by
      by_contra missing
      rw [Function.update_apply] at present
      split_ifs at present
      · exact nomatch present
      · exact missing present
    have ne : other ≠ path := by
      rintro rfl
      exact List.not_mem_nil (leaf ▸ mem_names.mpr kept)
    rw [Function.update_of_ne ne]
    exact tree.parent other name kept

variable {tree} {path : List ν} {leaf : tree.names path = []} {below : path ≠ []}

theorem get?_remove (other : List ν) :
    (tree.remove path leaf below).get? other = if other = path then none else tree.get? other :=
  Function.update_apply ..

end Remove

/-- Everything at a path and below has been removed, and nothing else. -/
def Pruned (path : List ν) (before after : PathTree ν κ inner) : Prop :=
  ∀ other, after.get? other = if path <+: other then none else before.get? other

/-- Everything at some names right below a path has been pruned. -/
def PrunedNames (path : List ν) (names : List ν) (before after : PathTree ν κ inner) : Prop :=
  ∀ other, after.get? other =
    if ∃ name ∈ names, (path ++ [name]) <+: other then none else before.get? other

section Pruning

variable {tree} {path : List ν} {before middle after : PathTree ν κ inner}

theorem PrunedNames.nil (path : List ν) (tree : PathTree ν κ inner) : PrunedNames path
    [] tree tree :=
  fun _ => (if_neg (by simp)).symm

theorem PrunedNames.snoc {names : List ν} {name : ν} (first : PrunedNames path names before middle)
    (second : Pruned (path ++ [name]) middle after) :
    PrunedNames path (names ++ [name]) before after := by
  intro other
  rw [second other, first other]
  simp only [List.mem_append, List.mem_singleton, or_and_right, exists_or, exists_eq_left]
  by_cases here : path ++ [name] <+: other
  · rw [if_pos here, if_pos (.inr here)]
  · rw [if_neg here]
    simp only [here, or_false]

theorem PrunedNames.part {names : List ν} (pruned : PrunedNames path names before after) :
    after.Part before := by
  intro other kind present
  rw [pruned other] at present
  exact (Option.ite_none_left_eq_some.mp present).2

theorem PrunedNames.get?_self {names : List ν} (pruned : PrunedNames path names before after) :
    after.get? path = before.get? path := by
  rw [pruned path, if_neg]
  rintro ⟨name, -, under⟩
  have short := under.length_le
  rw [List.length_append, List.length_singleton] at short
  omega

theorem PrunedNames.get?_snoc {names : List ν} (pruned : PrunedNames path names before after)
    (name : ν) : after.get? (path ++ [name]) =
      if name ∈ names then none else before.get? (path ++ [name]) := by
  have at_name : (∃ other ∈ names, path ++ [other] <+: path ++ [name]) ↔ name ∈ names := by
    simp only [List.prefix_append_right_inj, List.cons_prefix_cons, List.prefix_rfl, and_true,
      exists_eq_right]
  rw [pruned]
  exact if_congr at_name rfl rfl

theorem PrunedNames.mem_names {names : List ν} (pruned : PrunedNames path names before after)
    {name : ν} : name ∈ after.names path ↔ name ∈ before.names path ∧ name ∉ names := by
  rw [PathTree.mem_names, PathTree.mem_names, pruned.get?_snoc]
  split_ifs with removed
  · exact iff_of_false nofun fun kept => kept.2 removed
  · exact (and_iff_left removed).symm

theorem PrunedNames.names_eq_nil {names : List ν} (pruned : PrunedNames path names before after)
    (all : ∀ name ∈ before.names path, name ∈ names) : after.names path = [] := by
  refine List.eq_nil_iff_forall_not_mem.mpr fun name member => ?_
  obtain ⟨listed, kept⟩ := pruned.mem_names.mp member
  exact kept (all name listed)

theorem Pruned.part (pruned : Pruned path before after) : after.Part before := by
  intro other kind present
  rw [pruned other] at present
  exact (Option.ite_none_left_eq_some.mp present).2

theorem remove_pruned {leaf : tree.names path = []} {below : path ≠ []} :
    Pruned path tree (tree.remove path leaf below) := by
  intro other
  rw [get?_remove]
  by_cases under : path <+: other
  · rw [if_pos under]
    obtain ⟨rest, rfl⟩ := under
    cases rest with
    | nil => simp
    | cons name rest =>
      have missing : tree.get? (path ++ [name]) = none := by
        by_contra present
        exact List.not_mem_nil (leaf ▸ mem_names.mpr (Option.isSome_iff_ne_none.mpr present))
      have gone : tree.get? (path ++ [name] ++ rest) = none := get?_eq_none_of_append missing
      rw [List.append_assoc, List.singleton_append] at gone
      rw [gone, ite_self]
  · rw [if_neg under, if_neg]
    rintro rfl
    exact under (List.prefix_refl _)

/-- A node is pruned when some of what is below has been, and then the rest. -/
theorem PrunedNames.then_remove {names : List ν} (pruned : PrunedNames path names before middle)
    (removed : Pruned path middle after) :
    Pruned path before after := by
  intro other
  rw [removed other]
  split_ifs with under
  · rfl
  · rw [pruned other, if_neg]
    rintro ⟨name, -, inside⟩
    exact under ((List.prefix_append ..).trans inside)

end Pruning

end PathTree

end NodeKv.Machine
