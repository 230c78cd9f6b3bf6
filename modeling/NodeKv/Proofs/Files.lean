import NodeKv.Model.Files

/-! # Following paths

Where a path leads to, as a relation, and what the calls of `fs` do. A path that can be followed in a
part of a file system can be followed in all of it, to the same place. So while entries are removed,
paths go on to lead where they have led, or nowhere.
-/

namespace NodeKv.Files

open Machine

namespace FileSystem

/-- Going on from a place, with some number of links that may be followed, leads to another place,
with some number of links left. -/
inductive Leads (fs : FileSystem) : ℕ → Path → List Component → Path → ℕ → Prop
  | nil (links : ℕ) (place : Path) : Leads fs links place [] place links
  | up {links left : ℕ} {place last : Path} {rest : List Component}
      (inside : fs.get? place = some .directory) (onward : Leads fs links place.dropLast rest last left) :
      Leads fs links place (.up :: rest) last left
  | name {links left : ℕ} {place last : Path} {rest : List Component} {name : String} {kind : Kind}
      (inside : fs.get? place = some .directory) (entry : fs.get? (place ++ [name]) = some kind)
      (notLink : ∀ absolute target, kind ≠ .link absolute target)
      (onward : Leads fs links (place ++ [name]) rest last left) :
      Leads fs links place (.name name :: rest) last left
  | link {links left : ℕ} {place last : Path} {rest target : List Component} {name : String}
      {absolute : Bool} (inside : fs.get? place = some .directory)
      (entry : fs.get? (place ++ [name]) = some (.link absolute target))
      (onward : Leads fs links (if absolute then [] else place) (target ++ rest) last left) :
      Leads fs (links + 1) place (.name name :: rest) last left

variable {fs : FileSystem}

section Follow

variable {links left : ℕ} {place last : Path} {components : List Component}

/-- What becomes of a path at a symbolic link. -/
def jump (fs : FileSystem) : ℕ → Path → List Component → Except Errno (Path × ℕ)
  | 0 => fun _ _ => .error .eloop
  | links + 1 => follow fs links

private theorem follow_eq (fs : FileSystem) (links : ℕ) :
    follow fs links = followWith fs (jump fs links) links := by
  cases links with
  | zero => rfl
  | succ links => rfl

private theorem leads_of_followWith
    (jumps : ∀ place rest, jump fs links place rest = .ok (last, left) →
      ∃ fewer, links = fewer + 1 ∧ Leads fs fewer place rest last left)
    (followed : followWith fs (jump fs links) links place components = .ok (last, left)) :
    Leads fs links place components last left := by
  induction components generalizing place with
  | nil =>
    cases followed
    exact .nil ..
  | cons component rest ih =>
    simp only [followWith] at followed
    split_ifs at followed with inside
    replace inside := not_not.mp inside
    cases component with
    | up => exact .up inside (ih followed)
    | name name =>
      cases entry : fs.get? (place ++ [name]) with
      | none =>
        simp only [entry] at followed
        exact nomatch followed
      | some kind =>
        cases kind with
        | directory =>
          simp only [entry] at followed
          exact .name inside entry nofun (ih followed)
        | file =>
          simp only [entry] at followed
          exact .name inside entry nofun (ih followed)
        | link absolute target =>
          simp only [entry] at followed
          obtain ⟨fewer, rfl, onward⟩ := jumps _ _ followed
          exact .link inside entry onward

private theorem follow_eq_ok_iff : follow fs links place components = .ok (last, left) ↔
    Leads fs links place components last left := by
  constructor
  · intro followed
    rw [follow_eq] at followed
    induction links generalizing place components with
    | zero => exact leads_of_followWith (fun _ _ jumped => nomatch jumped) followed
    | succ links ih =>
      refine leads_of_followWith (fun place rest jumped => ⟨links, rfl, ih ?_⟩) followed
      rwa [← follow_eq]
  · intro leads
    induction leads with
    | nil links place =>
      rw [follow_eq]
      rfl
    | up inside _ ih =>
      rw [follow_eq] at ih ⊢
      simp only [followWith, inside, ne_eq, not_true_eq_false, if_false]
      exact ih
    | @name _ _ _ _ _ _ kind inside entry notLink _ ih =>
      rw [follow_eq] at ih ⊢
      simp only [followWith, inside, ne_eq, not_true_eq_false, if_false, entry]
      cases kind with
      | directory => exact ih
      | file => exact ih
      | link absolute target => exact absurd rfl (notLink absolute target)
    | link inside entry _ ih =>
      rw [follow_eq]
      simp only [followWith, inside, ne_eq, not_true_eq_false, if_false, entry]
      exact ih

end Follow

namespace Leads

variable {links left : ℕ} {place last : Path} {components : List Component}

/-- A path leads to one place only. -/
theorem unique (leads : Leads fs links place components last left) {last' : Path} {left' : ℕ}
    (leads' : Leads fs links place components last' left') : last' = last ∧ left' = left := by
  have same := (follow_eq_ok_iff.mpr leads').symm.trans (follow_eq_ok_iff.mpr leads)
  exact Prod.mk.inj (Except.ok.inj same)

private theorem left_le (leads : Leads fs links place components last left) : left ≤ links := by
  induction leads with
  | nil => exact le_rfl
  | up _ _ ih => exact ih
  | name _ _ _ _ ih => exact ih
  | link _ _ _ ih => omega

theorem mono (leads : Leads fs links place components last left) {whole : FileSystem}
    (part : fs.Part whole) : Leads whole links place components last left := by
  induction leads with
  | nil => exact .nil ..
  | up inside _ ih => exact .up (part _ _ inside) ih
  | name inside entry notLink _ ih => exact .name (part _ _ inside) (part _ _ entry) notLink ih
  | link inside entry _ ih => exact .link (part _ _ inside) (part _ _ entry) ih

theorem append (leads : Leads fs links place components last left) {rest : List Component}
    {end' : Path} {left' : ℕ} (onward : Leads fs left last rest end' left') :
    Leads fs links place (components ++ rest) end' left' := by
  induction leads with
  | nil => exact onward
  | up inside _ ih => exact .up inside (ih onward)
  | name inside entry notLink _ ih => exact .name inside entry notLink (ih onward)
  | link inside entry _ ih =>
    have joined := ih onward
    rw [List.append_assoc] at joined
    exact .link inside entry joined

theorem split {front rest : List Component}
    (leads : Leads fs links place (front ++ rest) last left) :
    ∃ middle between, Leads fs links place front middle between ∧
      Leads fs between middle rest last left := by
  generalize same : front ++ rest = whole at leads
  induction leads generalizing front with
  | nil links place =>
    obtain ⟨rfl, rfl⟩ := List.append_eq_nil_iff.mp same
    exact ⟨place, links, .nil .., .nil ..⟩
  | @up links left place last _ inside onward ih =>
    cases front with
    | nil =>
      rw [List.nil_append] at same
      subst same
      exact ⟨place, links, .nil .., .up inside onward⟩
    | cons first front =>
      obtain ⟨rfl, rfl⟩ := List.cons.inj same
      obtain ⟨middle, between, here, there⟩ := ih rfl
      exact ⟨middle, between, .up inside here, there⟩
  | @name links left place last _ _ _ inside entry notLink onward ih =>
    cases front with
    | nil =>
      rw [List.nil_append] at same
      subst same
      exact ⟨place, links, .nil .., .name inside entry notLink onward⟩
    | cons first front =>
      obtain ⟨rfl, rfl⟩ := List.cons.inj same
      obtain ⟨middle, between, here, there⟩ := ih rfl
      exact ⟨middle, between, .name inside entry notLink here, there⟩
  | @link links left place last _ target _ _ inside entry onward ih =>
    cases front with
    | nil =>
      rw [List.nil_append] at same
      subst same
      exact ⟨place, links + 1, .nil .., .link inside entry onward⟩
    | cons first front =>
      obtain ⟨rfl, rfl⟩ := List.cons.inj same
      obtain ⟨middle, between, here, there⟩ := ih (List.append_assoc ..)
      exact ⟨middle, between, .link inside entry here, there⟩

/-- What a path leads to exists. -/
theorem present (leads : Leads fs links place components last left)
    (here : (fs.get? place).isSome) : (fs.get? last).isSome := by
  induction leads with
  | nil => exact here
  | @up _ _ place _ _ inside _ ih =>
    apply ih
    rcases eq_or_ne place [] with rfl | below
    · exact here
    · rw [← List.dropLast_append_getLast below] at here
      rw [fs.parent _ _ here]
      rfl
  | name _ entry _ _ ih => exact ih (by rw [entry]; rfl)
  | @link _ _ _ _ _ _ _ absolute _ _ _ ih =>
    apply ih
    cases absolute with
    | true => exact fs.isSome_root
    | false => exact here

/-- A path to a directory goes from a directory. -/
theorem inside (leads : Leads fs links place components last left)
    (dir : fs.get? last = some .directory) : fs.get? place = some .directory := by
  cases leads with
  | nil => exact dir
  | up inside _ => exact inside
  | name inside _ _ _ => exact inside
  | link inside _ _ => exact inside

end Leads

/-- Following one name goes to the entry of this name, or costs a link. -/
theorem leads_name {links left : ℕ} {place last : Path} {name : String}
    (leads : Leads fs links place [.name name] last left) :
    fs.get? place = some .directory ∧
      ((∃ kind, fs.get? (place ++ [name]) = some kind ∧
          (∀ absolute target, kind ≠ .link absolute target) ∧ last = place ++ [name] ∧ left = links) ∨
        (∃ absolute target, fs.get? (place ++ [name]) = some (.link absolute target)) ∧
          left < links) := by
  cases leads with
  | name inside entry notLink onward =>
    cases onward
    exact ⟨inside, .inl ⟨_, entry, notLink, rfl, rfl⟩⟩
  | link inside entry onward =>
    exact ⟨inside, .inr ⟨⟨_, _, entry⟩, Nat.lt_succ_of_le onward.left_le⟩⟩

/-- Where a path from the root leads to. -/
abbrev Reaches (fs : FileSystem) (limit : ℕ) (path place : Path) (left : ℕ) : Prop :=
  Leads fs limit [] (path.map .name) place left

section Calls

variable {limit left : ℕ} {path place : Path} {name : String}

theorem Reaches.present (reaches : Reaches fs limit path place left) : (fs.get? place).isSome :=
  Leads.present reaches fs.isSome_root

theorem reaches_snoc :
    Reaches fs limit (path ++ [name]) place left ↔
      ∃ middle between, Reaches fs limit path middle between ∧
        Leads fs between middle [.name name] place left := by
  rw [Reaches, List.map_append]
  constructor
  · exact Leads.split
  · rintro ⟨middle, between, front, last⟩
    exact front.append last

private theorem resolve_eq_ok_iff : resolve fs limit path = .ok (place, left) ↔
    Reaches fs limit path place left :=
  follow_eq_ok_iff

/-- The path of a directory leads to it, without a link. -/
theorem reaches_self (limit : ℕ) (dir : fs.get? path = some .directory) :
    Reaches fs limit path path limit := by
  induction path using List.reverseRecOn with
  | nil => exact .nil ..
  | append_singleton front name ih =>
    have inside := fs.parent front name (by rw [dir]; rfl)
    exact reaches_snoc.mpr ⟨front, limit, ih inside, .name inside dir nofun (.nil ..)⟩

theorem locate_snoc :
    locate fs limit (path ++ [name]) = .ok place ↔
      ∃ middle between, Reaches fs limit path middle between ∧ place = middle ++ [name] ∧
        (fs.get? place).isSome := by
  rw [locate, List.getLast?_concat, List.dropLast_concat]
  simp only
  constructor
  · intro located
    split at located
    · exact nomatch located
    · next middle between resolved =>
      split_ifs at located with outside present
      cases located
      exact ⟨middle, between, resolve_eq_ok_iff.mp resolved, rfl, present⟩
  · rintro ⟨middle, between, reaches, rfl, present⟩
    rw [resolve_eq_ok_iff.mpr reaches]
    simp only [fs.parent _ _ present, ne_eq, not_true_eq_false, if_false, present, if_true]

theorem isDirectory_eq_ok_iff {answer : Bool} : isDirectory fs limit path = .ok answer ↔
    ∃ place left, Reaches fs limit path place left ∧
      (answer = true ↔ fs.get? place = some .directory) := by
  rw [isDirectory]
  constructor
  · intro asked
    split at asked
    · exact nomatch asked
    · next place left resolved =>
      cases asked
      exact ⟨place, left, resolve_eq_ok_iff.mp resolved, decide_eq_true_iff⟩
  · rintro ⟨place, left, reaches, same⟩
    rw [resolve_eq_ok_iff.mpr reaches]
    simp only [Except.ok.injEq]
    rw [Bool.eq_iff_iff, decide_eq_true_iff, same]

theorem list_eq_ok_iff {names : List String} : list fs limit path = .ok names ↔
    ∃ place left, Reaches fs limit path place left ∧ fs.get? place = some .directory ∧
      names = fs.names place := by
  rw [list]
  constructor
  · intro asked
    split at asked
    · exact nomatch asked
    · next place left resolved =>
      split_ifs at asked with inside
      cases asked
      exact ⟨place, left, resolve_eq_ok_iff.mp resolved, inside, rfl⟩
  · rintro ⟨place, left, reaches, inside, rfl⟩
    rw [resolve_eq_ok_iff.mpr reaches]
    simp only [inside, if_true]

/-- `unlink` takes the entry of its path away, unless this is a directory. -/
theorem unlink_of_locate (located : locate fs limit path = .ok place)
    (leaf : fs.get? place ≠ some .directory) :
    ∃ next, unlink fs limit path = .ok next ∧ PathTree.Pruned place fs next := by
  rw [unlink, located]
  simp only [dif_pos leaf]
  exact ⟨_, rfl, PathTree.remove_pruned⟩

private theorem unlink_eq_ok {next : FileSystem} (unlinked : unlink fs limit path = .ok next) :
    ∃ place, locate fs limit path = .ok place ∧ fs.get? place ≠ some .directory ∧
      PathTree.Pruned place fs next := by
  rw [unlink] at unlinked
  split at unlinked
  · exact nomatch unlinked
  · next place located =>
    split_ifs at unlinked with leaf
    cases unlinked
    exact ⟨place, located, leaf, PathTree.remove_pruned⟩

/-- `rmdir` takes an empty directory away. -/
theorem rmdir_of_locate (located : locate fs limit path = .ok place)
    (dir : fs.get? place = some .directory) (below : place ≠ []) (empty : fs.names place = []) :
    ∃ next, rmdir fs limit path = .ok next ∧ PathTree.Pruned place fs next := by
  rw [rmdir, located]
  simp only [dir, ne_eq, not_true_eq_false, if_false, dif_neg below, dif_pos empty]
  exact ⟨_, rfl, PathTree.remove_pruned⟩

private theorem rmdir_eq_ok {next : FileSystem} (removed : rmdir fs limit path = .ok next) :
    ∃ place, locate fs limit path = .ok place ∧ fs.get? place = some .directory ∧ place ≠ [] ∧
      fs.names place = [] ∧ PathTree.Pruned place fs next := by
  rw [rmdir] at removed
  split at removed
  · exact nomatch removed
  · next place located =>
    split_ifs at removed with outside root empty
    cases removed
    exact ⟨place, located, not_not.mp outside, root, empty, PathTree.remove_pruned⟩

end Calls

section Entries

variable {whole : FileSystem} {limit left : ℕ} {path place entry : Path} {name : String}

theorem isSome_of_locate (located : locate fs limit path = .ok place) :
    (fs.get? place).isSome := by
  induction path using List.reverseRecOn with
  | nil =>
    cases located
    exact fs.isSome_root
  | append_singleton front name _ =>
    obtain ⟨_, _, _, _, present⟩ := locate_snoc.mp located
    exact present

/-- The entry of a directory's own path is the directory. -/
theorem locate_self (limit : ℕ) (dir : fs.get? path = some .directory) :
    locate fs limit path = .ok path := by
  induction path using List.reverseRecOn with
  | nil => rfl
  | append_singleton front name _ =>
    have inside := fs.parent front name (by rw [dir]; rfl)
    exact locate_snoc.mpr ⟨front, limit, reaches_self limit inside, rfl, by rw [dir]; rfl⟩

theorem eq_of_locate (dir : fs.get? path = some .directory)
    (located : locate fs limit path = .ok place) : place = path :=
  Except.ok.inj (located.symm.trans (locate_self limit dir))

/-- Where the entry of a path is a directory, the path leads to it. -/
theorem reaches_of_locate (located : locate fs limit path = .ok place)
    (dir : fs.get? place = some .directory) : ∃ left, Reaches fs limit path place left := by
  induction path using List.reverseRecOn with
  | nil =>
    cases located
    exact ⟨limit, .nil ..⟩
  | append_singleton front name _ =>
    obtain ⟨middle, between, reaches, rfl, present⟩ := locate_snoc.mp located
    have inside := fs.parent middle name present
    exact ⟨between, reaches_snoc.mpr ⟨middle, between, reaches, .name inside dir nofun (.nil ..)⟩⟩

/-- What the entry of a path says about a place on the way. -/
theorem locate_through {todo : Path}
    (located : locate fs limit (path ++ name :: todo) = .ok place) :
    ∃ middle between, Reaches fs limit path middle between ∧
      (fs.get? (middle ++ [name])).isSome ∧
      (todo ≠ [] → isDirectory fs limit (path ++ [name]) = .ok true) := by
  rcases List.eq_nil_or_concat todo with rfl | ⟨front, final, rfl⟩
  · obtain ⟨middle, between, reaches, rfl, present⟩ := locate_snoc.mp located
    exact ⟨middle, between, reaches, present, fun more => absurd rfl more⟩
  · have longer : path ++ name :: (front ++ [final]) = path ++ [name] ++ front ++ [final] := by simp
    rw [List.concat_eq_append, longer] at located
    obtain ⟨last, left, reaches, rfl, present⟩ := locate_snoc.mp located
    rw [Reaches, List.map_append] at reaches
    obtain ⟨here, links, toHere, onward⟩ := reaches.split
    obtain ⟨middle, between, toMiddle, leads⟩ := reaches_snoc.mp toHere
    have inside := onward.inside (fs.parent last final present)
    refine ⟨middle, between, toMiddle, ?_, fun _ =>
      isDirectory_eq_ok_iff.mpr ⟨here, links, toHere, iff_of_true rfl inside⟩⟩
    obtain ⟨-, ⟨kind, entry, -⟩ | ⟨⟨absolute, target, entry⟩, -⟩⟩ := leads_name leads
    · rw [entry]
      rfl
    · rw [entry]
      rfl

theorem locate_mono (part : fs.Part whole) (located : locate fs limit path = .ok place) :
    locate whole limit path = .ok place := by
  induction path using List.reverseRecOn with
  | nil => exact located
  | append_singleton front name _ =>
    obtain ⟨middle, between, reaches, rfl, present⟩ := locate_snoc.mp located
    obtain ⟨kind, entry⟩ := Option.isSome_iff_exists.mp present
    exact locate_snoc.mpr ⟨middle, between, reaches.mono part, rfl, by rw [part _ _ entry]; rfl⟩

/-- An entry right below the path is right below the place it leads to. -/
theorem locate_below (part : fs.Part whole) (reaches : Reaches whole limit path place left)
    (located : locate fs limit (path ++ [name]) = .ok entry) : entry = place ++ [name] := by
  obtain ⟨middle, between, front, rfl, -⟩ := locate_snoc.mp located
  obtain ⟨rfl, -⟩ := reaches.unique (front.mono part)
  rfl

theorem isDirectory_mono {answer : Bool} (part : fs.Part whole)
    (asked : isDirectory fs limit path = .ok answer) :
    isDirectory whole limit path = .ok answer := by
  obtain ⟨place, left, reaches, same⟩ := isDirectory_eq_ok_iff.mp asked
  obtain ⟨kind, entry⟩ := Option.isSome_iff_exists.mp reaches.present
  rw [entry, ← part _ _ entry] at same
  exact isDirectory_eq_ok_iff.mpr ⟨place, left, reaches.mono part, same⟩

end Entries

end FileSystem

namespace Os

variable {os : Os} {α : Type} {work : FileSystem → Except Errno α} {state : State} {stuck : Prop}
  {normal : State → Prop} {thrown : Errno → State → Prop}

/-- The rule of a call. -/
theorem call_meets {next : α → Prog Errno State}
    (failed : ∀ error, os.fails state.calls = some error ∨ work state.fs = .error error →
      thrown error { state with calls := state.calls + 1 })
    (answered : ∀ answer, work state.fs = .ok answer →
      (next answer { state with calls := state.calls + 1 }).Meets stuck normal thrown) :
    (os.call work next state).Meets stuck normal thrown := by
  rw [call]
  cases fails : os.fails state.calls with
  | some error => exact failed error (.inl fails)
  | none =>
    cases ran : work state.fs with
    | error error => exact failed error (.inr ran)
    | ok answer => exact answered answer ran

theorem removeSub_eq (rmdir : Path → Prog Errno State) (dir : Path) (sub : String) :
    os.removeSub rmdir dir sub = os.statSync (dir ++ [sub]) fun isDirectory =>
      if isDirectory then rmdir (dir ++ [sub]) else os.unlinkSync (dir ++ [sub]) := by
  have always : dir ++ [sub] ≠ ["."] ∨ dir ++ [sub] ≠ [".."] := by
    by_contra neither
    rw [not_or, not_not, not_not] at neither
    exact absurd (neither.1.symm.trans neither.2) (by decide)
  simp only [removeSub, if_pos always]

theorem rmdir_succ (depth : ℕ) (dir : Path) :
    os.rmdir (depth + 1) dir = os.readdirSync dir fun list =>
      Prog.seq (Prog.forEach (os.removeSub (os.rmdir depth) dir) list) (os.rmdirSync dir) :=
  rfl

/-- A call that does not fail. -/
theorem call_eq {next : α → Prog Errno State} {answer : α} (fine : os.fails state.calls = none)
    (ran : work state.fs = .ok answer) :
    os.call work next state = next answer { state with calls := state.calls + 1 } := by
  simp only [call, fine, ran]

section Rules

variable {path : Path} (failed : ∀ error, thrown error { state with calls := state.calls + 1 })

include failed

theorem readdirSync_meets {next : List String → Prog Errno State}
    (listed : ∀ place left, state.fs.Reaches os.limit path place left →
      state.fs.get? place = some .directory →
      (next (os.order state.calls path (state.fs.names place))
        { state with calls := state.calls + 1 }).Meets stuck normal thrown) :
    (os.readdirSync path next state).Meets stuck normal thrown := by
  refine call_meets (fun error _ => failed error) ?_
  intro names answer
  obtain ⟨place, left, reaches, inside, rfl⟩ := FileSystem.list_eq_ok_iff.mp answer
  exact listed place left reaches inside

theorem unlinkSync_meets
    (unlinked : ∀ place next, state.fs.locate os.limit path = .ok place →
      state.fs.get? place ≠ some .directory → PathTree.Pruned place state.fs next →
      normal ⟨next, state.calls + 1⟩) :
    (os.unlinkSync path state).Meets stuck normal thrown := by
  refine call_meets (fun error _ => failed error) ?_
  intro next answer
  obtain ⟨place, located, leaf, pruned⟩ := FileSystem.unlink_eq_ok answer
  exact unlinked place next located leaf pruned

theorem rmdirSync_meets
    (removed : ∀ place next, state.fs.locate os.limit path = .ok place →
      state.fs.get? place = some .directory → place ≠ [] → state.fs.names place = [] →
      PathTree.Pruned place state.fs next → normal ⟨next, state.calls + 1⟩) :
    (os.rmdirSync path state).Meets stuck normal thrown := by
  refine call_meets (fun error _ => failed error) ?_
  intro next answer
  obtain ⟨place, located, inside, below, empty, pruned⟩ := FileSystem.rmdir_eq_ok answer
  exact removed place next located inside below empty pruned

/-- The rule of the loop's body; its test is true of every name. -/
theorem removeSub_meets {rmdir : Path → Prog Errno State} {sub : String}
    (nested : state.fs.isDirectory os.limit (path ++ [sub]) = .ok true →
      (rmdir (path ++ [sub]) { state with calls := state.calls + 1 }).Meets stuck normal thrown)
    (plain : state.fs.isDirectory os.limit (path ++ [sub]) = .ok false →
      (os.unlinkSync (path ++ [sub]) { state with calls := state.calls + 1 }).Meets stuck normal
        thrown) :
    (os.removeSub rmdir path sub state).Meets stuck normal thrown := by
  rw [removeSub_eq]
  refine call_meets (fun error _ => failed error) ?_
  intro answer asked
  cases answer with
  | true => exact nested asked
  | false => exact plain asked

end Rules

end Os

end NodeKv.Files
