import NodeKv.Proofs.Files

/-! # What removing a directory removes

`rmdir` always ends: a nested call is deeper in the tree, or has followed another symbolic link, of
which the operating system allows a bounded number. When it returns, its directory is gone with all
that was under it, and everything else is as before. When it throws, entries elsewhere can be gone:
a symbolic link to a directory is not removed, but entered. None are, in whatever order names are
listed, exactly when all that can be removed on a path through the directory lies under it.
-/

namespace NodeKv.Files

open Machine FileSystem

/-- No entry has been added or replaced. -/
def Shrunk (before after : State) : Prop := after.fs.Part before.fs

section Shrinking

variable {os : Os}

private theorem unlinkSync_keeps (path : Path) : Prog.Keeps Shrunk (os.unlinkSync path) := by
  intro state
  refine Os.unlinkSync_meets (fun _ => .refl _) ?_
  intro place next _ _ pruned
  exact pruned.part

private theorem rmdirSync_keeps (path : Path) : Prog.Keeps Shrunk (os.rmdirSync path) := by
  intro state
  refine Os.rmdirSync_meets (fun _ => .refl _) ?_
  intro place next _ _ _ _ pruned
  exact pruned.part

private theorem removeSub_keeps {rmdir : Path → Prog Errno State}
    (kept : ∀ path, Prog.Keeps Shrunk (rmdir path))
    (dir : Path) (sub : String) : Prog.Keeps Shrunk (os.removeSub rmdir dir sub) := by
  intro state
  exact Os.removeSub_meets (fun _ => .refl _) (fun _ => kept _ _) (fun _ => unlinkSync_keeps _ _)

private theorem shrunk_refl (state : State) : Shrunk state state := .refl _

private theorem shrunk_trans (first second third : State) (left : Shrunk first second)
    (right : Shrunk second third) : Shrunk first third :=
  right.trans left

/-- What is left to do of a directory once it has been listed. -/
theorem rest_keeps {rmdir : Path → Prog Errno State} (kept : ∀ path, Prog.Keeps Shrunk (rmdir path))
    (dir : Path) (subs : List String) :
    Prog.Keeps Shrunk (Prog.seq (Prog.forEach (os.removeSub rmdir dir) subs) (os.rmdirSync dir)) :=
  .seq shrunk_trans (.forEach shrunk_refl shrunk_trans (removeSub_keeps kept dir) subs)
    (rmdirSync_keeps dir)

private theorem rmdir_keeps (os : Os) (depth : ℕ) (path : Path) : Prog.Keeps Shrunk
    (os.rmdir depth path) := by
  refine Prog.nest_keeps ?_ depth path
  intro rmdir kept dir state
  refine Os.readdirSync_meets (fun _ => .refl _) ?_
  intro place left _ _
  exact rest_keeps kept dir _ _

end Shrinking

section Ending

/-- How deep calls can still be nested: down the tree between two links. -/
def rank (depth : ℕ) (place : Path) (left : ℕ) : ℕ := left * (depth + 1) + (depth - place.length)

private theorem rank_lt {fs : FileSystem} {depth links left : ℕ} {place last : Path} {name : String}
    (deepest : ∀ path, (fs.get? path).isSome → path.length ≤ depth)
    (leads : Leads fs links place [.name name] last left) :
    rank depth last left < rank depth place links := by
  obtain ⟨inside, ⟨kind, entry, -, rfl, rfl⟩ | ⟨-, fewer⟩⟩ := leads_name leads
  · have short := deepest (place ++ [name]) (by rw [entry]; rfl)
    rw [List.length_append, List.length_singleton] at short
    rw [rank, rank, List.length_append, List.length_singleton]
    omega
  · calc
      left * (depth + 1) + (depth - last.length) < left * (depth + 1) + (depth + 1) := by omega
      _ = (left + 1) * (depth + 1) := (Nat.succ_mul ..).symm
      _ ≤ links * (depth + 1) := Nat.mul_le_mul_right _ fewer
      _ ≤ rank depth place links := Nat.le_add_right ..

variable {os : Os} {whole : FileSystem} {bound : ℕ}

private theorem rmdir_ends (deepest : ∀ path, (whole.get? path).isSome → path.length ≤ bound)
    {depth : ℕ}
    {path place : Path} {left : ℕ} {state : State} (part : state.fs.Part whole)
    (reaches : Reaches whole os.limit path place left) (enough : rank bound place left < depth) :
    (os.rmdir depth path state).Meets False (fun next => next.fs.Part whole) fun _ _ => True := by
  induction depth generalizing path place left state with
  | zero => exact absurd enough (Nat.not_lt_zero _)
  | succ depth ih =>
    rw [Os.rmdir_succ]
    refine Os.readdirSync_meets (fun _ => trivial) fun _ _ _ _ => ?_
    refine Prog.seq_meets (Prog.forEach_meets (fun _ next => next.fs.Part whole) ?_ part) ?_
    · intro _ sub _ _ state part
      refine Os.removeSub_meets (fun _ => trivial) ?_ ?_
      · -- a nested call: the longer path leads on from where this one leads to
        intro asked
        obtain ⟨last, fewer, reaches', -⟩ := isDirectory_eq_ok_iff.mp asked
        obtain ⟨middle, between, front, leads⟩ := reaches_snoc.mp (reaches'.mono part)
        obtain ⟨rfl, rfl⟩ := reaches.unique front
        have lower := rank_lt deepest leads
        exact ih part (reaches'.mono part) (by omega)
      · intro _
        exact Os.unlinkSync_meets (fun _ => trivial) fun _ _ _ _ pruned => pruned.part.trans part
    · intro state part
      exact Os.rmdirSync_meets (fun _ => trivial) fun _ _ _ _ _ _ pruned => pruned.part.trans part

/-- `rmdir` ends, whatever its path, the order of listings and the failures of calls. -/
theorem rmdir_terminates (os : Os) (path : Path) (state : State) :
    Prog.Terminates os.rmdirBody path state := by
  obtain ⟨bound, deepest⟩ := state.fs.exists_depth
  by_cases leads : ∃ place left, Reaches state.fs os.limit path place left
  · obtain ⟨place, left, reaches⟩ := leads
    refine ⟨rank bound place left + 1, fun diverged => ?_⟩
    have ends := rmdir_ends deepest (.refl state.fs) reaches (Nat.lt_succ_self _)
    rw [Os.rmdir, diverged] at ends
    exact ends
  · refine ⟨1, fun diverged => ?_⟩
    have ends : (os.rmdir 1 path state).Meets False (fun _ => True) fun _ _ => True := by
      rw [Os.rmdir_succ]
      refine Os.readdirSync_meets (fun _ => trivial) fun place left reaches _ => ?_
      exact absurd ⟨place, left, reaches⟩ leads
    rw [Os.rmdir, diverged] at ends
    exact ends

end Ending

/-- What a call has done that returned: the directory of its path is pruned. -/
theorem rmdir_exact (os : Os) (depth : ℕ) (path : Path) (state : State) :
    (os.rmdir depth path state).Meets True
      (fun next => ∃ place, locate state.fs os.limit path = .ok place ∧
        state.fs.get? place = some .directory ∧ PathTree.Pruned place state.fs next.fs)
      fun _ _ => True := by
  induction depth generalizing path state with
  | zero => trivial
  | succ depth ih =>
    rw [Os.rmdir_succ]
    refine Os.readdirSync_meets (fun _ => trivial) fun place left reaches _ => ?_
    refine Prog.seq_meets (Prog.forEach_meets
      (fun done next => PathTree.PrunedNames place done state.fs next.fs) ?_ (.nil _ _)) ?_
    · intro done sub _ _ next pruned
      refine Os.removeSub_meets (fun _ => trivial) ?_ ?_
      · intro _
        refine (ih (path ++ [sub]) _).mono id ?_ fun _ _ => id
        rintro last ⟨entry, located, -, below⟩
        obtain rfl := locate_below pruned.part reaches located
        exact pruned.snoc below
      · intro _
        refine Os.unlinkSync_meets (fun _ => trivial) fun entry last located _ below => ?_
        obtain rfl := locate_below pruned.part reaches located
        exact pruned.snoc below
    · intro next pruned
      refine Os.rmdirSync_meets (fun _ => trivial) fun entry last located dir _ _ removed => ?_
      -- what `rmdirSync` has removed is what `readdirSync` had listed
      have here := pruned.part _ _ dir
      obtain ⟨between, reaches'⟩ := reaches_of_locate located dir
      obtain ⟨rfl, -⟩ := reaches.unique (reaches'.mono pruned.part)
      exact ⟨entry, locate_mono pruned.part located, here, pruned.then_remove removed⟩

/-- Entries that can be removed: what does not lead to a directory, and directories that are empty. -/
def Removable (fs : FileSystem) (limit : ℕ) (path place : Path) : Prop :=
  isDirectory fs limit path = .ok false ∨ (fs.get? place = some .directory ∧ fs.names place = [])

/-- Whatever can be removed on a path through the directory lies under it. -/
def Confined (fs : FileSystem) (limit : ℕ) (dir : Path) : Prop :=
  ∀ rest place, locate fs limit (dir ++ rest) = .ok place →
    Removable fs limit (dir ++ rest) place → dir <+: place

/-- Every entry outside the directory is as it was. -/
def Outside (dir : Path) (before after : FileSystem) : Prop :=
  ∀ path, ¬dir <+: path → after.get? path = before.get? path

section Frame

variable {os : Os} {whole : FileSystem} {dir : Path}

/-- Only entries of the directory have been removed. -/
def Spares (dir : Path) (whole : FileSystem) (state : State) : Prop :=
  state.fs.Part whole ∧ Outside dir whole state.fs

theorem Spares.prune {state : State} (spares : Spares dir whole state) {place : Path}
    (under : dir <+: place) {next : FileSystem} (pruned : PathTree.Pruned place state.fs next)
    (calls : ℕ) : Spares dir whole ⟨next, calls⟩ := by
  refine ⟨pruned.part.trans spares.1, fun path outside => ?_⟩
  rw [pruned path, if_neg fun below => outside (under.trans below)]
  exact spares.2 path outside

private theorem unlinkSync_spares (confined : Confined whole os.limit dir) (rest : Path)
    {state : State}
    (spares : Spares dir whole state)
    (asked : state.fs.isDirectory os.limit (dir ++ rest) = .ok false) :
    (os.unlinkSync (dir ++ rest) state).Meets True (Spares dir whole) fun _ => Spares dir whole := by
  refine Os.unlinkSync_meets (fun _ => spares) fun place next located _ pruned => ?_
  have under := confined rest place (locate_mono spares.1 located)
    (.inl (isDirectory_mono spares.1 asked))
  exact spares.prune under pruned _

/-- A path through the directory leads somewhere only while the directory exists. -/
theorem dir_of_locate {fs : FileSystem} {limit : ℕ} {rest place : Path} (part : fs.Part whole)
    (isDir : whole.get? dir = some .directory)
    (located : locate fs limit (dir ++ rest) = .ok place) : (fs.get? dir).isSome := by
  induction rest using List.reverseRecOn with
  | nil =>
    rw [List.append_nil] at located
    have present := isSome_of_locate located
    rwa [eq_of_locate isDir (locate_mono part located)] at present
  | append_singleton front name _ =>
    rw [← List.append_assoc] at located
    obtain ⟨middle, between, reaches, -, -⟩ := locate_snoc.mp located
    rw [Reaches, List.map_append] at reaches
    obtain ⟨here, links, toDir, -⟩ := reaches.split
    obtain ⟨rfl, -⟩ := (reaches_self limit isDir).unique (toDir.mono part)
    exact Reaches.present toDir

private theorem rmdirSync_spares (confined : Confined whole os.limit dir)
    (isDir : whole.get? dir = some .directory) (rest : Path) {state : State}
    (spares : Spares dir whole state) :
    (os.rmdirSync (dir ++ rest) state).Meets True (Spares dir whole) fun _ => Spares dir whole := by
  refine Os.rmdirSync_meets (fun _ => spares) fun place next located here _ empty pruned => ?_
  refine spares.prune ?_ pruned _
  by_contra outside
  -- an empty directory outside has been empty before: what is missing from it is under `dir`, which
  -- is still there
  refine outside (confined rest place (locate_mono spares.1 located)
    (.inr ⟨spares.1 _ _ here, List.eq_nil_iff_forall_not_mem.mpr fun name member => ?_⟩))
  have missing : state.fs.get? (place ++ [name]) = none := by
    by_contra present
    exact List.not_mem_nil (empty ▸ PathTree.mem_names.mpr (Option.isSome_iff_ne_none.mpr present))
  have removed : dir <+: place ++ [name] := by
    by_contra kept
    have present := PathTree.mem_names.mp member
    rw [← spares.2 _ kept, missing] at present
    exact nomatch present
  rcases List.prefix_concat_iff.mp removed with rfl | under
  · have present := dir_of_locate spares.1 isDir located
    rw [missing] at present
    exact nomatch present
  · exact outside under

private theorem rmdir_spares (confined : Confined whole os.limit dir)
    (isDir : whole.get? dir = some .directory) (depth : ℕ) (rest : Path) :
    Prog.Preserves (Spares dir whole) (os.rmdir depth (dir ++ rest)) := by
  induction depth generalizing rest with
  | zero => exact fun _ _ => trivial
  | succ depth ih =>
    intro state spares
    rw [Os.rmdir_succ]
    refine Os.readdirSync_meets (fun _ => spares) fun _ _ _ _ => ?_
    refine Prog.Preserves.seq (.forEach ?_ _) (fun _ => rmdirSync_spares confined isDir rest) _ spares
    intro sub state spares
    have longer : dir ++ rest ++ [sub] = dir ++ (rest ++ [sub]) := List.append_assoc ..
    refine Os.removeSub_meets (fun _ => spares) ?_ ?_
    · intro _
      rw [longer]
      exact ih (rest ++ [sub]) _ spares
    · intro asked
      rw [longer] at asked ⊢
      have spared : Spares dir whole { state with calls := state.calls + 1 } := spares
      exact unlinkSync_spares confined (rest ++ [sub]) spared asked

end Frame

section Straight

/-- List the name first that comes next on a path through the directory. -/
def nextFirst (dir rest path : Path) (names : List String) : List String :=
  match rest[path.length - dir.length]? with
  | some name => if name ∈ names then name :: names.erase name else names
  | none => names

/-- Nothing fails, and listings lead straight along a path through the directory. -/
def straight (limit : ℕ) (dir rest : Path) : Os where
  limit := limit
  order := fun _ => nextFirst dir rest
  order_perm := by
    intro _ path names
    rw [nextFirst]
    split
    · split_ifs with member
      · exact (List.perm_cons_erase member).symm
      · exact .refl _
    · exact .refl _
  fails := fun _ => none

private theorem straight_order (limit : ℕ) (dir rest path : Path) (call : ℕ) (names : List String) :
    (straight limit dir rest).order call path names = nextFirst dir rest path names :=
  rfl

private theorem nextFirst_eq (dir : Path) {rest done todo : Path} {name : String}
    {names : List String}
    (split : rest = done ++ name :: todo) (member : name ∈ names) :
    nextFirst dir rest (dir ++ done) names = name :: names.erase name := by
  have next : rest[(dir ++ done).length - dir.length]? = some name := by
    rw [List.length_append, Nat.add_sub_cancel_left, split, List.getElem?_append_right le_rfl,
      Nat.sub_self, List.getElem?_cons_zero]
  rw [nextFirst, next]
  exact if_pos member

variable {whole : FileSystem} {limit : ℕ} {dir rest place : Path}

/-- What has been removed stays so until the end of the call. -/
theorem gone_keeps {program : Prog Errno State} (keeps : Prog.Keeps Shrunk program) :
    Prog.Preserves (fun state => state.fs.get? place = none) program := by
  intro state gone
  exact (keeps state).mono id (fun _ shrunk => shrunk.get?_eq_none gone)
    fun _ _ shrunk => shrunk.get?_eq_none gone

/-- The end of the path: what can be removed is removed. -/
theorem removeSub_removes {depth : ℕ} {done : Path} {name : String} {os : Os}
    (fine : ∀ call, os.fails call = none) {state : State}
    (located : locate state.fs os.limit (done ++ [name]) = .ok place)
    (removable : Removable state.fs os.limit (done ++ [name]) place) :
    (os.removeSub (os.rmdir depth) done name state).Meets True
      (fun next => next.fs.get? place = none) fun _ next => next.fs.get? place = none := by
  have below : place ≠ [] := by
    obtain ⟨middle, between, -, rfl, -⟩ := locate_snoc.mp located
    exact List.append_ne_nil_of_right_ne_nil _ (List.cons_ne_nil _ _)
  have gone {next : FileSystem} (pruned : PathTree.Pruned place state.fs next) :
      next.get? place = none := by
    rw [pruned place, if_pos (List.prefix_refl _)]
  rw [Os.removeSub_eq]
  rcases removable with plain | ⟨inside, empty⟩
  · have leaf : state.fs.get? place ≠ some .directory := by
      intro inside
      obtain ⟨left, reaches⟩ := reaches_of_locate located inside
      obtain ⟨last, left', reaches', same⟩ := isDirectory_eq_ok_iff.mp plain
      obtain ⟨rfl, -⟩ := reaches.unique reaches'
      exact nomatch same.mpr inside
    obtain ⟨next, unlinked, pruned⟩ := unlink_of_locate located leaf
    rw [Os.statSync, Os.call_eq (fine _) plain, if_neg Bool.false_ne_true, Os.unlinkSync,
      Os.call_eq (fine _) unlinked]
    exact gone pruned
  · obtain ⟨left, reaches⟩ := reaches_of_locate located inside
    have asked : isDirectory state.fs os.limit (done ++ [name]) = .ok true :=
      isDirectory_eq_ok_iff.mpr ⟨place, left, reaches, iff_of_true rfl inside⟩
    have listed : list state.fs os.limit (done ++ [name]) = .ok [] :=
      list_eq_ok_iff.mpr ⟨place, left, reaches, inside, empty.symm⟩
    obtain ⟨next, removed, pruned⟩ := rmdir_of_locate located inside below empty
    rw [Os.statSync, Os.call_eq (fine _) asked, if_pos rfl]
    cases depth with
    | zero => trivial
    | succ depth =>
      rw [Os.rmdir_succ, Os.readdirSync, Os.call_eq (fine _) listed,
        (os.order_perm _ _ _).eq_nil]
      simp only [Prog.seq, Prog.forEach_nil]
      rw [Os.rmdirSync, Os.call_eq (fine _) removed]
      exact gone pruned

/-- Listings that lead straight to an entry that can be removed have it removed. -/
theorem straight_removes (located : locate whole limit (dir ++ rest) = .ok place)
    (removable : Removable whole limit (dir ++ rest) place) {done todo : Path}
    (split : rest = done ++ todo) (more : todo ≠ []) {state : State} (same : state.fs = whole)
    (depth : ℕ) :
    ((straight limit dir rest).rmdir depth (dir ++ done) state).Meets True
      (fun next => next.fs.get? place = none) fun _ next => next.fs.get? place = none := by
  induction todo generalizing done depth state with
  | nil => exact absurd rfl more
  | cons name todo ih =>
    cases depth with
    | zero => trivial
    | succ depth =>
      have longer : dir ++ rest = dir ++ done ++ name :: todo := by
        rw [split, List.append_assoc]
      have onward : rest = (done ++ [name]) ++ todo := by
        rw [split, List.append_assoc, List.singleton_append]
      subst same
      have located' := located
      rw [longer] at located'
      obtain ⟨middle, between, reaches, present, through⟩ := locate_through located'
      have listed : list state.fs limit (dir ++ done) = .ok (state.fs.names middle) :=
        list_eq_ok_iff.mpr ⟨middle, between, reaches, state.fs.parent middle name present, rfl⟩
      have ordered := nextFirst_eq dir split (PathTree.mem_names.mpr present)
      rw [Os.rmdir_succ, Os.readdirSync, Os.call_eq rfl listed]
      refine Prog.seq_meets ?_ (gone_keeps (rmdirSync_keeps _))
      rw [straight_order, ordered]
      refine Prog.seq_meets ?_ (gone_keeps (.forEach shrunk_refl shrunk_trans
        (removeSub_keeps (rmdir_keeps _ depth) _) _))
      rcases eq_or_ne todo [] with rfl | more
      · rw [longer] at located removable
        exact removeSub_removes (fun _ => rfl) located removable
      · rw [Os.removeSub_eq, Os.statSync, Os.call_eq rfl (through more), if_pos rfl,
          List.append_assoc]
        refine ih onward more ?_ depth
        rfl

end Straight

section Success

variable {os : Os} {whole : FileSystem} {bound : ℕ}

/-- There are no symbolic links in the directory. -/
def Linkless (fs : FileSystem) (dir : Path) : Prop :=
  ∀ path, dir <+: path → (fs.get? path).any Kind.isLink = false

theorem Linkless.below {fs : FileSystem} {dir : Path} (linkless : Linkless fs dir) {path : Path}
    (under : dir <+: path) : Linkless fs path :=
  fun other below => linkless other (under.trans below)

theorem Linkless.mono {fs : FileSystem} {dir : Path} (linkless : Linkless whole dir)
    (part : fs.Part whole) : Linkless fs dir := by
  intro path under
  cases entry : fs.get? path with
  | none => rfl
  | some kind => exact (part _ _ entry) ▸ linkless path under

/-- One entry of a directory is removed, with all that is below it. -/
theorem removeSub_succeeds (fine : ∀ call, os.fails call = none) {rmdir : Path → Prog Errno State}
    {dir : Path} {sub : String} {state : State} (isDir : state.fs.get? dir = some .directory)
    (present : (state.fs.get? (dir ++ [sub])).isSome) (linkless : Linkless state.fs dir)
    (nested : ∀ calls, state.fs.get? (dir ++ [sub]) = some .directory →
      (rmdir (dir ++ [sub]) ⟨state.fs, calls⟩).Meets False
        (fun next => PathTree.Pruned (dir ++ [sub]) state.fs next.fs) fun _ _ => False) :
    (os.removeSub rmdir dir sub state).Meets False
      (fun next => PathTree.Pruned (dir ++ [sub]) state.fs next.fs) fun _ _ => False := by
  obtain ⟨kind, entry⟩ := Option.isSome_iff_exists.mp present
  have plain := linkless (dir ++ [sub]) (List.prefix_append ..)
  rw [entry] at plain
  have notLink : ∀ absolute target, kind ≠ .link absolute target := by
    rintro absolute target rfl
    exact nomatch plain
  have leads : Leads state.fs os.limit dir [.name sub] (dir ++ [sub]) os.limit :=
    .name isDir entry notLink (.nil ..)
  have reaches := reaches_snoc.mpr ⟨dir, os.limit, reaches_self os.limit isDir, leads⟩
  have asked : isDirectory state.fs os.limit (dir ++ [sub]) = .ok (kind = .directory) :=
    isDirectory_eq_ok_iff.mpr ⟨_, _, reaches, by rw [entry, decide_eq_true_iff, Option.some_inj]⟩
  rw [Os.removeSub_eq, Os.statSync, Os.call_eq (fine _) asked]
  by_cases inner : kind = .directory
  · rw [if_pos (decide_eq_true inner)]
    exact nested _ (inner ▸ entry)
  · have located := locate_snoc.mpr ⟨dir, os.limit, reaches_self os.limit isDir, rfl, present⟩
    obtain ⟨next, unlinked, pruned⟩ := unlink_of_locate located fun inside =>
      inner (Option.some.inj (entry.symm.trans inside))
    rw [if_neg (mt of_decide_eq_true inner), Os.unlinkSync, Os.call_eq (fine _) unlinked]
    exact pruned

/-- A directory without symbolic links is removed, when no call fails. -/
theorem rmdir_succeeds (fine : ∀ call, os.fails call = none)
    (deepest : ∀ path, (whole.get? path).isSome → path.length ≤ bound) {depth : ℕ} {dir : Path}
    {state : State} (part : state.fs.Part whole) (isDir : state.fs.get? dir = some .directory)
    (below : dir ≠ []) (linkless : Linkless state.fs dir) (enough : bound - dir.length < depth) :
    (os.rmdir depth dir state).Meets False
      (fun next => PathTree.Pruned dir state.fs next.fs) fun _ _ => False := by
  induction depth generalizing dir state with
  | zero => exact absurd enough (Nat.not_lt_zero _)
  | succ depth ih =>
    have listed : list state.fs os.limit dir = .ok (state.fs.names dir) :=
      list_eq_ok_iff.mpr ⟨dir, os.limit, reaches_self os.limit isDir, isDir, rfl⟩
    have perm := os.order_perm state.calls dir (state.fs.names dir)
    rw [Os.rmdir_succ, Os.readdirSync, Os.call_eq (fine _) listed]
    refine Prog.seq_meets (Prog.forEach_meets_of_nodup
      (fun done next => PathTree.PrunedNames dir done state.fs next.fs)
      (perm.nodup_iff.mpr (state.fs.nodup_names dir)) ?_ (.nil _ _)) ?_
    · intro done sub member fresh next pruned
      have isDir' := pruned.get?_self.trans isDir
      have present := PathTree.mem_names.mp (pruned.mem_names.mpr ⟨perm.mem_iff.mp member, fresh⟩)
      have linkless' := linkless.mono pruned.part
      refine (removeSub_succeeds fine isDir' present linkless' ?_).mono id (fun _ => pruned.snoc)
        fun _ _ => id
      intro calls inner
      have short := deepest (dir ++ [sub]) (by rw [pruned.part.trans part _ _ inner]; rfl)
      refine ih (pruned.part.trans part) inner ?_ ?_ ?_
      · exact List.append_ne_nil_of_right_ne_nil _ (List.cons_ne_nil _ _)
      · exact linkless'.below (List.prefix_append ..)
      · rw [List.length_append, List.length_singleton] at short ⊢
        omega
    · intro next pruned
      have isDir' := pruned.get?_self.trans isDir
      have empty := pruned.names_eq_nil fun _ => perm.mem_iff.mpr
      obtain ⟨last, removed, gone⟩ :=
        rmdir_of_locate (locate_self os.limit isDir') isDir' below empty
      rw [Os.rmdirSync, Os.call_eq (fine _) removed]
      exact pruned.then_remove gone

end Success

section Outside

variable {state : State} {dir : Path} {limit : ℕ}

/-- No symbolic link in the directory leads to another directory. -/
def LeafLinks (fs : FileSystem) (limit : ℕ) (dir : Path) : Prop :=
  ∀ path ∈ fs.paths, dir <+: path → (fs.get? path).any Kind.isLink →
    isDirectory fs limit path ≠ .ok true

instance (fs : FileSystem) (limit : ℕ) (dir : Path) : Decidable (LeafLinks fs limit dir) :=
  inferInstanceAs (Decidable (∀ path ∈ fs.paths, _))

theorem LeafLinks.reaches {fs : FileSystem} (leaf : LeafLinks fs limit dir)
    (isDir : fs.get? dir = some .directory) {rest place : Path} {left : ℕ}
    (reaches : Reaches fs limit (dir ++ rest) place left)
    (inside : fs.get? place = some .directory) : place = dir ++ rest := by
  induction rest using List.reverseRecOn generalizing place left with
  | nil =>
    rw [List.append_nil] at reaches ⊢
    exact ((reaches_self limit isDir).unique reaches).1
  | append_singleton front name ih =>
    rw [← List.append_assoc] at reaches ⊢
    obtain ⟨middle, between, toMiddle, leads⟩ := reaches_snoc.mp reaches
    obtain ⟨up, ⟨kind, -, -, rfl, -⟩ | ⟨⟨absolute, target, entry⟩, -⟩⟩ := leads_name leads
    · rw [ih toMiddle up]
    · rw [ih toMiddle up] at entry
      have present : dir ++ front ++ [name] ∈ fs.paths := (fs.mem_paths _).mpr (by rw [entry]; rfl)
      refine absurd (isDirectory_eq_ok_iff.mpr ⟨place, left, reaches, iff_of_true rfl inside⟩)
        (leaf _ present ?_ (by rw [entry]; rfl))
      rw [List.append_assoc]
      exact List.prefix_append ..

theorem LeafLinks.confined {fs : FileSystem} (leaf : LeafLinks fs limit dir)
    (isDir : fs.get? dir = some .directory) : Confined fs limit dir := by
  intro rest place located _
  induction rest using List.reverseRecOn with
  | nil =>
    rw [List.append_nil] at located
    rw [eq_of_locate isDir located]
  | append_singleton front name _ =>
    rw [← List.append_assoc] at located
    obtain ⟨middle, between, reaches, rfl, present⟩ := locate_snoc.mp located
    rw [leaf.reaches isDir reaches (fs.parent middle name present), List.append_assoc]
    exact List.prefix_append ..

/-- In whatever order names are listed, and whichever calls fail, nothing is removed outside the
directory: exactly when this is so of all that can be removed on a path through it. -/
theorem outside_iff_confined (isDir : state.fs.get? dir = some .directory) :
    (∀ os : Os, os.limit = limit → ∀ depth next, (os.rmdir depth dir state).state? = some next →
        Outside dir state.fs next.fs) ↔
      Confined state.fs limit dir := by
  constructor
  · intro kept rest place located removable
    by_contra outside
    have more : rest ≠ [] := by
      rintro rfl
      rw [List.append_nil] at located
      rw [eq_of_locate isDir located] at outside
      exact outside (List.prefix_refl _)
    obtain ⟨depth, ends⟩ := rmdir_terminates (straight limit dir rest) dir state
    obtain ⟨next, left⟩ := Outcome.exists_state? ends
    have removes := straight_removes located removable (List.nil_append rest).symm more rfl depth
    rw [List.append_nil] at removes
    have gone := removes.state? left
    rw [kept _ rfl depth next left place outside] at gone
    have present := isSome_of_locate located
    rw [gone] at present
    exact nomatch present
  · rintro confined os rfl depth next left
    have spares := rmdir_spares confined isDir depth [] state ⟨.refl _, fun _ _ => rfl⟩
    rw [List.append_nil] at spares
    exact (spares.state? left).2

/-- `rmdir` of a directory ends, and when it returns, this directory and everything under it is gone
and everything else is unchanged. However it ends, nothing else has been removed, exactly when all
that can be removed on a path through the directory lies under it. -/
theorem rmdir_removes_subtree_iff (state : State) {dir : Path}
    (isDir : state.fs.get? dir = some .directory) (limit : ℕ) :
    (∀ os : Os, Prog.Terminates os.rmdirBody dir state) ∧
      (∀ (os : Os) depth next, os.rmdir depth dir state = .returned next →
        ∀ entry, next.fs.get? entry = if dir <+: entry then none else state.fs.get? entry) ∧
      ((∀ os : Os, os.limit = limit → ∀ depth next,
          (os.rmdir depth dir state).state? = some next →
          ∀ entry, ¬dir <+: entry → next.fs.get? entry = state.fs.get? entry) ↔
        Confined state.fs limit dir) := by
  refine ⟨fun os => rmdir_terminates os dir state, ?_, outside_iff_confined isDir⟩
  intro os depth next returned entry
  have exact := rmdir_exact os depth dir state
  rw [returned] at exact
  obtain ⟨place, located, -, pruned⟩ := exact
  rw [eq_of_locate isDir located] at pruned
  exact pruned entry

/-- A file `/o/f`, and a symbolic link `/d/l` with a path of its own. -/
def sample (target : List Component) : FileSystem :=
  ((((PathTree.bare String Kind.directory).insert
    [] "d" .directory rfl (by decide +kernel)).insert
    [] "o" .directory rfl (by decide +kernel)).insert
    ["o"] "f" .file (by decide +kernel) (by decide +kernel)).insert
    ["d"] "l" (.link true target) (by decide +kernel) (by decide +kernel)

/-- Calls do not fail, and names are listed as they are found. -/
def plain (limit : ℕ) : Os where
  limit := limit
  order := fun _ _ names => names
  order_perm := fun _ _ _ => .refl _
  fails := fun _ => none

/-- A symbolic link to a file elsewhere does no harm. -/
theorem rmdir_removes_subtree_of_link_to_file :
    (sample [.name "o", .name "f"]).get? ["d"] = some .directory ∧
      ∀ os : Os, os.limit = 40 → ∀ depth next,
        (os.rmdir depth ["d"] ⟨sample [.name "o", .name "f"], 0⟩).state? = some next →
        next.fs.get? ["o", "f"] = some .file := by
  have isDir : (sample [.name "o", .name "f"]).get? ["d"] = some .directory := by decide +kernel
  have leaf : LeafLinks (sample [.name "o", .name "f"]) 40 ["d"] := by decide +kernel
  have holds := rmdir_removes_subtree_iff ⟨sample [.name "o", .name "f"], 0⟩ isDir 40
  refine ⟨isDir, fun os limit depth next left => ?_⟩
  rw [holds.2.2.mpr (leaf.confined isDir) os limit depth next left ["o", "f"] (by decide)]
  decide +kernel

/-- A symbolic link to a directory is entered, and what this directory contains is removed. The call
then throws, for the link is no directory. -/
theorem rmdir_empties_linked_directory :
    (sample [.name "o"]).get? ["d"] = some .directory ∧
      (sample [.name "o"]).get? ["o", "f"] = some .file ∧ ¬["d"] <+: ["o", "f"] ∧
      ((plain 40).rmdir 3 ["d"] ⟨sample [.name "o"], 0⟩).error? = some .enotdir ∧
      ((plain 40).rmdir 3 ["d"] ⟨sample [.name "o"], 0⟩).state?.map
        (fun next => next.fs.get? ["o", "f"]) = some none := by
  decide +kernel

end Outside

end NodeKv.Files
