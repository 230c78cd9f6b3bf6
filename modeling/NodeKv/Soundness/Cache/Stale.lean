import NodeKv.Soundness.Files

/-! # Stale directories on the file system

The model of the cache's directories knows them by their names, and `rmStale` takes the names of the
stale ones out. On the file system it calls `rmdir` for each of them. When it returns, the names in
`opt.dir` are those of the model, and nothing else has changed. It does return when no call fails and
there are only directories and regular files in what is stale.
-/

namespace NodeKv.Files

open Machine FileSystem

variable {v8 : V8} {os : Os} {state : State} {dir : Path}

private theorem stale_nodup (v8 : V8) {listing : List String} (nodup : listing.Nodup) :
    (Os.stale v8 listing).Nodup := by
  refine List.Nodup.sublist (List.take_sublist ..) ?_
  exact (List.mergeSort_perm _ _).nodup_iff.mpr (nodup.filter _)

/-- What the call lists. -/
def listing (os : Os) (state : State) (dir : Path) : List String :=
  os.order state.calls dir (state.fs.names dir)

private theorem nodup_listing (os : Os) (state : State) (dir : Path) :
    (listing os state dir).Nodup :=
  (os.order_perm ..).nodup_iff.mpr (state.fs.nodup_names dir)

private theorem mem_listing {sub : String} :
    sub ∈ listing os state dir ↔ sub ∈ state.fs.names dir :=
  (os.order_perm ..).mem_iff

private theorem rmStale_exact (isDir : state.fs.get? dir = some .directory) (v8 : V8) (os : Os)
    (depth : ℕ) :
    (os.rmStale v8 depth dir state).Meets True
      (fun next => PathTree.PrunedNames dir (Os.stale v8 (listing os state dir)) state.fs next.fs)
      fun _ _ => True := by
  have reaches := reaches_self os.limit isDir
  refine Os.readdirSync_meets (fun _ => trivial) fun place left reaches' _ => ?_
  obtain ⟨rfl, -⟩ := reaches.unique reaches'
  refine Prog.forEach_meets
    (fun done (next : State) => PathTree.PrunedNames place done state.fs next.fs) ?_ (.nil _ _)
  intro done sub _ _ next pruned
  refine (rmdir_exact os depth (place ++ [sub]) next).mono id ?_ fun _ _ => id
  rintro last ⟨entry, located, -, below⟩
  obtain rfl := locate_below pruned.part reaches located
  exact pruned.snoc below

/-- A call that returns is a step of the cache's directories, and leaves everything alone that is
not in a stale one. -/
theorem rmStale_refines (isDir : state.fs.get? dir = some .directory) {depth : ℕ} {next : State}
    (returned : os.rmStale v8 depth dir state = .returned next)
    {cache : Cache.Directories.State} (same : cache.dirs = (state.fs.names dir).toFinset) :
    ∃ after, Cache.Directories.Step v8 cache .rmStale after ∧
      after.dirs = (next.fs.names dir).toFinset ∧
      ∀ entry, (∀ sub ∉ after.dirs, ¬dir ++ [sub] <+: entry) →
        next.fs.get? entry = state.fs.get? entry := by
  have pruned := rmStale_exact isDir v8 os depth
  rw [returned] at pruned
  have after : ((Cache.Directories.rmStale v8 (listing os state dir) cache).dirs) =
      (next.fs.names dir).toFinset := by
    ext sub
    rw [List.mem_toFinset, pruned.mem_names]
    simp [Cache.Directories.rmStale, same, Os.stale]
  refine ⟨_, ⟨listing os state dir, ⟨nodup_listing os state dir, ?_⟩, rfl⟩, after, ?_⟩
  · ext sub
    rw [same, List.mem_toFinset, List.mem_toFinset, mem_listing]
  · intro entry outside
    rw [pruned entry, if_neg]
    rintro ⟨sub, member, under⟩
    refine outside sub ?_ under
    rw [after, List.mem_toFinset, pruned.mem_names]
    exact fun kept => kept.2 member

/-- `rmStale` returns when the stale directories have no symbolic links and no call fails. -/
theorem rmStale_returns (fine : ∀ call, os.fails call = none)
    (isDir : state.fs.get? dir = some .directory) (v8 : V8)
    (ordinary : ∀ sub ∈ Os.stale v8 (listing os state dir),
      state.fs.get? (dir ++ [sub]) = some .directory ∧ Linkless state.fs (dir ++ [sub])) :
    ∃ depth next, os.rmStale v8 depth dir state = .returned next := by
  obtain ⟨bound, deepest⟩ := state.fs.exists_depth
  have listed : list state.fs os.limit dir = .ok (state.fs.names dir) :=
    list_eq_ok_iff.mpr ⟨dir, os.limit, reaches_self os.limit isDir, isDir, rfl⟩
  have meets : (os.rmStale v8 (bound + 1) dir state).Meets False
      (fun next => PathTree.PrunedNames dir (Os.stale v8 (listing os state dir)) state.fs next.fs)
      fun _ _ => False := by
    rw [Os.rmStale, Os.readdirSync, Os.call_eq (fine _) listed]
    refine Prog.forEach_meets_of_nodup
      (fun done (next : State) => PathTree.PrunedNames dir done state.fs next.fs)
      (stale_nodup v8 (nodup_listing os state dir)) ?_ (.nil _ _)
    intro done sub member fresh next pruned
    obtain ⟨inner, linkless⟩ := ordinary sub member
    have inner' : next.fs.get? (dir ++ [sub]) = some .directory := by
      rw [pruned.get?_snoc, if_neg fresh, inner]
    refine (rmdir_succeeds fine deepest pruned.part inner' ?_ (linkless.mono pruned.part) ?_).mono id
      (fun _ => pruned.snoc) fun _ _ => id
    · exact List.append_ne_nil_of_right_ne_nil _ (List.cons_ne_nil _ _)
    · omega
  obtain ⟨next, returned, -⟩ := meets.returns
  exact ⟨_, next, returned⟩

end NodeKv.Files
