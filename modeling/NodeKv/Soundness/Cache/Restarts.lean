import NodeKv.Model.Cache.Stored
import NodeKv.Proofs.Cache.Refinement
import NodeKv.Soundness.Cache.Directories

/-! # The cache across restarts

What a cache is for needs no directories: it is closed with two generations, and opened with the
same two. The cache of the source finds them by the numbers of its directories, removes stale ones,
and rotates into a directory that it has just named. It refines the one without directories as long
as its numbers stay below 2^53, over any number of lives: every environment that a rotation opens is
empty, because its number has never been used, and the two largest numbers are those of the two
generations, whatever has been removed below them.
-/

namespace NodeKv.Cache

open Machine Directories

variable {D K V : Type*}

/-- A cache without directories. -/
inductive Durable (D K V : Type*) where
  | closed (cur old : Contents D K V)
  | running (state : State D K V)

namespace Durable

/-- The open cache. -/
def state? : Durable D K V → Option (State D K V)
  | closed _ _ => none
  | running state => some state

inductive Step [DecidableEq D] [DecidableEq K] (full : Full D K V) (size : JsNumber) :
    Durable D K V → Stored.Action D K V → Durable D K V → Prop
  | construct (cur old : Contents D K V) :
      Step full size (.closed cur old) .construct (.running (opened size cur old))
  | act {state next : State D K V} {action : Action D K V}
      (stepped : Cache.Step full state action next) :
      Step full size (.running state) (.act action) (.running next)
  | rmStale (durable : Durable D K V) : Step full size durable .rmStale durable
  | close (state : State D K V) : Step full size (.running state) .close
      (.closed (state.native state.host.curEnv) (state.native state.host.oldEnv))

end Durable

section Generations

variable {numbers fewer : Finset ℕ} {disk disk' : String → Contents D K V}

/-- The two generations in numbered directories: those with the largest numbers. A single one is
the old generation. -/
def generations (disk : String → Contents D K V) (numbers : Finset ℕ) :
    Contents D K V × Contents D K V :=
  match numbers.sort (· ≥ ·) with
  | [] => (fun _ => none, fun _ => none)
  | [only] => (fun _ => none, disk (toString only))
  | first :: second :: _ => (disk (toString first), disk (toString second))

/-- A set of numbers is empty, or a single number, or has two largest ones. -/
theorem largest_cases (numbers : Finset ℕ) :
    numbers = ∅ ∨ (∃ only, numbers = {only}) ∨ ∃ first second, Largest numbers first second := by
  have descending := (Finset.sortedGT_sort numbers).pairwise
  have same := Finset.sort_toFinset numbers (· ≥ ·)
  generalize numbers.sort (· ≥ ·) = list at descending same
  rcases list with _ | ⟨first, _ | ⟨second, rest⟩⟩
  · exact .inl same.symm
  · exact .inr (.inl ⟨first, same.symm⟩)
  · exact .inr (.inr ⟨first, second, same ▸ .of_descending descending⟩)

private theorem generations_of_largest {first second : ℕ} (largest : Largest numbers first second) :
    generations disk numbers = (disk (toString first), disk (toString second)) := by
  have descending := (Finset.sortedGT_sort numbers).pairwise
  have same := Finset.sort_toFinset numbers (· ≥ ·)
  have several := largest.one_lt_card
  rw [← Finset.length_sort (· ≥ ·)] at several
  unfold generations
  generalize numbers.sort (· ≥ ·) = list at descending same several
  rcases list with _ | ⟨first', _ | ⟨second', rest⟩⟩
  · contradiction
  · exact absurd several (lt_irrefl 1)
  · subst same
    obtain ⟨rfl, rfl⟩ := largest.unique (.of_descending descending)
    rfl

private theorem generations_single (disk : String → Contents D K V) (only : ℕ) :
    generations disk {only} = (fun _ => none, disk (toString only)) := by
  rw [generations, Finset.sort_singleton]

private theorem generations_empty (disk : String → Contents D K V) :
    generations disk ∅ = (fun _ => none, fun _ => none) := by
  rw [generations, Finset.sort_empty]

/-- The generations stay what they are if numbers go, but not the two largest ones. -/
theorem generations_congr (small : numbers.card ≤ 1 → fewer = numbers)
    (top : ∀ first second, Largest numbers first second → Largest fewer first second)
    (same : ∀ number ∈ fewer, disk' (toString number) = disk (toString number)) :
    generations disk' fewer = generations disk numbers := by
  obtain rfl | ⟨only, rfl⟩ | ⟨first, second, largest⟩ := largest_cases numbers
  · rw [small (by simp), generations_empty, generations_empty]
  · obtain rfl := small (by simp)
    rw [generations_single, generations_single, same only (Finset.mem_singleton_self only)]
  · have largest' := top first second largest
    rw [generations_of_largest largest', generations_of_largest largest,
      same first largest'.first_mem, same second largest'.second_mem]

end Generations

section Directories

variable {v8 : V8} {dirs next : Directories.State} {places names : List String} {dir : String}

private theorem rotate_grows (stepped : Directories.Step v8 dirs .rotate next) :
    dirs.dirs ⊆ next.dirs ∧
    dirs.used ⊆ next.used ∧ (dirs.dirs ⊆ dirs.used → next.dirs ⊆ next.used) := by
  obtain ⟨envs, listing, -, -, rfl⟩ := stepped
  unfold Directories.rotate
  split
  · exact ⟨Finset.subset_insert .., Finset.subset_insert .., Finset.insert_subset_insert _⟩
  · exact ⟨subset_rfl, subset_rfl, id⟩

private theorem construct_grows (stepped : Directories.Step v8 dirs .construct next)
    (present : dirs.dirs ⊆ dirs.used) : dirs.dirs ⊆ next.dirs ∧ next.dirs ⊆ next.used := by
  obtain ⟨-, listing, -, rfl⟩ := stepped
  unfold Directories.construct
  split
  · exact ⟨(Finset.subset_insert ..).trans (Finset.subset_insert ..),
      Finset.insert_subset_insert _ (Finset.insert_subset_insert _ present)⟩
  · exact ⟨subset_rfl, present⟩

/-- The environments of an open cache are in directories of their own, the last two in the current
and the old one. -/
structure Arranged (dirs : Directories.State) (places : List String) : Prop where
  kept : ∃ numbers, Kept dirs numbers
  present : dirs.dirs ⊆ dirs.used
  used : ∀ dir ∈ places, dir ∈ dirs.used
  nodup : places.Nodup
  ends : ∃ envs front, dirs.envs = some envs ∧ places = front ++ [envs.old.dir, envs.cur.dir]

theorem Arranged.opens (arranged : Arranged dirs places) (numerals : v8.Numerals)
    (opens : Opens v8 dirs dir next) (exact : Exact dirs .rotate) :
    Arranged next (places ++ [dir]) ∧ dir ∉ dirs.dirs := by
  obtain ⟨⟨numbers, kept⟩, present, used, nodup, envs, front, opened, rfl⟩ := arranged
  obtain ⟨stepped, named⟩ := opens
  obtain ⟨-, grown, kept_present⟩ := rotate_grows stepped
  obtain ⟨before, after, more, opened', reopened, moved, new, kept'⟩ :=
    kept.rotate numerals (fun number mem => exact number (kept.mem_dirs.mpr mem)) stepped
  obtain rfl := Option.some.inj (opened.symm.trans opened')
  rw [reopened, Option.map_some, Option.some.injEq] at named
  subst named
  rw [Finset.mem_union, not_or] at new
  obtain ⟨cur, old, dirs', largest⟩ := kept'.envs after reopened
  have here : after.cur.dir ∈ next.dirs := by
    rw [dirs'.cur]
    exact kept'.mem_dirs.mpr largest.first_mem
  refine ⟨⟨⟨more, kept'⟩, kept_present present, ?_, ?_, after, front ++ [envs.old.dir], reopened, ?_⟩,
    new.1⟩
  · intro dir mem
    rcases List.mem_append.mp mem with mem | mem
    · exact grown (used dir mem)
    · rw [List.mem_singleton.mp mem]
      exact kept_present present here
  · refine List.nodup_append.mpr ⟨nodup, List.nodup_singleton _, ?_⟩
    rintro dir mem _ added rfl
    rw [List.mem_singleton.mp added] at mem
    exact new.2 (used _ mem)
  · rw [moved, List.append_assoc, List.append_assoc]
    rfl

/-- The rotations of one action. -/
theorem Arranged.opens_all (arranged : Arranged dirs places) (numerals : v8.Numerals)
    (run : Runs (Opens v8) dirs names next) (exact : Exact next .rotate) :
    Arranged next (places ++ names) ∧ ∀ dir ∈ names, dir ∉ dirs.dirs := by
  have every : dirs.dirs ⊆ next.dirs ∧ (Exact next .rotate →
      Arranged next (places ++ names) ∧ ∀ dir ∈ names, dir ∉ dirs.dirs) := by
    refine run.preserves (fun names next => dirs.dirs ⊆ next.dirs ∧ (Exact next .rotate →
      Arranged next (places ++ names) ∧ ∀ dir ∈ names, dir ∉ dirs.dirs)) ⟨subset_rfl, ?_⟩ ?_
    · intro _
      rw [List.append_nil]
      exact ⟨arranged, by simp⟩
    · rintro names middle dir next ⟨grown, ih⟩ opens
      have more := (rotate_grows opens.1).1
      refine ⟨grown.trans more, fun exact => ?_⟩
      have before : Exact middle .rotate := fun number mem => exact number (more mem)
      obtain ⟨arranged, new⟩ := ih before
      obtain ⟨arranged', absent⟩ := arranged.opens numerals opens before
      rw [List.append_assoc] at arranged'
      refine ⟨arranged', ?_⟩
      intro other mem
      rcases List.mem_append.mp mem with mem | mem
      · exact new other mem
      · rw [List.mem_singleton.mp mem]
        exact fun present => absent (grown present)
  exact every.2 exact

/-- Both environments are in directories that exist. -/
theorem Directories.Kept.places_mem {numbers : Finset ℕ} (kept : Kept dirs numbers) {envs : Envs}
    (opened : dirs.envs = some envs) : envs.cur.dir ∈ dirs.dirs ∧ envs.old.dir ∈ dirs.dirs := by
  obtain ⟨cur, old, named, largest⟩ := kept.envs envs opened
  rw [named.cur, named.old]
  exact ⟨kept.mem_dirs.mpr largest.first_mem, kept.mem_dirs.mpr largest.second_mem⟩

/-- Over a single directory, that one becomes the old one. -/
theorem construct_single (numerals : v8.Numerals) {only : ℕ} (range : InRange only)
    (single : dirs.dirs = {toString only}) (stepped : Directories.Step v8 dirs .construct next)
    {envs : Envs} (opened : next.envs = some envs) : envs.old.dir = toString only := by
  obtain ⟨closed, listing, ⟨nodup, same⟩, rfl⟩ := stepped
  obtain rfl : listing = [toString only] := by
    have permuted := List.perm_of_nodup_nodup_toFinset_eq nodup (List.nodup_singleton (toString only))
    exact List.perm_singleton.mp (permuted (by rw [same, single]; rfl))
  have ordered : sorted v8 [toString only] = [toString only] := by
    have inRange : ∀ number ∈ [only], InRange number := by simpa using range
    have mapped := sorted_map numerals inRange
    rwa [List.mergeSort_singleton] at mapped
  have chosen : choose v8 none [toString only] =
      [toString only, following v8 (v8.parseInt (.text (toString only)))] := by
    rw [choose, ordered]
    rfl
  rw [Directories.construct, chosen] at opened
  obtain rfl := Option.some.inj opened
  rfl

end Directories

section Simulation

variable {v8 : V8} {full : Full D K V} {size : JsNumber} {stored next : Stored D K V}
  {durable : Durable D K V}

/-- The open cache is in its directories: the two that it has open hold what its generations have
committed. -/
structure Placed (size : JsNumber) (stored : Stored D K V) (opened : Opened D K V) : Prop where
  wellFormed : ∃ pair, Refines size opened.state pair
  count : opened.places.length = opened.state.host.next
  arranged : Arranged stored.dirs opened.places
  held : ∀ envs, stored.dirs.envs = some envs →
    stored.disk envs.cur.dir = opened.state.native opened.state.host.curEnv ∧
    stored.disk envs.old.dir = opened.state.native opened.state.host.oldEnv

/-- The cache in numbered directories is the durable one. -/
inductive Shows (size : JsNumber) (stored : Stored D K V) (numbers : Finset ℕ) :
    Durable D K V → Prop
  | closed (shut : stored.cache = none) (released : stored.dirs.envs = none) :
      Shows size stored numbers
        (.closed (generations stored.disk numbers).1 (generations stored.disk numbers).2)
  | running (opened : Opened D K V) (running : stored.cache = some opened)
      (placed : Placed size stored opened) : Shows size stored numbers (.running opened.state)

/-- What holds between the cache and the durable one along a run. -/
structure Survives (size : JsNumber) (stored : Stored D K V) (durable : Durable D K V) : Prop where
  absent : ∀ dir ∉ stored.dirs.dirs, stored.disk dir = fun _ => none
  present : stored.dirs.dirs ⊆ stored.dirs.used
  shows : ∃ numbers, Kept stored.dirs numbers ∧ Shows size stored numbers durable

theorem Survives.state? (survives : Survives size stored durable) :
    stored.cache.map Opened.state = durable.state? := by
  obtain ⟨-, -, numbers, -, shows⟩ := survives
  cases shows with
  | closed shut _ => rw [shut]; rfl
  | running opened running _ => rw [running]; rfl

theorem start_survives (size : JsNumber) {numbers : Finset ℕ}
    (inRange : ∀ number ∈ numbers, InRange number) (held : String → Contents D K V) :
    Survives size (.start numbers held) (.closed (generations held numbers).1
      (generations held numbers).2) := by
  have same : generations (Stored.start numbers held).disk numbers = generations held numbers :=
    generations_congr (fun _ => rfl) (fun _ _ => id) fun number mem =>
      if_pos (Finset.mem_image_of_mem _ mem)
  refine ⟨fun dir missing => if_neg missing, subset_rfl, numbers, start_kept inRange, ?_⟩
  rw [← same]
  exact .closed rfl rfl

/-- The constructor finds the two generations in the directories it chooses. -/
theorem construct_finds {dirs next : Directories.State} {numbers : Finset ℕ}
    {disk : String → Contents D K V} (numerals : v8.Numerals) (kept : Kept dirs numbers)
    (absent : ∀ dir ∉ dirs.dirs, disk dir = fun _ => none)
    (below : numbers.card = 1 → ∀ number ∈ numbers, number < 2 ^ 53)
    (stepped : Directories.Step v8 dirs .construct next) :
    ∃ envs, next.envs = some envs ∧ envs.old.dir ≠ envs.cur.dir ∧ (∃ more, Kept next more) ∧
      (disk envs.cur.dir, disk envs.old.dir) = generations disk numbers := by
  obtain ⟨envs, cur, old, more, opened, named, kept', same⟩ := kept.construct numerals below stepped
  have distinct : envs.old.dir ≠ envs.cur.dir := by
    obtain ⟨cur', old', named', largest⟩ := kept'.envs envs opened
    rw [named'.old, named'.cur]
    exact fun equal => largest.lt.ne (toString_injective equal)
  refine ⟨envs, opened, distinct, ⟨more, kept'⟩, ?_⟩
  obtain rfl | ⟨only, rfl⟩ | ⟨first, second, largest⟩ := largest_cases numbers
  · have missing : ∀ dir, dir ∉ dirs.dirs := by simp [kept.dirs]
    rw [generations_empty, absent _ (missing _), absent _ (missing _)]
  · have single : dirs.dirs = {toString only} := kept.dirs.trans (Finset.image_singleton ..)
    have inRange := kept.inRange only (Finset.mem_singleton_self only)
    have olds := construct_single numerals inRange single stepped opened
    have missing : envs.cur.dir ∉ dirs.dirs := by
      rw [single, Finset.mem_singleton, ← olds]
      exact distinct.symm
    rw [generations_single, olds, absent _ missing]
  · obtain ⟨rfl, rfl⟩ := same first second largest
    rw [generations_of_largest largest, named.cur, named.old]

private theorem idxOf?_of_nodup {list : List String} (nodup : list.Nodup) {index : ℕ} {dir : String}
    (here : list[index]? = some dir) : list.idxOf? dir = some index := by
  obtain ⟨lt, rfl⟩ := List.getElem?_eq_some_iff.mp here
  refine List.idxOf?_eq_some_iff.mpr ⟨lt, rfl, fun other before same => ?_⟩
  exact before.ne ((nodup.getElem_inj_iff).mp same)

/-- What an action has committed in the directories of the two generations. -/
theorem written_held {dirs : Directories.State} (opened : Opened D K V)
    (wellFormed : ∃ pair, Refines size opened.state pair)
    (count : opened.places.length = opened.state.host.next) (arranged : Arranged dirs opened.places)
    {envs : Envs} (here : dirs.envs = some envs) :
    stored.written dirs opened envs.cur.dir = opened.state.native opened.state.host.curEnv ∧
      stored.written dirs opened envs.old.dir = opened.state.native opened.state.host.oldEnv := by
  obtain ⟨pair, refines⟩ := wellFormed
  obtain ⟨numbers, kept⟩ := arranged.kept
  obtain ⟨envs', front, here', places⟩ := arranged.ends
  obtain rfl := Option.some.inj (here.symm.trans here')
  obtain ⟨curHere, oldHere⟩ := kept.places_mem here
  have nodup := arranged.nodup
  have epoch : front.length = pair.epoch := by
    rw [places, refines.next, List.length_append] at count
    simpa using count
  have cur : opened.places.idxOf? envs.cur.dir = some (pair.epoch + 1) := by
    refine idxOf?_of_nodup nodup ?_
    simp [places, ← epoch]
  have old : opened.places.idxOf? envs.old.dir = some pair.epoch := by
    refine idxOf?_of_nodup nodup ?_
    simp [places, ← epoch]
  simp only [Stored.written, curHere, oldHere, cur, old, refines.curEnv, refines.oldEnv, ↓reduceIte,
    and_self]

variable [DecidableEq D] [DecidableEq K]

/-- A cache is opened with the two generations it was closed with. -/
theorem Survives.construct (survives : Survives size stored durable) (numerals : v8.Numerals)
    (stepped : Stored.Step v8 full size stored .construct next) (exact : Exact next.dirs .rotate) :
    ∃ durable', Durable.Step full size durable .construct durable' ∧ Survives size next durable' := by
  obtain ⟨absent, present, numbers, kept, shows⟩ := survives
  obtain ⟨shut, released, listing, lists, rfl⟩ := stepped
  have constructed : Directories.Step v8 stored.dirs .construct
      (Directories.construct v8 listing stored.dirs) := ⟨released, listing, lists, rfl⟩
  obtain ⟨grown, present'⟩ := construct_grows constructed present
  obtain ⟨envs, opened, distinct, ⟨more, kept'⟩, found⟩ := construct_finds numerals kept absent
    (fun _ number mem => exact number (grown (kept.mem_dirs.mpr mem))) constructed
  cases shows with
  | running _ running _ => exact absurd (shut.symm.trans running) (by simp)
  | closed _ _ =>
    refine ⟨_, .construct _ _, fun dir missing => absent dir fun mem => missing (grown mem), present',
      more, kept', ?_⟩
    rw [← found]
    have here := kept'.places_mem opened
    refine .running ⟨Cache.opened size (stored.disk envs.cur.dir) (stored.disk envs.old.dir),
      [envs.old.dir, envs.cur.dir]⟩ ?_ ?_
    · simp only [Stored.construct, opened, Option.map_some]
    · refine ⟨⟨_, opened_refines size _ _⟩, rfl, ⟨⟨more, kept'⟩, present', ?_, ?_, envs, [], opened, rfl⟩,
        ?_⟩
      · intro dir mem
        rcases List.mem_pair.mp mem with rfl | rfl
        · exact present' here.2
        · exact present' here.1
      · simpa using distinct
      · intro envs' opened'
        obtain rfl := Option.some.inj (opened.symm.trans opened')
        exact ⟨rfl, rfl⟩

/-- A new directory is empty, so an action is one of the cache without directories. -/
theorem Survives.act (survives : Survives size stored durable) (numerals : v8.Numerals)
    {action : Action D K V} (stepped : Stored.Step v8 full size stored (.act action) next)
    (exact : Exact next.dirs .rotate) : ∃ durable',
      Durable.Step full size durable (.act action) durable' ∧ Survives size next durable' := by
  obtain ⟨absent, present, numbers, kept, shows⟩ := survives
  obtain ⟨opened, state, names, dirs, depth, open', ended, count, run, rfl⟩ := stepped
  cases shows with
  | closed shut _ => exact absurd (shut.symm.trans open') (by simp)
  | running opened' running placed =>
    obtain rfl := Option.some.inj (open'.symm.trans running)
    obtain ⟨arranged, new⟩ := placed.arranged.opens_all numerals run exact
    have empty : stored.found opened.state.host.next names = fun _ _ => none := by
      funext env
      unfold Stored.found
      split
      · rename_i dir named
        exact absent dir (new dir (List.mem_of_getElem? named))
      · rfl
    rw [empty, flushBatchOpsOn_empty] at ended
    have acted : (Cache.act full depth action opened.state).state? = some state := by
      cases action <;> exact ended
    obtain ⟨pair, refines⟩ := placed.wellFormed
    obtain ⟨pair', -, refines'⟩ := (act_refines full refines depth action).of_state? acted
    obtain ⟨more, kept'⟩ := arranged.kept
    have counted : (opened.places ++ names).length = state.host.next := by
      rw [List.length_append, placed.count, count]
    refine ⟨.running state, .act ⟨depth, acted⟩, fun dir missing => if_neg missing, arranged.present,
      more, kept', ?_⟩
    refine .running ⟨state, opened.places ++ names⟩ rfl ⟨⟨pair', refines'⟩, counted, arranged, ?_⟩
    intro envs here
    exact written_held ⟨state, opened.places ++ names⟩ ⟨pair', refines'⟩ counted arranged here

/-- With three directories at most, `rmStale` removes none. -/
theorem rmStale_few {dirs next : Directories.State} (few : dirs.dirs.card ≤ 3)
    (stepped : Directories.Step v8 dirs .rmStale next) : next.dirs = dirs.dirs := by
  obtain ⟨listing, ⟨nodup, same⟩, rfl⟩ := stepped
  have short : (sorted v8 listing).length ≤ 3 := by
    rw [sorted, List.length_mergeSort]
    refine (List.length_filter_le ..).trans ?_
    rwa [← List.toFinset_card_of_nodup nodup, same]
  have none : (sorted v8 listing).take ((sorted v8 listing).length - 3) = [] := by
    rw [Nat.sub_eq_zero_of_le short, List.take_zero]
  simp [Directories.rmStale, none]

theorem Survives.rmStale (survives : Survives size stored durable) (numerals : v8.Numerals)
    (stepped : Stored.Step v8 full size stored .rmStale next) : Survives size next durable := by
  obtain ⟨absent, present, numbers, kept, shows⟩ := survives
  obtain ⟨listing, lists, rfl⟩ := stepped
  have removed : Directories.Step v8 stored.dirs .rmStale
      (Directories.rmStale v8 listing stored.dirs) := ⟨listing, lists, rfl⟩
  obtain ⟨fewer, kept', same, top⟩ := kept.rmStale numerals removed
  have present' : (Directories.rmStale v8 listing stored.dirs).dirs ⊆ stored.dirs.used :=
    (Finset.filter_subset ..).trans present
  refine ⟨fun dir missing => if_neg missing, present', fewer, kept', ?_⟩
  cases shows with
  | closed shut released =>
    have small : numbers.card ≤ 1 → fewer = numbers := by
      intro few
      apply Finset.image_injective toString_injective
      rw [← kept'.dirs, ← kept.dirs]
      refine rmStale_few ?_ removed
      rw [kept.dirs]
      exact Finset.card_image_le.trans (few.trans (by decide))
    have generations' : generations (stored.rmStale v8 listing).disk fewer =
        generations stored.disk numbers :=
      generations_congr small top fun number mem => if_pos (kept'.mem_dirs.mpr mem)
    rw [← generations']
    exact .closed shut released
  | running opened running placed =>
    refine .running opened running ⟨placed.wellFormed, placed.count, ?_, ?_⟩
    · exact ⟨⟨fewer, kept'⟩, present', placed.arranged.used, placed.arranged.nodup, placed.arranged.ends⟩
    · intro envs here
      obtain ⟨curHere, oldHere⟩ := kept'.places_mem here
      rw [← (placed.held envs here).1, ← (placed.held envs here).2]
      exact ⟨if_pos curHere, if_pos oldHere⟩

theorem Survives.close (survives : Survives size stored durable)
    (stepped : Stored.Step v8 full size stored .close next) : ∃ durable',
      Durable.Step full size durable .close durable' ∧ Survives size next durable' := by
  obtain ⟨absent, present, numbers, kept, shows⟩ := survives
  obtain ⟨isOpen, rfl⟩ := stepped
  cases shows with
  | closed shut _ => exact absurd isOpen (by simp [shut])
  | running opened running placed =>
    obtain ⟨envs, front, here, -⟩ := placed.arranged.ends
    obtain ⟨cur, old, named, largest⟩ := kept.envs envs here
    obtain ⟨heldCur, heldOld⟩ := placed.held envs here
    refine ⟨_, .close opened.state, absent, present, numbers, kept.close, ?_⟩
    have same : generations stored.disk numbers =
        (opened.state.native opened.state.host.curEnv, opened.state.native opened.state.host.oldEnv) := by
      rw [generations_of_largest largest, ← heldCur, ← heldOld, named.cur, named.old]
    have shown : Shows size stored.close numbers (.closed (generations stored.disk numbers).1
        (generations stored.disk numbers).2) := .closed rfl rfl
    rwa [same] at shown

/-- The steps that leave numbers which can be counted on from. -/
def Stored.Counting (v8 : V8) (full : Full D K V) (size : JsNumber) (stored : Stored D K V)
    (action : Stored.Action D K V) (next : Stored D K V) : Prop :=
  Stored.Step v8 full size stored action next ∧ Exact next.dirs .rotate

theorem Survives.step (survives : Survives size stored durable) (numerals : v8.Numerals)
    {action : Stored.Action D K V} (stepped : Stored.Counting v8 full size stored action next) :
    ∃ durable', Durable.Step full size durable action durable' ∧ Survives size next durable' := by
  obtain ⟨stepped, exact⟩ := stepped
  cases action with
  | construct => exact survives.construct numerals stepped exact
  | act action => exact survives.act numerals stepped exact
  | rmStale => exact ⟨durable, .rmStale durable, survives.rmStale numerals stepped⟩
  | close => exact survives.close stepped

end Simulation

section Sample

/-- Numbers below 2^53 can be counted on from. -/
theorem exact_of_numbers {dirs : Directories.State} (numbers : Finset ℕ)
    (named : dirs.dirs = numbers.image toString) (below : ∀ number ∈ numbers, number < 2 ^ 53) :
    Exact dirs .rotate := by
  intro number mem
  rw [named, Finset.mem_image] at mem
  obtain ⟨other, member, same⟩ := mem
  exact toString_injective same ▸ below other member

private theorem sorted_basic (list : List ℕ) (inRange : ∀ number ∈ list, InRange number)
    (ascending : list.mergeSort (· ≤ ·) = list) :
    sorted V8.basic (list.map toString) = list.map toString := by
  rw [sorted_map V8.basic_numerals inRange, ascending]

/-- The directories of a cache that was opened in an empty one. -/
def firstDirs : Directories.State :=
  ⟨{"1", "2"}, some ⟨⟨.finite 2, "2"⟩, ⟨.finite 2, "1"⟩⟩, {"1", "2"}⟩

/-- The directories after a rotation. -/
def rotatedDirs : Directories.State :=
  ⟨{"3", "1", "2"}, some ⟨⟨.finite 3, "3"⟩, ⟨.finite 2, "2"⟩⟩, {"3", "1", "2"}⟩

private theorem construct_first : Directories.construct V8.basic [] (.start ∅) = firstDirs := by
  have two : V8.basic.parseInt (.text "2") = .finite 2 := V8.basic_numerals.parseInt 2 (by decide)
  have none : sorted V8.basic [] = [] := by simp [sorted]
  simp [Directories.construct, choose, none, two, State.mkdirp, State.start, firstDirs]

private theorem opens_third : Opens V8.basic firstDirs "3" rotatedDirs := by
  have three : V8.basic.parseInt (.text "3") = .finite 3 := V8.basic_numerals.parseInt 3 (by decide)
  have next : following V8.basic (.finite 2) = "3" := by
    have sum : (JsNumber.finite 2).plusOne = .finite 3 := by decide
    rw [following, sum]
    exact V8.basic_numerals.toText 3 (by decide)
  have pair : sorted V8.basic ["1", "2"] = ["1", "2"] :=
    sorted_basic [1, 2] (by simp [InRange]) (by simp [List.mergeSort])
  refine ⟨⟨_, ["1", "2"], rfl, ⟨by decide, rfl⟩, ?_⟩, rfl⟩
  simp [Directories.rotate, choose, pair, next, three, State.mkdirp, firstDirs, rotatedDirs]

private theorem construct_again :
    Directories.construct V8.basic ["1", "2", "3"] (Directories.close rotatedDirs) =
      ⟨rotatedDirs.dirs, some ⟨⟨.finite 3, "3"⟩, ⟨.finite 3, "2"⟩⟩, rotatedDirs.used⟩ := by
  have three : V8.basic.parseInt (.text "3") = .finite 3 := V8.basic_numerals.parseInt 3 (by decide)
  have triple : sorted V8.basic ["1", "2", "3"] = ["1", "2", "3"] :=
    sorted_basic [1, 2, 3] (by simp [InRange]) (by simp [List.mergeSort])
  simp [Directories.construct, Directories.close, choose, triple, three, State.mkdirp, rotatedDirs]

/-- The cache in it, with room for one entry in an environment. -/
def sample : Stored Unit Bool ℕ :=
  ⟨firstDirs, fun _ _ => none, some ⟨opened (.finite 1) (fun _ => none) fun _ => none, ["1", "2"]⟩⟩

private theorem first_exact : Exact firstDirs .rotate := exact_of_numbers {1, 2} (by decide)
    (by decide)

private theorem rotated_exact : Exact rotatedDirs .rotate := exact_of_numbers {3, 1, 2} (by decide)
    (by decide)

/-- A put for which there is no room beside the first one: it is in the new directory. -/
theorem sample_puts : ∃ (between stored : Stored Unit Bool ℕ) (final : State Unit Bool ℕ),
    Stored.Counting V8.basic oneEntry (.finite 1) sample (.act (.put () false 7)) between ∧
    Stored.Counting V8.basic oneEntry (.finite 1) between (.act (.put () true 8)) stored ∧
    stored.dirs = rotatedDirs ∧ stored.cache = some ⟨final, ["1", "2", "3"]⟩ ∧
    (stored.disk "2" ((), false) = some 7 ∧ stored.disk "3" ((), false) = none ∧
      stored.disk "3" ((), true) = some 8) ∧
    final.batchOps final.host.curEnv = [] ∧ final.batchOps final.host.oldEnv = [] ∧
    final.host.rotations.map Rotation.ops = [[⟨(), .put true 8, some ()⟩]] := by
  let put (key : Bool) (val : ℕ) (state : State Unit Bool ℕ) :=
    (actBy (flushBatchOpsOn oneEntry (fun _ _ => none) 3) (.put () key val) state).state?
  let ran {β : Type} (seen : State Unit Bool ℕ → State Unit Bool ℕ → β) : Option β :=
    (put false 7 (opened (.finite 1) (fun _ => none) fun _ => none)).bind fun middle =>
      (put true 8 middle).map fun final => seen middle final
  have contents : ran (fun middle final => ([middle.host.next, final.host.next],
      [final.native 1 ((), false), final.native 2 ((), false), final.native 2 ((), true)])) =
      some ([2, 3], [some 7, none, some 8]) := by decide +kernel
  have queued : ran (fun _ final => [final.batchOps final.host.curEnv,
      final.batchOps final.host.oldEnv] ++ final.host.rotations.map Rotation.ops) =
      some [[], [], [⟨(), .put true 8, some ()⟩]] := by decide +kernel
  obtain ⟨middle, putting, rest⟩ := Option.bind_eq_some_iff.mp contents
  obtain ⟨final, rotating, values⟩ := Option.map_eq_some_iff.mp rest
  simp only [ran, putting, rotating, Option.bind_some, Option.map_some, Option.some.injEq,
    Prod.mk.injEq, List.cons_append, List.nil_append, List.cons.injEq, and_true] at values queued
  obtain ⟨⟨two, three⟩, seven, absent, eight⟩ := values
  let between : Stored Unit Bool ℕ := ⟨firstDirs, sample.written firstDirs ⟨middle, ["1", "2"]⟩,
    some ⟨middle, ["1", "2"]⟩⟩
  have nothing (next : ℕ) : sample.found next [] = fun _ _ => none := rfl
  have empty : between.found 2 ["3"] = fun _ _ => none := by
    funext env
    unfold Stored.found
    split
    · rename_i dir named
      obtain rfl := List.mem_singleton.mp (List.mem_of_getElem? named)
      rfl
    · rfl
  refine ⟨between, ⟨rotatedDirs, between.written rotatedDirs ⟨final, ["1", "2", "3"]⟩,
    some ⟨final, ["1", "2", "3"]⟩⟩, final, ?_, ?_, rfl, rfl, ?_, queued⟩
  · refine ⟨⟨_, middle, [], firstDirs, 3, rfl, ?_, two, .nil, rfl⟩, first_exact⟩
    rw [nothing]
    exact putting
  · refine ⟨⟨_, final, ["3"], rotatedDirs, 3, rfl, ?_, ?_, .snoc .nil opens_third, rfl⟩, rotated_exact⟩
    · rw [two, empty]
      exact rotating
    · rw [two, three]
      rfl
  · simp [Stored.written, rotatedDirs, List.idxOf?_cons, seven, absent, eight]

theorem sample_opening : Stored.Counting V8.basic oneEntry (.finite 1) (.start ∅ fun _ _ => none)
    .construct sample := by
  refine ⟨⟨rfl, rfl, [], ⟨List.nodup_nil, rfl⟩, ?_⟩, first_exact⟩
  simp [Stored.construct, Stored.start, construct_first, sample, firstDirs]

/-- The sample is closed and opened again. -/
theorem sample_restart {stored : Stored Unit Bool ℕ} (dirs : stored.dirs = rotatedDirs)
    (isOpen : stored.cache.isSome) :
    Stored.Counting V8.basic oneEntry (.finite 1) stored .close stored.close ∧
    ∃ next, Stored.Counting V8.basic oneEntry (.finite 1) stored.close .construct next ∧
      next.cache = some ⟨opened (.finite 1) (stored.disk "3") (stored.disk "2"), ["2", "3"]⟩ := by
  have closed : stored.close.dirs = Directories.close rotatedDirs := congrArg Directories.close dirs
  have again : (stored.close.construct V8.basic (.finite 1) ["1", "2", "3"]).dirs =
      ⟨rotatedDirs.dirs, some ⟨⟨.finite 3, "3"⟩, ⟨.finite 3, "2"⟩⟩, rotatedDirs.used⟩ :=
    (congrArg (Directories.construct V8.basic _) closed).trans construct_again
  refine ⟨⟨⟨isOpen, rfl⟩, ?_⟩, stored.close.construct V8.basic (.finite 1) ["1", "2", "3"],
    ⟨⟨rfl, rfl, ["1", "2", "3"], ⟨by decide, ?_⟩, rfl⟩, ?_⟩, ?_⟩
  · rw [closed]
    exact rotated_exact
  · rw [closed]
    decide
  · rw [again]
    exact rotated_exact
  · show (stored.close.construct V8.basic (.finite 1) ["1", "2", "3"]).dirs.envs.map _ = _
    rw [again]
    rfl

end Sample

/-- Over any number of lives, with stale directories removed at any time, the cache is one that
needs no directories: each life goes on with the generations that the one before has left. -/
theorem cache_survives_restarts {v8 : V8} (numerals : v8.Numerals) [DecidableEq D] [DecidableEq K]
    {full : Full D K V}
    {size : JsNumber} {numbers : Finset ℕ} (canonical : ∀ number ∈ numbers, InRange number)
    (held : String → Contents D K V) {actions : List (Stored.Action D K V)} {stored : Stored D K V}
    (run : Runs (Stored.Counting v8 full size) (.start numbers held) actions stored) :
    ∃ durable, Runs (Durable.Step full size)
      (.closed (generations held numbers).1 (generations held numbers).2) actions durable ∧
      stored.cache.map Opened.state = durable.state? := by
  have steps : ∀ (stored : Stored D K V) (durable : Durable D K V) action next,
      Survives size stored durable → True → Stored.Counting v8 full size stored action next →
      ∃ durable', Durable.Step full size durable action durable' ∧ Survives size next durable' :=
    fun _ _ _ _ survives _ stepped => survives.step numerals stepped
  obtain ⟨durable, run', survives⟩ :=
    run.simulate (start_survives size canonical held) steps fun _ _ => trivial
  exact ⟨durable, run', survives.state?⟩

/-- A cache in an empty directory puts two values, of which the second has no room beside the
first. After a rotation and a restart it has both. -/
theorem cache_survives_restart_after_rotation :
    ∃ (stored : Stored Unit Bool ℕ) (durable : Durable Unit Bool ℕ),
    Runs (Stored.Counting V8.basic oneEntry (.finite 1)) (.start ∅ fun _ _ => none)
      [.construct, .act (.put () false 7), .act (.put () true 8), .close, .construct] stored ∧
    Runs (Durable.Step oneEntry (.finite 1)) (.closed (fun _ => none) fun _ => none)
      [.construct, .act (.put () false 7), .act (.put () true 8), .close, .construct] durable ∧
    stored.cache.map Opened.state = durable.state? ∧
    (stored.cache.map fun opened => [get (fun _ => true) opened.state () false,
      get (fun _ => true) opened.state () true]) = some [some 7, some 8] := by
  obtain ⟨between, stored, final, first, second, dirs, cached, ⟨seven, absent, eight⟩, -⟩ := sample_puts
  obtain ⟨closing, next, reopening, found⟩ := sample_restart dirs (by rw [cached]; rfl)
  have complete := Runs.snoc (.snoc (.snoc (.snoc (.snoc .nil sample_opening) first) second) closing)
    reopening
  obtain ⟨durable, run', same⟩ := cache_survives_restarts V8.basic_numerals (by simp) _ complete
  rw [generations_empty] at run'
  refine ⟨next, durable, complete, run', same, ?_⟩
  rw [found]
  simp [get, opened, seven, absent, eight]

end NodeKv.Cache
