import Mathlib
import NodeKv.Machine.Largest
import NodeKv.Model.Cache.Directories

/-! # Which directories hold the generations

While the cache is open, its current and old environment are in the two directories with the
largest numbers; every rotation moves on to a number that has never been used, `rmStale` leaves
both alone, and a cache that is closed and opened again finds the same two. All of this is about
the numbers that the names denote, and holds as long as no number is counted on from 2^53: there
the sum is rounded back, and one directory is opened twice.
-/

namespace NodeKv

/-- The script engine reads and prints numbers up to 2^53 in decimal. -/
structure V8.Numerals (v8 : V8) : Prop where
  parseInt : ∀ number : ℕ, number ≤ 2 ^ 53 →
    v8.parseInt (.text (toString number)) = .finite number
  toNumber : ∀ number : ℕ, number ≤ 2 ^ 53 →
    v8.toNumber (.text (toString number)) = .finite number
  toText : ∀ number : ℕ, number ≤ 2 ^ 53 →
    v8.toText (.number (.finite number)) = toString number

theorem V8.basic_integer (number : ℕ) :
    V8.basic.integer (.text (toString number)) = .finite number := by
  have parsed : (toString number).toInt? = some (number : ℤ) := Int.toInt?_repr number
  simp only [V8.basic.integer, parsed, Int.cast_natCast]

theorem V8.basic_numerals : V8.basic.Numerals where
  parseInt number _ := V8.basic_integer number
  toNumber number _ := V8.basic_integer number
  toText number _ := by
    simp only [V8.basic, Rat.num_natCast]
    rfl

namespace Cache.Directories

open Machine

theorem toString_injective : Function.Injective (toString : ℕ → String) :=
  fun _ _ => Nat.repr_inj.mp

/-- The numbers of directories that the engine tells apart. -/
def InRange (number : ℕ) : Prop := 0 < number ∧ number ≤ 2 ^ 53

section Listing

variable {v8 : V8} {listing : List String} {numbers : Finset ℕ}

/-- A listing of numbered directories, as numbers. -/
theorem Lists.as_numbers (lists : Lists listing (numbers.image toString)) :
    ∃ list : List ℕ, listing = list.map toString ∧ list.Nodup ∧ list.toFinset = numbers := by
  obtain ⟨nodup, same⟩ := lists
  have named : ∀ dir ∈ listing, dir ∈ Set.range (toString : ℕ → String) := by
    intro dir mem
    rw [← List.mem_toFinset, same, Finset.mem_image] at mem
    obtain ⟨number, -, rfl⟩ := mem
    exact ⟨number, rfl⟩
  obtain ⟨list, rfl⟩ : listing ∈ Set.range (List.map (toString : ℕ → String)) := by
    rwa [Set.range_list_map]
  refine ⟨list, rfl, nodup.of_map _, ?_⟩
  apply Finset.image_injective toString_injective
  rw [← same]
  ext dir
  simp

theorem sorted_map (numerals : v8.Numerals) {list : List ℕ}
    (inRange : ∀ number ∈ list, InRange number) :
    sorted v8 (list.map toString) = (list.mergeSort (· ≤ ·)).map toString := by
  have kept : (list.map toString).filter
      (fun dir => (JsNumber.finite 0).lt (v8.parseInt (.text dir))) = list.map toString := by
    rw [List.filter_eq_self]
    intro dir mem
    obtain ⟨number, member, rfl⟩ := List.mem_map.mp mem
    obtain ⟨pos, le⟩ := inRange number member
    rw [numerals.parseInt number le]
    simpa [JsNumber.lt] using pos
  rw [sorted, kept]
  refine (List.map_mergeSort ?_).symm
  intro left leftMem right rightMem
  rw [numerals.toNumber left (inRange left leftMem).2,
    numerals.toNumber right (inRange right rightMem).2, JsNumber.lt_natCast]
  rw [← decide_not]
  exact decide_eq_decide.mpr not_lt.symm

/-- Read from its end, the sorted listing is the numbers in descending order. -/
theorem sorted_descending (numerals : v8.Numerals)
    (inRange : ∀ number ∈ numbers, InRange number)
    (lists : Lists listing (numbers.image toString)) :
    ∃ descending : List ℕ, sorted v8 listing = (descending.map toString).reverse ∧
      descending.Pairwise (· > ·) ∧ descending.toFinset = numbers := by
  obtain ⟨list, rfl, nodup, rfl⟩ := lists.as_numbers
  have perm := List.mergeSort_perm list (· ≤ ·)
  refine ⟨(list.mergeSort (· ≤ ·)).reverse, ?_, ?_, ?_⟩
  · rw [List.map_reverse, List.reverse_reverse, sorted_map numerals]
    exact fun number mem => inRange number (List.mem_toFinset.mpr mem)
  · rw [List.pairwise_reverse]
    have ascending : (list.mergeSort (· ≤ ·)).Pairwise (· ≤ ·) :=
      List.pairwise_mergeSort' (· ≤ ·) list
    exact (ascending.and (perm.nodup_iff.mpr nodup)).imp fun both => lt_of_le_of_ne both.1 both.2
  · rw [List.toFinset_reverse, List.toFinset_eq_of_perm _ _ perm]

/-- With two directories or more nothing is made up but the number of a rotation. -/
theorem choose_many {rotating : Option Env} (many : 2 ≤ (sorted v8 listing).length) :
    choose v8 rotating listing =
      sorted v8 listing ++ (rotating.map fun curEnv => following v8 curEnv.num).toList := by
  have nonempty : (sorted v8 listing).length ≠ 0 := by omega
  have several : (sorted v8 listing).length ≠ 1 := by omega
  simp only [choose, nonempty, several, ↓reduceIte]
  cases rotating with
  | none => exact (List.append_nil _).symm
  | some curEnv => rfl

/-- The two directories that the constructor chooses: the two largest, where there are two. -/
theorem choose_construct (numerals : v8.Numerals) (inRange : ∀ number ∈ numbers, InRange number)
    (exact : numbers.card = 1 → ∀ number ∈ numbers, number < 2 ^ 53)
    (lists : Lists listing (numbers.image toString)) :
    ∃ cur old rest, (choose v8 none listing).reverse = toString cur :: toString old :: rest ∧
      InRange cur ∧ InRange old ∧ Largest (insert old (insert cur numbers)) cur old ∧
      ∀ first second, Largest numbers first second → first = cur ∧ second = old := by
  obtain ⟨descending, order, pairwise, rfl⟩ := sorted_descending numerals inRange lists
  match descending with
  | [] =>
    have chosen : choose v8 none listing = ["1", "2"] := by
      simp [choose, order]
    rw [chosen]
    exact ⟨2, 1, [], rfl, ⟨by decide, by decide⟩, ⟨by decide, by decide⟩,
      ⟨by decide, by simp, by simp, by simp⟩, fun _ _ largest => nomatch largest.first_mem⟩
  | [only] =>
    have below : only < 2 ^ 53 := exact (by simp) only (by simp)
    have range := inRange only (by simp)
    have next : following v8 (v8.parseInt (.text (toString only))) = toString (only + 1) := by
      rw [following, numerals.parseInt only range.2, JsNumber.plusOne_finite below,
        numerals.toText (only + 1) below]
    have chosen : choose v8 none listing = [toString only, toString (only + 1)] := by
      rw [choose, order, ← next]
      rfl
    rw [chosen]
    refine ⟨only + 1, only, [], rfl, ⟨by omega, below⟩, range,
      ⟨Nat.lt_succ_self only, by simp, by simp, ?_⟩, ?_⟩
    · intro element mem ne
      simp only [Finset.mem_insert, ne, false_or, List.mem_toFinset, List.mem_singleton,
        or_self] at mem
      exact mem.le
    · intro first second largest
      exact absurd largest.one_lt_card (by simp)
  | cur :: old :: rest =>
    have largest := Largest.of_descending pairwise
    refine ⟨cur, old, rest.map toString, ?_, inRange cur (by simp), inRange old (by simp), ?_, ?_⟩
    · rw [choose_many (by rw [order]; simp), order, Option.map_none, Option.toList_none,
        List.append_nil, List.reverse_reverse, List.map_cons, List.map_cons]
    · rwa [Finset.insert_eq_of_mem largest.first_mem, Finset.insert_eq_of_mem largest.second_mem]
    · exact fun first second other => other.unique largest

/-- The directory that a rotation chooses. -/
theorem choose_rotate (numerals : v8.Numerals) (inRange : ∀ number ∈ numbers, InRange number)
    {cur old : ℕ} (largest : Largest numbers cur old) (exact : cur < 2 ^ 53)
    (lists : Lists listing (numbers.image toString)) (dir : String) :
    ∃ rest, (choose v8 (some ⟨.finite cur, dir⟩) listing).reverse = toString (cur + 1) :: rest := by
  obtain ⟨descending, order, pairwise, rfl⟩ := sorted_descending numerals inRange lists
  have next : following v8 (.finite cur) = toString (cur + 1) := by
    rw [following, JsNumber.plusOne_finite exact, numerals.toText (cur + 1) exact]
  have two : 2 ≤ descending.length := by
    exact largest.one_lt_card.trans_le (List.toFinset_card_le descending)
  refine ⟨(sorted v8 listing).reverse, ?_⟩
  rw [choose_many (by rw [order]; simpa using two), Option.map_some, next]
  simp

/-- What `rmStale` removes is below the two largest numbers. -/
theorem stale_lt (numerals : v8.Numerals) (inRange : ∀ number ∈ numbers, InRange number)
    (lists : Lists listing (numbers.image toString)) {number : ℕ}
    (stale : toString number ∈ (sorted v8 listing).take ((sorted v8 listing).length - 3)) :
    ∃ cur old, Largest numbers cur old ∧ number < old := by
  obtain ⟨descending, order, pairwise, rfl⟩ := sorted_descending numerals inRange lists
  rw [order, List.length_reverse, List.length_map, List.take_reverse, List.mem_reverse,
    List.length_map, ← List.map_drop, List.mem_map_of_injective toString_injective] at stale
  match descending with
  | [] => simp at stale
  | [only] => simp at stale
  | [first, second] => simp at stale
  | first :: second :: third :: rest =>
    have three : (first :: second :: third :: rest).length -
        ((first :: second :: third :: rest).length - 3) = 3 := by
      simp only [List.length_cons]
      omega
    rw [three] at stale
    refine ⟨first, second, .of_descending pairwise, ?_⟩
    simp only [List.pairwise_cons] at pairwise
    exact pairwise.2.1 number (List.mem_cons_of_mem _ stale)

end Listing

/-- The environments are in the directories with these two numbers, and a rotation will count on
from the first. -/
structure Envs.In (envs : Envs) (cur old : ℕ) : Prop where
  cur : envs.cur = ⟨.finite cur, toString cur⟩
  old : envs.old.dir = toString old

/-- What holds of the directories, by their numbers. Everything ever used is at most the largest
number present, so the next one is new. -/
structure Kept (state : State) (numbers : Finset ℕ) : Prop where
  dirs : state.dirs = numbers.image toString
  inRange : ∀ number ∈ numbers, InRange number
  used : ∀ dir ∈ state.used, ∃ number, dir = toString number ∧
    ∃ largest ∈ numbers, number ≤ largest
  envs : ∀ envs, state.envs = some envs → ∃ cur old, envs.In cur old ∧ Largest numbers cur old

section Steps

variable {v8 : V8} {state next : State} {numbers : Finset ℕ}

theorem Kept.mem_dirs (kept : Kept state numbers) {number : ℕ} :
    toString number ∈ state.dirs ↔ number ∈ numbers := by
  rw [kept.dirs, Finset.mem_image]
  constructor
  · rintro ⟨other, mem, same⟩
    exact toString_injective same ▸ mem
  · exact fun mem => ⟨number, mem, rfl⟩

theorem Kept.close (kept : Kept state numbers) : Kept (close state) numbers :=
  ⟨kept.dirs, kept.inRange, kept.used, nofun⟩

/-- A directory is made while the cache is closed. -/
theorem Kept.mkdirp (kept : Kept state numbers) (closed : state.envs = none) {new : ℕ}
    (inRange : InRange new) : Kept (state.mkdirp (toString new)) (insert new numbers) := by
  refine ⟨?_, ?_, ?_, fun envs opened => nomatch closed.symm.trans opened⟩
  · rw [Finset.image_insert, ← kept.dirs]
    rfl
  · intro number mem
    rcases Finset.mem_insert.mp mem with rfl | mem
    · exact inRange
    · exact kept.inRange number mem
  · intro dir mem
    rcases Finset.mem_insert.mp mem with rfl | mem
    · exact ⟨new, rfl, new, Finset.mem_insert_self .., le_rfl⟩
    · obtain ⟨number, rfl, largest, present, le⟩ := kept.used dir mem
      exact ⟨number, rfl, largest, Finset.mem_insert_of_mem present, le⟩

/-- The environments are put into the two largest directories. -/
theorem Kept.opened (kept : Kept state numbers) {envs : Envs} {cur old : ℕ} (dirs : envs.In cur old)
    (largest : Largest numbers cur old) : Kept { state with envs := some envs } numbers := by
  refine ⟨kept.dirs, kept.inRange, kept.used, ?_⟩
  rintro _ ⟨⟩
  exact ⟨cur, old, dirs, largest⟩

theorem Kept.construct (kept : Kept state numbers) (numerals : v8.Numerals)
    (exact : numbers.card = 1 → ∀ number ∈ numbers, number < 2 ^ 53)
    (stepped : Step v8 state .construct next) :
    ∃ envs cur old more, next.envs = some envs ∧ envs.In cur old ∧ Kept next more ∧
      ∀ first second, Largest numbers first second → first = cur ∧ second = old := by
  obtain ⟨closed, listing, lists, rfl⟩ := stepped
  rw [kept.dirs] at lists
  obtain ⟨cur, old, rest, chosen, curRange, oldRange, largest, same⟩ :=
    choose_construct numerals kept.inRange exact lists
  have made := (kept.mkdirp closed curRange).mkdirp closed oldRange
  have dirs : Envs.In ⟨⟨v8.parseInt (.text (toString cur)), toString cur⟩,
      ⟨v8.parseInt (.text (toString cur)), toString old⟩⟩ cur old := by
    rw [numerals.parseInt cur curRange.2]
    exact ⟨rfl, rfl⟩
  rw [Directories.construct, chosen]
  exact ⟨_, cur, old, _, rfl, dirs, made.opened dirs largest, same⟩

/-- A rotation moves on to the next number, which is new. -/
theorem Kept.rotate (kept : Kept state numbers) (numerals : v8.Numerals)
    (exact : ∀ number ∈ numbers, number < 2 ^ 53) (stepped : Step v8 state .rotate next) :
    ∃ before after more, state.envs = some before ∧ next.envs = some after ∧
      after.old = before.cur ∧ after.cur.dir ∉ state.dirs ∪ state.used ∧ Kept next more := by
  obtain ⟨before, listing, opened, lists, rfl⟩ := stepped
  rw [kept.dirs] at lists
  obtain ⟨cur, old, dirs, largest⟩ := kept.envs before opened
  have below := exact cur largest.first_mem
  obtain ⟨rest, chosen⟩ := choose_rotate numerals kept.inRange largest below lists (toString cur)
  rw [← dirs.cur] at chosen
  have made : Kept ((Directories.close state).mkdirp (toString (cur + 1))) (insert (cur + 1) numbers) :=
    kept.close.mkdirp rfl ⟨by omega, below⟩
  have moved : Envs.In ⟨⟨v8.parseInt (.text (toString (cur + 1))), toString (cur + 1)⟩,
      before.cur⟩ (cur + 1) cur := by
    rw [numerals.parseInt (cur + 1) below, dirs.cur]
    exact ⟨rfl, rfl⟩
  rw [Directories.rotate, chosen]
  refine ⟨before, _, _, opened, rfl, rfl, ?_,
    made.opened moved (largest.insert (Nat.lt_succ_self cur))⟩
  rw [Finset.mem_union, not_or]
  constructor
  · intro mem
    have := largest.le (kept.mem_dirs.mp mem)
    omega
  · intro mem
    obtain ⟨number, same, top, present, le⟩ := kept.used _ mem
    have := largest.le present
    have := toString_injective same
    omega

/-- `rmStale` keeps the two largest directories. -/
theorem Kept.rmStale (kept : Kept state numbers) (numerals : v8.Numerals)
    (stepped : Step v8 state .rmStale next) :
    ∃ fewer, Kept next fewer ∧ next.envs = state.envs ∧
      ∀ first second, Largest numbers first second → Largest fewer first second := by
  obtain ⟨listing, lists, rfl⟩ := stepped
  rw [kept.dirs] at lists
  let stale := (sorted v8 listing).take ((sorted v8 listing).length - 3)
  let fewer := numbers.filter fun number => toString number ∉ stale
  have sub : fewer ⊆ numbers := Finset.filter_subset ..
  have largest_kept (first second : ℕ) (largest : Largest numbers first second) :
      Largest fewer first second := by
    have fresh (number : ℕ) (le : second ≤ number) : toString number ∉ stale := by
      intro mem
      obtain ⟨cur, old, other, lt⟩ := stale_lt numerals kept.inRange lists mem
      have := (largest.unique other).2
      omega
    exact largest.subset sub
      (Finset.mem_filter.mpr ⟨largest.first_mem, fresh first largest.lt.le⟩)
      (Finset.mem_filter.mpr ⟨largest.second_mem, fresh second le_rfl⟩)
  refine ⟨fewer, ⟨?_, fun number mem => kept.inRange number (sub mem), ?_, ?_⟩, rfl, largest_kept⟩
  · simp only [Directories.rmStale, kept.dirs, Finset.filter_image]
    rfl
  · intro dir mem
    obtain ⟨number, rfl, top, present, le⟩ := kept.used dir mem
    by_cases removed : toString top ∈ stale
    · -- What was removed is below a number that was kept.
      obtain ⟨cur, old, largest, lt⟩ := stale_lt numerals kept.inRange lists removed
      exact ⟨number, rfl, old, (largest_kept cur old largest).second_mem, le.trans lt.le⟩
    · exact ⟨number, rfl, top, Finset.mem_filter.mpr ⟨present, removed⟩, le⟩
  · intro envs opened
    obtain ⟨cur, old, dirs, largest⟩ := kept.envs envs opened
    exact ⟨cur, old, dirs, largest_kept cur old largest⟩

/-- Where a step counts on from a number, it is below 2^53. -/
def Exact (state : State) : Action → Prop
  | .rotate => ∀ number : ℕ, toString number ∈ state.dirs → number < 2 ^ 53
  | .construct =>
    state.dirs.card = 1 → ∀ number : ℕ, toString number ∈ state.dirs → number < 2 ^ 53
  | _ => True

theorem Kept.exact_construct (kept : Kept state numbers) (exact : Exact state .construct) :
    numbers.card = 1 → ∀ number ∈ numbers, number < 2 ^ 53 := by
  intro single number mem
  refine exact ?_ number (kept.mem_dirs.mpr mem)
  rw [kept.dirs, Finset.card_image_of_injective _ toString_injective, single]

theorem Kept.step (kept : Kept state numbers) (numerals : v8.Numerals) {action : Action}
    (exact : Exact state action) (stepped : Step v8 state action next) :
    ∃ numbers, Kept next numbers := by
  cases action with
  | construct =>
    obtain ⟨_, _, _, more, -, -, kept', -⟩ :=
      kept.construct numerals (kept.exact_construct exact) stepped
    exact ⟨more, kept'⟩
  | rotate =>
    obtain ⟨_, _, more, -, -, -, -, kept'⟩ :=
      kept.rotate numerals (fun number mem => exact number (kept.mem_dirs.mpr mem)) stepped
    exact ⟨more, kept'⟩
  | rmStale =>
    obtain ⟨fewer, kept', -⟩ := kept.rmStale numerals stepped
    exact ⟨fewer, kept'⟩
  | close =>
    obtain ⟨-, rfl⟩ := stepped
    exact ⟨numbers, kept.close⟩

/-- The cache has removed stale directories any number of times. -/
theorem Kept.stales (kept : Kept state numbers) (numerals : v8.Numerals) {stales : List Action}
    (run : Runs (Step v8) state stales next) (only : ∀ action ∈ stales, action = .rmStale) :
    ∃ fewer, Kept next fewer ∧ next.envs = state.envs ∧
      ∀ first second, Largest numbers first second → Largest fewer first second := by
  refine run.preserves (fun stales next => (∀ action ∈ stales, action = .rmStale) →
    ∃ fewer, Kept next fewer ∧ next.envs = state.envs ∧
      ∀ first second, Largest numbers first second → Largest fewer first second)
    (fun _ => ⟨numbers, kept, rfl, fun _ _ => id⟩) ?_ only
  intro stales middle action next ih stepped only
  obtain ⟨fewer, kept', envs, largest⟩ :=
    ih fun other mem => only other (List.mem_append_left _ mem)
  obtain rfl := only action (List.mem_append_right _ (List.mem_singleton_self _))
  obtain ⟨fewest, kept'', envs', largest'⟩ := kept'.rmStale numerals stepped
  exact ⟨fewest, kept'', envs'.trans envs,
    fun first second top => largest' first second (largest first second top)⟩

/-- What the owner of a cache can rely on, in one state of its directories. -/
structure Ordered (v8 : V8) (state : State) : Prop where
  /-- The current directory has the largest number present, the old one the second largest. -/
  newest : ∀ envs, state.envs = some envs → ∃ cur old : ℕ,
    envs.cur.dir = toString cur ∧ envs.old.dir = toString old ∧ old < cur ∧
    toString cur ∈ state.dirs ∧ toString old ∈ state.dirs ∧
    ∀ number : ℕ, toString number ∈ state.dirs → number ≠ cur → number ≤ old
  /-- A rotation opens a directory that neither exists nor has ever been used, and the current one
  becomes the old one. -/
  rotation : Exact state .rotate → ∀ next, Step v8 state .rotate next → ∃ before after,
    state.envs = some before ∧ next.envs = some after ∧ after.old.dir = before.cur.dir ∧
    after.cur.dir ∉ state.dirs ∪ state.used
  stale : ∀ next, Step v8 state .rmStale next → ∀ envs, state.envs = some envs →
    envs.cur.dir ∈ next.dirs ∧ envs.old.dir ∈ next.dirs
  /-- Reopening selects the same directories, even if stale ones are removed in between. -/
  reopening : ∀ envs closed stales middle reopened, state.envs = some envs →
    Step v8 state .close closed → Runs (Step v8) closed stales middle →
    (∀ action ∈ stales, action = .rmStale) → Step v8 middle .construct reopened →
    ∃ again, reopened.envs = some again ∧ again.cur.dir = envs.cur.dir ∧
      again.old.dir = envs.old.dir

theorem Kept.ordered (kept : Kept state numbers) (numerals : v8.Numerals) : Ordered v8 state := by
  refine ⟨?_, ?_, ?_, ?_⟩
  · intro envs opened
    obtain ⟨cur, old, dirs, largest⟩ := kept.envs envs opened
    refine ⟨cur, old, by rw [dirs.cur], dirs.old, largest.lt, kept.mem_dirs.mpr largest.first_mem,
      kept.mem_dirs.mpr largest.second_mem, ?_⟩
    intro number mem ne
    exact largest.rest number (kept.mem_dirs.mp mem) ne
  · intro exact next stepped
    obtain ⟨before, after, -, opened, opened', same, new, -⟩ :=
      kept.rotate numerals (fun number mem => exact number (kept.mem_dirs.mpr mem)) stepped
    exact ⟨before, after, opened, opened', by rw [same], new⟩
  · intro next stepped envs opened
    obtain ⟨cur, old, dirs, largest⟩ := kept.envs envs opened
    obtain ⟨fewer, kept', -, largest'⟩ := kept.rmStale numerals stepped
    have top := largest' cur old largest
    rw [dirs.cur, dirs.old]
    exact ⟨kept'.mem_dirs.mpr top.first_mem, kept'.mem_dirs.mpr top.second_mem⟩
  · rintro envs closed stales middle reopened opened ⟨-, rfl⟩ run only stepped
    obtain ⟨cur, old, dirs, largest⟩ := kept.envs envs opened
    obtain ⟨fewer, kept', -, largest'⟩ := kept.close.stales numerals run only
    have top := largest' cur old largest
    -- Two directories are left, so nothing is counted on from.
    have several : fewer.card = 1 → ∀ number ∈ fewer, number < 2 ^ 53 :=
      fun single => absurd top.one_lt_card (by omega)
    obtain ⟨again, cur', old', -, opened', dirs', -, same⟩ := kept'.construct numerals several stepped
    obtain ⟨rfl, rfl⟩ := same cur old top
    exact ⟨again, opened', by rw [dirs'.cur, dirs.cur], by rw [dirs'.old, dirs.old]⟩

theorem start_kept (inRange : ∀ number ∈ numbers, InRange number) :
    Kept (.start numbers) numbers := by
  refine ⟨rfl, inRange, ?_, nofun⟩
  intro dir mem
  obtain ⟨number, member, rfl⟩ := Finset.mem_image.mp mem
  exact ⟨number, rfl, number, member, le_rfl⟩

end Steps

/-- Along every run of openings, rotations, removals and closings that counts on from numbers
below 2^53 only, the generations are where the numbers say. -/
theorem generations_ordered {v8 : V8} (numerals : v8.Numerals) {numbers : Finset ℕ}
    (canonical : ∀ number ∈ numbers, 0 < number) (exact : ∀ number ∈ numbers, number ≤ 2 ^ 53)
    {actions : List Action} {state : State}
    (run : Runs (Guarded Exact (Step v8)) (.start numbers) actions state) : Ordered v8 state := by
  have kept : ∃ numbers, Kept state numbers := by
    refine run.preserves (fun _ state => ∃ numbers, Kept state numbers)
      ⟨numbers, start_kept fun number mem => ⟨canonical number mem, exact number mem⟩⟩ ?_
    rintro actions state action next ⟨numbers, kept⟩ ⟨counts, stepped⟩
    exact kept.step numerals counts stepped
  obtain ⟨numbers, kept⟩ := kept
  exact kept.ordered numerals

/-- A cache in an empty directory that has been rotated. -/
theorem generations_ordered_after_rotation : ∃ state,
    Runs (Guarded Exact (Step V8.basic)) (.start ∅) [.construct, .rotate] state ∧
      Ordered V8.basic state := by
  let num := V8.basic.parseInt (.text "2")
  let opened : State := ⟨{"1", "2"}, some ⟨⟨num, "2"⟩, ⟨num, "1"⟩⟩, {"1", "2"}⟩
  have constructed : construct V8.basic [] (.start ∅) = opened := by
    simp [construct, choose, sorted, State.mkdirp, State.start, opened, num]
  have first : Runs (Guarded Exact (Step V8.basic)) (.start ∅) [.construct] opened :=
    .snoc .nil ⟨nofun, rfl, [], ⟨List.nodup_nil, rfl⟩, constructed.symm⟩
  have below : Exact opened .rotate := by
    intro number mem
    rcases Finset.mem_insert.mp mem with one | mem
    · rw [toString_injective (one.trans (show "1" = toString 1 from rfl))]
      decide
    · have two := Finset.mem_singleton.mp mem
      rw [toString_injective (two.trans (show "2" = toString 2 from rfl))]
      decide
  have rotated : Runs (Guarded Exact (Step V8.basic)) (.start ∅) [.construct, .rotate]
      (rotate V8.basic ⟨⟨num, "2"⟩, ⟨num, "1"⟩⟩ ["1", "2"] opened) :=
    .snoc first ⟨below, _, ["1", "2"], rfl, ⟨by decide, by decide⟩, rfl⟩
  exact ⟨_, rotated, generations_ordered V8.basic_numerals (by simp) (by simp) rotated⟩

/-- If the sum is rounded back, a single directory is opened twice. -/
theorem construct_rounded {v8 : V8} (numerals : v8.Numerals) {number : ℕ} (range : InRange number)
    (rounded : (JsNumber.finite number).plusOne = .finite number) :
    (construct v8 [toString number] (.start {number})).envs =
      some ⟨⟨.finite number, toString number⟩, ⟨.finite number, toString number⟩⟩ := by
  have parsed := numerals.parseInt number range.2
  have ordered : sorted v8 [toString number] = [toString number] := by
    have single : ∀ other ∈ [number], InRange other := by simpa using range
    have mapped := sorted_map numerals single
    rwa [List.mergeSort_singleton] at mapped
  have next : following v8 (.finite number) = toString number := by
    rw [following, rounded, numerals.toText number range.2]
  have chosen : choose v8 none [toString number] = [toString number, toString number] := by
    have last := congrArg (following v8) parsed
    rw [next] at last
    rw [choose, ordered]
    exact congrArg (fun last => [toString number, last]) last
  rw [construct, chosen]
  simp only [List.reverse_cons, List.reverse_nil, List.nil_append, List.cons_append, parsed]

/-- Over the single directory 9007199254740992 the current and the old environment are opened in
the same directory. -/
theorem single_directory_opened_twice : ∃ state envs,
    Runs (Step V8.basic) (.start {2 ^ 53}) [.construct] state ∧ state.envs = some envs ∧
      envs.cur.dir = envs.old.dir := by
  -- The sum 2^53 + 1 lies halfway between two doubles, and is rounded down.
  have rounded : (JsNumber.finite (2 ^ 53 : ℕ)).plusOne = .finite (2 ^ 53 : ℕ) := by
    decide
  have opened := construct_rounded V8.basic_numerals ⟨by decide, le_rfl⟩ rounded
  refine ⟨_, _, .snoc .nil ⟨rfl, [toString (2 ^ 53)], ⟨List.nodup_singleton _, ?_⟩, rfl⟩, opened, rfl⟩
  simp only [State.start, Finset.image_singleton, List.toFinset_cons, List.toFinset_nil,
    insert_empty_eq]

end Cache.Directories

end NodeKv
