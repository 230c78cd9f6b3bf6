import NodeKv.Model.Cache.Exists
import NodeKv.Soundness.Lmdb.Exists

/-! # What the cache's `exists` looks at

A database of a cache has pairs to look for only if it was opened with duplicates. Without, LMDB
refuses to look for one, and `exists` throws whatever is stored. With duplicates, it says whether
one of the two environments has the pair. Unlike `get`, it does not take what the old environment
has for outdated when the current one has the key.
-/

namespace NodeKv.Cache.Read

open Machine Lmdb

variable {v8 : V8}

/-- What holds along every run. -/
structure Sound (state : Environments) : Prop where
  cur : Look.Sound state.cur
  old : Look.Sound state.old

section Steps

variable {state next : Environments}

/-- The cache's `exists` asks the current environment, and the old one if the answer is no. -/
theorem exists_cases (v8 : V8) (db : Db) (key val : Value) (cur old : Looking) :
    ((dbExists silent v8 db.cur key val none cur).1 = .known (.ok false) ∧
      db.exists silent silent v8 key val cur old =
        ((dbExists silent v8 db.old key val none old).1,
          (dbExists silent v8 db.cur key val none cur).2,
          (dbExists silent v8 db.old key val none old).2)) ∨
    ((dbExists silent v8 db.cur key val none cur).1 ≠ .known (.ok false) ∧
      db.exists silent silent v8 key val cur old =
        ((dbExists silent v8 db.cur key val none cur).1,
          (dbExists silent v8 db.cur key val none cur).2, old)) := by
  by_cases absent : (dbExists silent v8 db.cur key val none cur).1 = .known (.ok false)
  · exact .inl ⟨absent, by simp only [Db.exists, absent, ↓reduceIte]⟩
  · exact .inr ⟨absent, by simp only [Db.exists, absent, ↓reduceIte]⟩

theorem Sound.step (sound : Sound state) {action : Action} (stepped : Step v8 state action next) :
    Sound next := by
  cases action with
  | cur look =>
    obtain ⟨tracked, kept⟩ := stepped
    exact ⟨tracked.sound sound.cur, kept ▸ sound.old⟩
  | old look =>
    obtain ⟨tracked, kept⟩ := stepped
    exact ⟨kept ▸ sound.cur, tracked.sound sound.old⟩
  | «exists» db key val =>
    rcases exists_cases v8 db key val state.cur.1 state.old.1 with ⟨-, ran⟩ | ⟨-, ran⟩
    · simp only [Step, ran] at stepped
      obtain ⟨-, rfl⟩ := stepped
      exact ⟨sound.cur.looked .., sound.old.looked ..⟩
    · simp only [Step, ran] at stepped
      obtain ⟨-, rfl⟩ := stepped
      exact ⟨sound.cur.looked .., sound.old⟩

theorem runs_sound {cur old : Store} {actions : List Action}
    (run : Runs (Step v8) (.opened cur old) actions state) : Sound state := by
  have opened : Sound (.opened cur old) := ⟨Look.opened_sound cur, Look.opened_sound old⟩
  refine run.preserves (fun _ state => Sound state) opened ?_
  intro actions state action next sound stepped
  exact sound.step stepped

end Steps

/-- If the cache's answer is not known, one of its environments would use a cursor that no slot
protects. -/
theorem Sound.unprotected {state : Environments} (sound : Sound state) {db : Db} {key val : Value}
    (unknown : (db.exists silent silent v8 key val state.cur.1 state.old.1).1 = .unknown) :
    state.cur.1.native.Unprotected none ∨ state.old.1.native.Unprotected none := by
  rcases exists_cases v8 db key val state.cur.1 state.old.1 with ⟨-, ran⟩ | ⟨-, ran⟩
  · rw [ran] at unknown
    exact .inr (dbExists_unknown sound.old.disciplined sound.old.held unknown)
  · rw [ran] at unknown
    exact .inl (dbExists_unknown sound.cur.disciplined sound.cur.held unknown)

/-- After every run of calls on the two environments and on the cache, `exists` of the cache says
whether one of the two has the pair in its latest state, as long as no read-only transaction is
open. For a database without duplicates it throws. The answer is not known only where one of the
environments has a read lock that another reader keeps from being renewed. -/
theorem cache_exists_in_either {curStore oldStore : Store} {actions : List Action}
    {state : Environments} (run : Runs (Step v8) (.opened curStore oldStore) actions state)
    (db : Db) {rawKey rawVal : Value} {key : Datum v8 db.keyType} {val : Datum v8 db.valType}
    (keyed : db.keyType.check v8 rawKey = .ok key) (sized : key.bytes ≠ [])
    (valued : db.valType.check v8 rawVal = .ok val) (whole : val.bytes ≠ []) :
    (∀ other rawKey rawVal,
      (Db.exists silent silent v8 other rawKey rawVal state.cur.1 state.old.1).1 = .unknown →
        state.cur.1.native.Unprotected none ∨ state.old.1.native.Unprotected none) ∧
    ((∀ handle, state.cur.1.native.holdsSlot handle = false ∧
        state.old.1.native.holdsSlot handle = false) →
      (db.exists silent silent v8 rawKey rawVal state.cur.1 state.old.1).1 =
        if db.allowDup then
          .known (.ok (hasPair db.cur key.bytes val.bytes state.cur.2.committed ||
            hasPair db.old key.bytes val.bytes state.old.2.committed))
        else .known (.throws (.mdb .incompatible))) := by
  have sound := runs_sound run
  refine ⟨fun other rawKey rawVal unknown => sound.unprotected unknown, fun alone => ?_⟩
  have cur : (dbExists silent v8 db.cur rawKey rawVal none state.cur.1).1 =
      .ofCode (findPair db.cur key.bytes val.bytes state.cur.2.committed) := by
    rw [← sound.cur.agree]
    exact dbExists_alone keyed valued sound.cur.disciplined sound.cur.held fun handle =>
      (alone handle).1
  have old : (dbExists silent v8 db.old rawKey rawVal none state.old.1).1 =
      .ofCode (findPair db.old key.bytes val.bytes state.old.2.committed) := by
    rw [← sound.old.agree]
    exact dbExists_alone keyed valued sound.old.disciplined sound.old.held fun handle =>
      (alone handle).2
  cases dups : db.allowDup with
  | false =>
    rw [findPair, if_pos (by simp [Db.cur, dups])] at cur
    rcases exists_cases v8 db rawKey rawVal state.cur.1 state.old.1 with ⟨absent, -⟩ | ⟨-, ran⟩
    · cases cur.symm.trans absent
    · rw [ran]
      exact cur
  | true =>
    have curDups : db.cur.allowDup = true := dups
    have oldDups : db.old.allowDup = true := dups
    rw [ofCode_findPair curDups sized whole] at cur
    rw [ofCode_findPair oldDups sized whole] at old
    rw [if_pos rfl]
    rcases exists_cases v8 db rawKey rawVal state.cur.1 state.old.1 with
      ⟨absent, ran⟩ | ⟨found, ran⟩
    · have missing : hasPair db.cur key.bytes val.bytes state.cur.2.committed = false := by
        simpa using cur.symm.trans absent
      rw [ran, old, missing, Bool.false_or]
    · have present : hasPair db.cur key.bytes val.bytes state.cur.2.committed = true := by
        by_contra missing
        exact found (by rw [cur, Bool.eq_false_iff.mpr missing])
      rw [ran, cur, present, Bool.true_or]

section Sample

variable {state : Environments} {look : Look} {env : Looking × Versions Store}

theorem Step.of_cur (tracked : look.Tracked v8 state.cur env) :
    Step v8 state (.cur look) { state with cur := env } := ⟨tracked, rfl⟩

theorem Step.of_old (tracked : look.Tracked v8 state.old env) :
    Step v8 state (.old look) { state with old := env } := ⟨tracked, rfl⟩

end Sample

/-- A pair in the old environment, and another one of the same key in the current one: the cache
has both. In a database without duplicates nothing can be looked for. -/
theorem cache_exists_beside_newer :
    let db : Db := ⟨2, 2, .int32, .int32, true⟩
    let plain : Db := ⟨3, 3, .int32, .int32, false⟩
    let number (value : ℚ) : Value := .number (.finite value)
    ∃ state, Runs (Step .basic) (.opened (fun _ _ => []) fun _ _ => [])
        [.old (.session (.put db.old (number 1) (number 1) none)),
          .cur (.session (.put db.cur (number 1) (number 2) none))] state ∧
      (db.exists silent silent .basic (number 1) (number 1) state.cur.1 state.old.1).1 =
        .known (.ok true) ∧
      (plain.exists silent silent .basic (number 1) (number 1) state.cur.1 state.old.1).1 =
        .known (.throws (.mdb .incompatible)) := by
  intro db plain number
  have run : Runs (Step .basic) (.opened (fun _ _ => []) fun _ _ => [])
      [.old (.session (.put db.old (number 1) (number 1) none)),
        .cur (.session (.put db.cur (number 1) (number 2) none))] _ :=
    .snoc (.snoc .nil (.of_old (.unnamed rfl rfl))) (.of_cur (.unnamed rfl rfl))
  have checked : DataType.int32.check V8.basic (number 1) =
      .ok ⟨.number (.finite 1), .number (.finite 1), rfl⟩ := rfl
  have whole : (⟨.number (.finite 1), .number (.finite 1), rfl⟩ : Datum V8.basic .int32).bytes ≠ [] := by
    decide +kernel
  have found := (cache_exists_in_either run db checked whole checked whole).2
  have refused := (cache_exists_in_either run plain checked whole checked whole).2
  exact ⟨_, run, (found fun _ => ⟨rfl, rfl⟩).trans (by decide +kernel), refused fun _ => ⟨rfl, rfl⟩⟩

end NodeKv.Cache.Read
