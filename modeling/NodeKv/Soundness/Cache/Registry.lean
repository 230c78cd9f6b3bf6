import NodeKv.Model.Cache.Registry
import NodeKv.Proofs.Lmdb.Writers

/-! # Opening a database of the cache is not atomic

If the current environment cannot open the database, nothing has been entered anywhere, and the call
can be made again. If only the old environment cannot, the name stays in the registry of the current
one, which refuses it from then on: no later call for this name succeeds, whatever LMDB returns.
-/

namespace NodeKv.Cache.Registry

open Machine Lmdb

variable {v8 : V8} {returns : ℕ → Returns} {opt : DbOptions} {name : String} {env : ℕ}
  {state next : State v8} {error : Error}

/-- How the opening in one environment ends. -/
def opening (returns : ℕ → Returns) (opt : DbOptions) (name : String) (env : ℕ) (state : State v8) :
    Result Unit :=
  Turns.opening (returns env) env opt name state.envs

/-- Replace the native side of an environment. -/
def State.setNative (env : ℕ) (native : Native) (state : State v8) : State v8 :=
  { state with envs := state.envs.setNative env native }

/-- Enter a name into the registry of an environment. -/
def State.enter (env : ℕ) (name : String) (state : State v8) : State v8 :=
  { state with envs := state.envs.enter env name }

private theorem openIn_cases (returns : ℕ → Returns)
    (given : opt.name.filter (!·.isEmpty) = some name)
    (env : ℕ) (state : State v8) :
    (∃ native, opening returns opt name env state = .ok () ∧
      openIn returns opt env state = .returned ((state.setNative env native).enter env name)) ∨
    (∃ error native, opening returns opt name env state = .throws error ∧
      openIn returns opt env state = .threw error (state.setNative env native) ∧
      Quiet (state.envs.world.native env) native) ∨
    opening returns opt name env state = .never ∧ openIn returns opt env state = .diverged := by
  have ended := Turns.openDb_opened given (returns env) env state.envs
  unfold opening openIn Prog.zoom
  generalize Turns.openDb (returns env) env opt state.envs = outcome at ended ⊢
  generalize Turns.opening (returns env) env opt name state.envs = reply at ended ⊢
  cases ended with
  | ok native quiet => exact .inl ⟨native, rfl, rfl⟩
  | throws error native quiet => exact .inr (.inl ⟨error, native, rfl, rfl, quiet⟩)
  | never => exact .inr (.inr ⟨rfl, rfl⟩)

/-- What the opening in another environment depends on stays the same. -/
theorem opening_elsewhere {other : ℕ} (ne : other ≠ env) (native : Native) (state : State v8) :
    opening returns opt name other ((state.setNative env native).enter env name) =
      opening returns opt name other state := by
  simp only [opening, Turns.opening, State.enter, State.setNative, Turns.State.enter,
    Turns.State.setNative, Function.update_of_ne ne]

/-- A registry refuses a name that has been entered. -/
theorem opening_entered (returns : ℕ → Returns) (opt : DbOptions) (name : String) (env : ℕ)
    (state : State v8) (entered : name ∈ state.envs.dbs env) :
    opening returns opt name env state = .throws (.alreadyOpened name) := by
  have known : hasName (state.envs.dbs env) name = true := by simp [hasName, entered]
  rw [opening, Turns.opening, if_pos known]

/-- The current environment opens the database, and the old one does not. -/
def HalfOpen (returns : ℕ → Returns) (opt : DbOptions) (name : String) (state : State v8) : Prop :=
  opening returns opt name state.curEnv state = .ok () ∧
    (state.oldEnv = state.curEnv ∨ ∃ error, opening returns opt name state.oldEnv state = .throws error)

/-- Nothing but LMDB's answers keeps the database from being opened. -/
structure Openable (opt : DbOptions) (name : String) (state : State v8) : Prop where
  supported : (opt.keyType.isSome && opt.valType.isSome) = true
  distinct : state.oldEnv ≠ state.curEnv
  newCur : hasName (state.envs.dbs state.curEnv) name = false
  newOld : hasName (state.envs.dbs state.oldEnv) name = false
  unlockedCur : (state.envs.world.native state.curEnv).locked = false
  unlockedOld : (state.envs.world.native state.oldEnv).locked = false

private theorem openDb_eq (given : opt.name.filter (!·.isEmpty) = some name)
    (new : hasName state.dbs name = false) :
    openDb returns opt state =
      Prog.seq (dbCtor returns opt)
        (Prog.update fun state => { state with dbs := name :: state.dbs }) state := by
  simp only [openDb, given, new, Bool.false_eq_true, if_false]

/-- How the openings decide the end of the call. -/
inductive Ends (returns : ℕ → Returns) (opt : DbOptions) (name : String) (state : State v8) :
    Outcome Error (State v8) → Prop where
  | opened {next : State v8} (cur : opening returns opt name state.curEnv state = .ok ())
      (old : opening returns opt name state.oldEnv state = .ok ())
      (distinct : state.oldEnv ≠ state.curEnv) : Ends returns opt name state (.returned next)
  | nothing {error : Error} (native : Native)
      (cur : opening returns opt name state.curEnv state = .throws error)
      (quiet : Quiet (state.envs.world.native state.curEnv) native) :
      Ends returns opt name state (.threw error (state.setNative state.curEnv native))
  | half {error : Error} {next : State v8} (half : HalfOpen returns opt name state)
      (dbs : next.dbs = state.dbs) (curEnv : next.curEnv = state.curEnv)
      (entered : next.envs.dbs state.curEnv = name :: state.envs.dbs state.curEnv) :
      Ends returns opt name state (.threw error next)
  | never (blocked : opening returns opt name state.curEnv state = .never ∨
      state.oldEnv ≠ state.curEnv ∧ opening returns opt name state.oldEnv state = .never) :
      Ends returns opt name state .diverged

private theorem openDb_ends (given : opt.name.filter (!·.isEmpty) = some name)
    (new : hasName state.dbs name = false) :
    Ends returns opt name state (openDb returns opt state) := by
  rw [openDb_eq given new]
  simp only [dbCtor, Prog.seq]
  rcases openIn_cases returns given state.curEnv state with
    ⟨native, cur, ran⟩ | ⟨error, native, cur, ran, quiet⟩ | ⟨cur, ran⟩
  · generalize entered : (state.setNative state.curEnv native).enter state.curEnv name = middle at ran
    have registered : middle.envs.dbs state.curEnv = name :: state.envs.dbs state.curEnv := by
      rw [← entered]
      exact Function.update_self ..
    have kept : middle.dbs = state.dbs ∧ middle.curEnv = state.curEnv := by
      rw [← entered]
      exact ⟨rfl, rfl⟩
    -- Of the old environment nothing has changed, unless it is the current one as well.
    have same : state.oldEnv = state.curEnv →
        opening returns opt name state.oldEnv middle = .throws (.alreadyOpened name) := by
      intro same
      refine opening_entered returns opt name _ middle ?_
      rw [same, registered]
      exact List.mem_cons_self ..
    have other (ne : state.oldEnv ≠ state.curEnv) : opening returns opt name state.oldEnv middle =
        opening returns opt name state.oldEnv state := by
      rw [← entered, opening_elsewhere ne]
    simp only [ran]
    rcases openIn_cases returns given state.oldEnv middle with
      ⟨native, old, ran⟩ | ⟨error, native, old, ran, -⟩ | ⟨old, ran⟩
    · have ne : state.oldEnv ≠ state.curEnv := by
        intro equal
        cases old.symm.trans (same equal)
      simp only [ran]
      exact .opened cur ((other ne).symm.trans old) ne
    · have half : HalfOpen returns opt name state := by
        refine ⟨cur, or_iff_not_imp_left.mpr fun ne => ⟨error, ?_⟩⟩
        rw [← other ne, old]
      simp only [ran]
      exact .half half kept.1 kept.2 registered
    · have ne : state.oldEnv ≠ state.curEnv := by
        intro equal
        cases old.symm.trans (same equal)
      simp only [ran]
      exact .never (.inr ⟨ne, (other ne).symm.trans old⟩)
  · simp only [ran]
    exact .nothing native cur quiet
  · simp only [ran]
    exact .never (.inl cur)

/-- An unlocked environment opens databases if LMDB reports no error. -/
theorem dbCtor_silent {native : Native} (unlocked : native.locked = false) :
    (Lmdb.dbCtor silent native).1 = .ok () := by
  simp [Lmdb.dbCtor, beginWrite, silent, unlocked, mdbCommit]

theorem Openable.opens (openable : Openable opt name state)
    (given : opt.name.filter (!·.isEmpty) = some name) (new : hasName state.dbs name = false) :
    ∃ done, openDb (fun _ => silent) opt state = .returned done := by
  have opened {env : ℕ} (new : hasName (state.envs.dbs env) name = false)
      (unlocked : (state.envs.world.native env).locked = false) :
      opening (fun _ => silent) opt name env state = .ok () := by
    rw [opening, Turns.opening, if_neg (Bool.eq_false_iff.mp new), if_pos openable.supported,
      dbCtor_silent unlocked]
  have cur := opened openable.newCur openable.unlockedCur
  have old := opened openable.newOld openable.unlockedOld
  have ends : Ends (fun _ => silent) opt name state _ := openDb_ends given new
  generalize openDb (fun _ => silent) opt state = outcome at ends
  cases ends with
  | @opened done _ _ _ => exact ⟨done, rfl⟩
  | nothing native threw => cases cur.symm.trans threw
  | half half =>
    rcases half.2 with same | ⟨error, threw⟩
    · exact absurd same openable.distinct
    · cases old.symm.trans threw
  | never blocked =>
    rcases blocked with blocked | ⟨-, blocked⟩
    · cases cur.symm.trans blocked
    · cases old.symm.trans blocked

/-- The registry of the current environment refuses the name, whatever LMDB returns. -/
theorem openDb_refused (given : opt.name.filter (!·.isEmpty) = some name)
    (new : hasName state.dbs name = false) (entered : name ∈ state.envs.dbs state.curEnv)
    (returns : ℕ → Returns) : openDb returns opt state = .threw (.alreadyOpened name) state := by
  have known : hasName (state.envs.dbs state.curEnv) name = true := by simp [hasName, entered]
  simp only [openDb_eq given new, dbCtor, Prog.seq, openIn, Prog.zoom, Turns.openDb, given, known,
    if_true]

theorem Openable.setNative {native : Native} (openable : Openable opt name state)
    (quiet : Quiet (state.envs.world.native state.curEnv) native) :
    Openable opt name (state.setNative state.curEnv native) := by
  refine { openable with unlockedCur := ?_, unlockedOld := ?_ }
  · simpa [State.setNative, Turns.State.setNative] using quiet.locked.trans openable.unlockedCur
  · simpa [State.setNative, Turns.State.setNative, openable.distinct] using openable.unlockedOld

/-- For a name that the cache does not have, an `openDb` that throws leaves the registries alone
unless the current environment opened the database and the old one did not. In that case no further
call succeeds; else a further call does once LMDB reports no error. -/
theorem openDb_atomic_iff (returns : ℕ → Returns) (state : State v8)
    (given : opt.name.filter (!·.isEmpty) = some name) (new : hasName state.dbs name = false) :
    ((∀ error next, openDb returns opt state = .threw error next →
      next.registries = state.registries) ↔ ¬HalfOpen returns opt name state) ∧
    ∀ error next, openDb returns opt state = .threw error next →
      (HalfOpen returns opt name state → ∀ returns',
        openDb returns' opt next = .threw (.alreadyOpened name) next) ∧
      (¬HalfOpen returns opt name state → Openable opt name state →
        ∃ done, openDb (fun _ => silent) opt next = .returned done) := by
  have ends : Ends returns opt name state _ := openDb_ends given new
  generalize openDb returns opt state = outcome at ends
  cases ends with
  | opened cur old distinct =>
    have whole : ¬HalfOpen returns opt name state := by
      rintro ⟨-, same | ⟨error, threw⟩⟩
      · exact distinct same
      · exact nomatch old.symm.trans threw
    exact ⟨⟨fun _ => whole, fun _ _ _ threw => nomatch threw⟩, fun _ _ threw => nomatch threw⟩
  | nothing native cur quiet =>
    have whole : ¬HalfOpen returns opt name state := fun half => nomatch cur.symm.trans half.1
    refine ⟨⟨fun _ => whole, ?_⟩, ?_⟩
    · intro _ error next threw
      obtain ⟨-, rfl⟩ := Outcome.threw.inj threw
      rfl
    · intro error next threw
      obtain ⟨-, rfl⟩ := Outcome.threw.inj threw
      exact ⟨fun half => absurd half whole,
        fun _ openable => (openable.setNative quiet).opens given new⟩
  | half half dbs curEnv entered =>
    refine ⟨⟨?_, fun whole => absurd half whole⟩, ?_⟩
    · intro same
      have registries := congrArg (·.2.1) (same _ _ rfl)
      simp only [State.registries, curEnv, entered] at registries
      exact absurd registries (List.cons_ne_self _ _)
    · intro error next threw
      obtain ⟨-, rfl⟩ := Outcome.threw.inj threw
      refine ⟨fun _ => openDb_refused given (dbs ▸ new) ?_, fun whole => absurd half whole⟩
      rw [curEnv, entered]
      exact List.mem_cons_self ..
  | never blocked =>
    have whole : ¬HalfOpen returns opt name state := by
      rintro ⟨cur, old⟩
      rcases blocked with blocked | ⟨distinct, blocked⟩
      · exact nomatch cur.symm.trans blocked
      · rcases old with same | ⟨error, threw⟩
        · exact distinct same
        · exact nomatch threw.symm.trans blocked
    exact ⟨⟨fun _ => whole, fun _ _ _ threw => nomatch threw⟩, fun _ _ threw => nomatch threw⟩

/-- A cache just opened, without databases. -/
def empty : State V8.basic := ⟨Turns.start (fun _ _ _ => []) fun _ => .finite 64, 1, 0, []⟩

/-- LMDB refuses the opening in one environment. -/
def refusing (env : ℕ) (rc : Rc) : ℕ → Returns := fun other call =>
  if other = env ∧ call = 1 then some rc else none

/-- The current environment is full: nothing is entered, and a further call succeeds. -/
theorem openDb_atomic_of_current : ∃ next done : State V8.basic,
    openDb (refusing 1 .mapFull) ⟨some "a", some .int32, some .int32⟩ empty =
      .threw (.mdb .mapFull) next ∧
    next.registries = ([], [], []) ∧
    openDb (fun _ => silent) ⟨some "a", some .int32, some .int32⟩ next = .returned done := by
  have threw : ∃ next, openDb (refusing 1 .mapFull) ⟨some "a", some .int32, some .int32⟩ empty =
      .threw (.mdb .mapFull) next := ⟨_, rfl⟩
  obtain ⟨next, threw⟩ := threw
  have atomic := openDb_atomic_iff (refusing 1 .mapFull) empty
    (show (DbOptions.mk (some "a") (some .int32) (some .int32)).name.filter (!·.isEmpty) = some "a"
      from rfl) rfl
  have whole : ¬HalfOpen (refusing 1 .mapFull) ⟨some "a", some .int32, some .int32⟩ "a" empty :=
    fun half => nomatch half.1
  obtain ⟨done, retried⟩ := (atomic.2 _ next threw).2 whole ⟨rfl, by decide, rfl, rfl, rfl, rfl⟩
  exact ⟨next, done, threw, atomic.1.mpr whole _ next threw, retried⟩

/-- The old environment has no slot left: the name stays with the current one, and no further call
opens the database. -/
theorem openDb_half_open : ∃ next : State V8.basic,
    openDb (refusing 0 .dbsFull) ⟨some "a", some .int32, some .int32⟩ empty =
      .threw (.mdb .dbsFull) next ∧
    next.registries = ([], ["a"], []) ∧
    openDb (fun _ => silent) ⟨some "a", some .int32, some .int32⟩ next =
      .threw (.alreadyOpened "a") next :=
  ⟨_, rfl, rfl, rfl⟩

end NodeKv.Cache.Registry
