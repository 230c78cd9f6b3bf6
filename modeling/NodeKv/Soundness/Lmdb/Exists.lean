import NodeKv.Model.Lmdb.Cursor
import NodeKv.Model.Lmdb.Exists
import NodeKv.Soundness.Lmdb.Snapshots

/-! # What `exists` looks at

A call of `exists` looks at the same state as a call of `get` at that moment would, whatever has
happened to the read lock in between, unless no slot protects that state. This comes about in two ways:
in a read-only transaction that could not be renewed, and without a transaction while another reader
holds the slot.
-/

namespace NodeKv.Lmdb

open Machine

variable {v8 : V8} {native next : Native}

section ReadLock

/-- A write leaves the read lock alone. -/
theorem mdbWrite_readLock (entry : Entry) (txn : Option Txn) (native : Native) :
    (mdbWrite silent entry txn native).2.2.readLock = native.readLock := by
  unfold mdbWrite
  split
  · rfl
  · rfl
  · split
    · rfl
    · split <;> rfl

private theorem mdbCommit_readLock (txn : Option Txn) (native : Native) :
    (mdbCommit silent txn native).2.readLock = native.readLock := by
  unfold mdbCommit
  split
  · rfl
  · simp only
    split_ifs <;> rfl
  · split <;> rfl

private theorem mdbAbort_readLock (txn : Option Txn) (native : Native) :
    (mdbAbort txn native).readLock = native.readLock := by
  unfold mdbAbort
  split
  · rfl
  · split_ifs <;> rfl
  · rfl

private theorem beginWrite_readLock {answer : Except Rc Txn}
    (begun : beginWrite silent native = some (answer, next)) : next.readLock = native.readLock := by
  unfold beginWrite at begun
  split at begun
  · cases begun
    rfl
  · split_ifs at begun
    cases begun
    rfl

private theorem beginRead_readLock (native : Native) :
    (beginRead silent native).2.readLock = native.readLock := by
  unfold beginRead
  split
  · rfl
  · split_ifs <;> rfl

private theorem mdbRenew_readLock (reader : Reader) (native : Native) :
    (mdbRenew silent reader native).2.2.readLock = native.readLock := by
  unfold mdbRenew
  split
  · split
    · rfl
    · split <;> rfl
  · rfl

private theorem txnCtor_readLock (readonly : Bool) (native : Native) :
    (txnCtor silent readonly native).2.readLock = native.readLock := by
  unfold txnCtor
  split_ifs
  · have kept := beginRead_readLock native
    cases begun : beginRead silent native with
    | mk answer after =>
      rw [begun] at kept
      cases answer <;> exact kept
  · split
    · rfl
    · exact beginWrite_readLock ‹_›
    · rename_i txn after begun
      exact (beginWrite_readLock begun : after.readLock = native.readLock)

private theorem txnCommit_readLock (handle : ℕ) (native : Native) :
    (txnCommit silent handle native).2.readLock = native.readLock := by
  unfold txnCommit
  split
  · rfl
  · exact mdbCommit_readLock ..

private theorem txnAbort_readLock (handle : ℕ) (native : Native) :
    (txnAbort handle native).2.readLock = native.readLock := by
  unfold txnAbort
  split
  · rfl
  · exact mdbAbort_readLock ..

private theorem txnReset_readLock (handle : ℕ) (native : Native) :
    (txnReset handle native).2.readLock = native.readLock := by
  unfold txnReset
  split
  · rfl
  · rfl
  · simp only [mdbReset, Native.setTxn]
    split_ifs <;> rfl

private theorem txnRenew_readLock (handle : ℕ) (native : Native) :
    (txnRenew silent handle native).2.readLock = native.readLock := by
  unfold txnRenew
  split_ifs
  · split
    · exact mdbRenew_readLock ..
    · rfl
  · rfl
  · split
    · rfl
    · exact beginWrite_readLock ‹_›
    · rename_i txn after begun
      exact (beginWrite_readLock begun : after.readLock = native.readLock)

private theorem writeScope_readLock {arg : Value} {entry : Entry} {rc : Option Rc}
    (ran : writeScope silent arg entry native = some (rc, next)) :
    next.readLock = native.readLock := by
  unfold writeScope at ran
  split at ran
  · cases ran
    exact mdbWrite_readLock ..
  · cases ran
  · split at ran
    · cases ran
    · cases ran
      exact beginWrite_readLock ‹_›
    · rename_i txn middle begun
      have wrote := (mdbWrite_readLock entry (some txn) middle).trans (beginWrite_readLock begun)
      cases written : mdbWrite silent entry (some txn) middle with
      | mk code rest =>
        rw [written] at ran wrote
        obtain rfl : _ = next := congrArg Prod.snd (Option.some.inj ran)
        refine Eq.trans ?_ wrote
        split_ifs
        · exact mdbCommit_readLock ..
        · exact mdbAbort_readLock ..

theorem Write.within_readLock (v8 : V8) (db : Db) (txn : Option ℕ) (write : Write)
    (native : Native) :
    (write.within silent v8 db txn native).2.readLock = native.readLock := by
  rcases write.within_cases silent v8 db txn native with ⟨-, error, threw⟩ | ⟨entry, -, ran⟩
  · rw [threw]
  · rw [ran]
    split
    · rfl
    · exact writeScope_readLock ‹_›

/-- A read keeps the read lock if there is one. -/
theorem dbGet_readLock (disciplined : Disciplined native) (v8 : V8) (db : Db) (key : Value)
    (txn : Option ℕ) (held : native.readLock.isSome = true) :
    (dbGet silent v8 db key txn native).2.readLock.isSome = true := by
  unfold dbGet
  rcases db.keyType.check_cases v8 key with ⟨error, rejected, -⟩ | ⟨key, keyed, -⟩
  · rw [rejected]
    exact held
  rw [keyed]
  cases txn with
  | none =>
    rcases get_implicit disciplined v8 db key with
      ⟨-, calls, read⟩ | ⟨-, reader, calls, -, read⟩ | ⟨-, -, calls, read⟩
    · simp only [txnArg, read, Option.isSome_some]
    · simp only [txnArg, read, Option.isSome_some]
    · simp only [txnArg, read]
      exact held
  | some handle =>
    simp only [Db.get, txnArg, Datum.encode_value]
    rcases mdbGet_state silent db key.bytes (native.txns handle).txn native with same | called
    · rw [same]
      exact held
    · rw [called]
      exact held

/-- Once there is a read lock, there is one for ever. -/
theorem Session.Step.readLock {call : Session} (disciplined : Disciplined native)
    (stepped : Session.Step v8 native call next) (held : native.readLock.isSome = true) :
    next.readLock.isSome = true := by
  obtain ⟨-, ran⟩ := stepped
  cases call with
  | get db key txn =>
    obtain ⟨-, rfl, -⟩ := Result.statement_cases ran
    exact dbGet_readLock disciplined v8 db key txn held
  | put db key val txn =>
    obtain ⟨-, rfl, -⟩ := Result.statement_cases ran
    have kept := (Write.put key val).within_readLock v8 db txn native
    exact (congrArg Option.isSome kept).trans held
  | del db key txn val =>
    obtain ⟨-, rfl, -⟩ := Result.statement_cases ran
    have kept := (Write.del key val).within_readLock v8 db txn native
    exact (congrArg Option.isSome kept).trans held
  | beginTxn readonly =>
    obtain ⟨-, rfl, -⟩ := Result.statement_cases ran
    exact (congrArg Option.isSome (txnCtor_readLock readonly native)).trans held
  | commit handle =>
    obtain ⟨-, rfl, -⟩ := Result.statement_cases ran
    exact (congrArg Option.isSome (txnCommit_readLock handle native)).trans held
  | abort handle =>
    obtain ⟨-, rfl, -⟩ := Result.statement_cases ran
    exact (congrArg Option.isSome (txnAbort_readLock handle native)).trans held
  | reset handle =>
    obtain ⟨-, rfl, -⟩ := Result.statement_cases ran
    exact (congrArg Option.isSome (txnReset_readLock handle native)).trans held
  | renew handle =>
    obtain ⟨-, rfl, -⟩ := Result.statement_cases ran
    exact (congrArg Option.isSome (txnRenew_readLock handle native)).trans held

end ReadLock

/-- The answer from a cursor. -/
def Shown.answer (db : Db) (key val : Bytes) : Shown → Presence
  | nothing => .ofCode (some .einval)
  | state store => .ofCode (findPair db key val store)
  | stray => .unknown

/-- What calls without a transaction look at: the latest state, or if another reader holds the slot, the
snapshot that the read lock was last used on. -/
def Native.shown (native : Native) : Shown :=
  if native.slotTaken then (if native.readLock.isSome then .stray else .nothing)
  else .state native.committed

section Calls

variable {db : Db} (key : Datum v8 db.keyType) (val : Datum v8 db.valType) {state : Looking}

private theorem mdbGetBoth_silent (db : Db) (key val : Bytes) (shown : Shown) (native : Native) :
    ∃ calls, mdbGetBoth silent db key val shown native =
      (shown.answer db key val, { native with calls := calls }) := by
  cases shown with
  | nothing => exact ⟨native.calls, rfl⟩
  | state store => exact ⟨native.calls + 1, rfl⟩
  | stray => exact ⟨native.calls + 1, rfl⟩

private theorem mdbCursorOpen_silent (txn : Option Txn) (native : Native) :
    ∃ calls, mdbCursorOpen silent txn native = (Txn.shown txn, { native with calls := calls }) := by
  have quiet : (silent native.calls).isNone = true := rfl
  cases shown : Txn.shown txn with
  | nothing => exact ⟨native.calls, by rw [mdbCursorOpen, shown]; rfl⟩
  | state store => exact ⟨native.calls + 1, by rw [mdbCursorOpen, shown, quiet]; rfl⟩
  | stray => exact ⟨native.calls + 1, by rw [mdbCursorOpen, shown, quiet]; rfl⟩

/-- In the caller's transaction, `exists` looks at what the transaction shows. -/
theorem exists_explicit (handle : ℕ) (state : Looking) :
    ∃ calls, db.exists silent v8 key.value val.value (.txn handle) state =
      ((Txn.shown (state.native.txns handle).txn).answer db key.bytes val.bytes,
        { state with native.calls := calls }) := by
  obtain ⟨calls, opened⟩ := mdbCursorOpen_silent (state.native.txns handle).txn state.native
  obtain ⟨calls', found⟩ := mdbGetBoth_silent db key.bytes val.bytes
    (Txn.shown (state.native.txns handle).txn) { state.native with calls := calls }
  exact ⟨calls', by simp only [Db.exists, Datum.encode_value, opened, found]⟩

/-- A cursor of the read lock is opened or renewed, and then used. -/
private theorem exists_borrowed {locked : Native} {reader : Reader} {shown : Shown}
    (reads : Txn.shown (some (.reader reader)) = shown) (opened : shown.opened = true)
    (required : requireReadlock silent state.native = locked) (lock : locked.readLock = some reader) :
    ∃ calls, db.exists silent v8 key.value val.value .undefined state =
      (shown.answer db key.bytes val.bytes,
        ⟨releaseReadlock { locked with calls := calls }, Function.update state.cur db.dbi true⟩) := by
  have borrows : locked.readLock.map Txn.reader = some (.reader reader) := by
    rw [lock, Option.map_some]
  simp only [Db.exists, Datum.encode_value, required, borrows, reads, opened, ↓reduceIte]
  cases cursor : state.cur db.dbi with
  | true =>
    obtain ⟨calls, found⟩ := mdbGetBoth_silent db key.bytes val.bytes shown locked
    have kept : Function.update state.cur db.dbi true = state.cur := by
      rw [← cursor, Function.update_eq_self]
    exact ⟨calls, by simp only [found, ↓reduceIte, kept]⟩
  | false =>
    obtain ⟨calls, began⟩ := mdbCursorOpen_silent (some (.reader reader)) locked
    obtain ⟨calls', found⟩ := mdbGetBoth_silent db key.bytes val.bytes shown
      { locked with calls := calls }
    exact ⟨calls', by simp only [began, reads, found, opened, Bool.false_eq_true, ↓reduceIte]⟩

/-- Without one, it looks at what `get` would read. -/
theorem exists_implicit (disciplined : Disciplined state.native)
    (held : state.cur db.dbi = true → state.native.readLock.isSome = true) :
    (∃ snapshot calls, db.exists silent v8 key.value val.value .undefined state =
      (state.native.shown.answer db key.bytes val.bytes,
        ⟨{ state.native with calls := calls, readLock := some ⟨snapshot, false, true⟩ },
          Function.update state.cur db.dbi true⟩)) ∨
    (state.native.shown = .nothing ∧
      ∃ calls, db.exists silent v8 key.value val.value .undefined state =
        (.ofCode (some .einval), { state with native.calls := calls })) := by
  cases slot : state.native.slotTaken with
  | false =>
    have reads : Txn.shown (some (.reader ⟨state.native.committed, true, false⟩)) =
        .state state.native.committed := rfl
    obtain ⟨calls, found⟩ := exists_borrowed key val reads rfl (requireReadlock_free disciplined slot) rfl
    refine .inl ⟨state.native.committed, calls, ?_⟩
    rw [found]
    simp [releaseReadlock, mdbReset, Native.shown, slot]
  | true =>
    cases lock : state.native.readLock with
    | none =>
      have fresh : state.cur db.dbi = false := by
        rw [lock] at held
        exact Bool.eq_false_iff.mpr fun cursor => Bool.false_ne_true (held cursor)
      have same : Function.update state.cur db.dbi false = state.cur := by
        rw [← fresh, Function.update_eq_self]
      refine .inr ⟨by simp [Native.shown, slot, lock], state.native.calls + 1, ?_⟩
      simp [Db.exists, requireReadlock_none slot lock, lock, fresh, mdbCursorOpen, Txn.shown, mdbGetBoth,
        Shown.opened, same, releaseReadlock]
    | some reader =>
      have reads : Txn.shown (some (.reader ⟨reader.snapshot, false, false⟩)) = .stray := rfl
      obtain ⟨calls, found⟩ := exists_borrowed key val reads rfl (requireReadlock_stale disciplined slot lock) rfl
      refine .inl ⟨reader.snapshot, calls, ?_⟩
      rw [found]
      simp [releaseReadlock, mdbReset, Native.shown, slot, lock]

private theorem exists_shown (disciplined : Disciplined state.native)
    (held : state.cur db.dbi = true → state.native.readLock.isSome = true) :
    (db.exists silent v8 key.value val.value .undefined state).1 =
      state.native.shown.answer db key.bytes val.bytes := by
  rcases exists_implicit key val disciplined held with ⟨snapshot, calls, looked⟩ | ⟨shown, calls, looked⟩
  · rw [looked]
  · rw [looked, shown, Shown.answer]

end Calls

/-- What a call would look at is not protected: its transaction could not be renewed, or it has none and
the read lock cannot be renewed while another reader holds the slot. -/
def Native.Unprotected (native : Native) : Option ℕ → Prop
  | some handle => ∃ store, native.versions.views handle = .resumed store
  | none => native.slotTaken = true ∧ native.readLock.isSome = true

private theorem answer_unknown {db : Db} {key val : Bytes} {shown : Shown}
    (unknown : shown.answer db key val = .unknown) : shown = .stray := by
  cases shown with
  | nothing => cases unknown
  | state store =>
    rw [Shown.answer] at unknown
    cases found : findPair db key val store with
    | none =>
      rw [found] at unknown
      cases unknown
    | some rc =>
      rw [found] at unknown
      cases unknown
  | stray => rfl

private theorem shown_stray (stray : native.shown = .stray) : native.Unprotected none := by
  unfold Native.shown at stray
  split_ifs at stray with taken lock
  exact ⟨taken, lock⟩

theorem Txn.shown_of_live {txn : Option Txn} {writes : Bool} {store : Store}
    (live : Txn.view txn = .live writes store) : Txn.shown txn = .state store := by
  unfold Txn.view at live
  split at live
  · cases live
  · rename_i reader
    split_ifs at live with reset slot
    obtain ⟨-, rfl⟩ := View.live.inj live
    rw [Txn.shown, if_neg reset, if_pos slot]
  · obtain ⟨-, rfl⟩ := View.live.inj live
    rfl

theorem Txn.view_of_stray {txn : Option Txn} (stray : Txn.shown txn = .stray) :
    ∃ store, Txn.view txn = .resumed store := by
  unfold Txn.shown at stray
  split at stray
  · cases stray
  · rename_i reader
    split_ifs at stray with reset slot
    exact ⟨reader.snapshot, by rw [Txn.view, if_neg reset, if_neg slot]⟩
  · cases stray

/-- The read lock is left on some snapshot, without its slot. -/
theorem Effect.idle (disciplined : Disciplined native) (calls : ℕ) (snapshot : Store) :
    Effect native .nothing { native with calls := calls, readLock := some ⟨snapshot, false, true⟩ } := by
  refine ⟨⟨native.count, .of_same disciplined rfl rfl rfl ?_⟩, rfl⟩
  rintro _ ⟨⟩
  exact ⟨rfl, rfl⟩

/-- Where there is a cursor in `_cur`, there is a read lock. -/
def Looking.Held (state : Looking) : Prop :=
  ∀ dbi, state.cur dbi = true → state.native.readLock.isSome = true

/-- What a call of `exists` does to the environment is what one of `get` does. -/
theorem dbExists_effect {state : Looking} (disciplined : Disciplined state.native)
    (held : state.Held)
    (v8 : V8) (db : Db) (key val : Value) (txn : Option ℕ) :
    Effect state.native .nothing (dbExists silent v8 db key val txn state).2.native ∧
      (dbExists silent v8 db key val txn state).2.Held := by
  have same : Effect state.native .nothing state.native := .same disciplined rfl rfl
  unfold dbExists
  rcases db.keyType.check_cases v8 key with ⟨error, rejected, -⟩ | ⟨key, keyed, -⟩
  · rw [rejected]
    exact ⟨same, held⟩
  rcases db.valType.check_cases v8 val with ⟨error, rejected, -⟩ | ⟨val, valued, -⟩
  · rw [keyed, rejected]
    exact ⟨same, held⟩
  rw [keyed, valued]
  cases txn with
  | some handle =>
    obtain ⟨calls, looked⟩ := exists_explicit key val handle state
    simp only [txnArg, looked]
    exact ⟨.same disciplined rfl rfl, held⟩
  | none =>
    rcases exists_implicit key val disciplined (held db.dbi) with
      ⟨snapshot, calls, looked⟩ | ⟨-, calls, looked⟩
    · simp only [txnArg, looked]
      exact ⟨.idle disciplined calls _, fun _ _ => rfl⟩
    · simp only [txnArg, looked]
      exact ⟨.same disciplined rfl rfl, held⟩

/-- If the answer is not known, what was looked at is not protected. -/
theorem dbExists_unknown {state : Looking} (disciplined : Disciplined state.native)
    (held : state.Held)
    {db : Db} {key val : Value} {txn : Option ℕ}
    (unknown : (dbExists silent v8 db key val txn state).1 = .unknown) :
    state.native.Unprotected txn := by
  unfold dbExists at unknown
  rcases db.keyType.check_cases v8 key with ⟨error, rejected, -⟩ | ⟨key, keyed, -⟩
  · rw [rejected] at unknown
    cases unknown
  rcases db.valType.check_cases v8 val with ⟨error, rejected, -⟩ | ⟨val, valued, -⟩
  · rw [keyed, rejected] at unknown
    cases unknown
  rw [keyed, valued] at unknown
  cases txn with
  | some handle =>
    obtain ⟨calls, looked⟩ := exists_explicit key val handle state
    simp only [txnArg, looked] at unknown
    exact Txn.view_of_stray (answer_unknown unknown)
  | none =>
    simp only [txnArg, exists_shown key val disciplined (held db.dbi)] at unknown
    exact shown_stray (answer_unknown unknown)

/-- What holds along every run. -/
structure Look.Sound (state : Looking × Versions Store) : Prop where
  disciplined : Disciplined state.1.native
  agree : state.1.native.versions = state.2
  fits : state.2.Fits
  held : state.1.Held

theorem Look.opened_sound (store : Store) :
    Look.Sound (⟨.opened store, fun _ => false⟩, .opened store) :=
  ⟨opened_disciplined store, rfl, Versions.opened_fits store,
    fun _ cursor => absurd cursor Bool.false_ne_true⟩

/-- A call of `exists`. -/
theorem Look.Sound.looked {state : Looking × Versions Store} (sound : Look.Sound state) (v8 : V8)
    (db : Db) (key val : Value) (txn : Option ℕ) :
    Look.Sound ((dbExists silent v8 db key val txn state.1).2, state.2) := by
  obtain ⟨effect, held⟩ := dbExists_effect sound.disciplined sound.held v8 db key val txn
  obtain ⟨handle, changes⟩ := effect.moves
  exact ⟨changes.disciplined sound.disciplined, effect.versions.trans sound.agree, sound.fits, held⟩

theorem Look.Tracked.sound {state next : Looking × Versions Store} {look : Look}
    (tracked : look.Tracked v8 state next) (sound : Look.Sound state) : Look.Sound next := by
  cases look with
  | session call =>
    obtain ⟨⟨stepped, recorded⟩, cursors⟩ := tracked
    have fits : state.1.native.versions.Fits := sound.agree ▸ sound.fits
    have effect := session_effect sound.disciplined fits stepped
    obtain ⟨handle, changes⟩ := effect.moves
    refine ⟨changes.disciplined sound.disciplined, ?_, ?_, ?_⟩
    · rw [recorded, ← sound.agree]
      exact effect.versions
    · rw [recorded]
      exact sound.fits.record _
    · intro dbi cursor
      rw [cursors] at cursor
      exact stepped.readLock sound.disciplined (sound.held dbi cursor)
  | «exists» db key val txn =>
    obtain ⟨-, -, rfl⟩ := tracked
    exact sound.looked v8 db key val txn

theorem Look.sound_of_run {store : Store} {looks : List Look} {state : Looking × Versions Store}
    (run : Runs (Look.Tracked v8) (⟨.opened store, fun _ => false⟩, .opened store) looks state) :
    Look.Sound state := by
  refine run.preserves (fun _ state => Look.Sound state) (Look.opened_sound store) ?_
  intro looks state look next sound tracked
  exact tracked.sound sound

/-- While no read-only transaction is open, calls without one look at the latest state. -/
theorem shown_alone (disciplined : Disciplined native)
    (alone : ∀ handle, native.holdsSlot handle = false) : native.shown = .state native.committed := by
  have free : native.slotTaken = false := by
    by_contra taken
    obtain ⟨handle, holds, -⟩ := disciplined.taken (Bool.not_eq_false _ ▸ taken)
    exact Bool.false_ne_true ((alone handle).symm.trans holds)
  rw [Native.shown, free]
  rfl

section Answers

variable {db : Db} {rawKey rawVal : Value} {key : Datum v8 db.keyType} {val : Datum v8 db.valType}
  (keyed : db.keyType.check v8 rawKey = .ok key) (valued : db.valType.check v8 rawVal = .ok val)
  {state : Looking}

include keyed valued

private theorem dbExists_shown (disciplined : Disciplined state.native) (held : state.Held) :
    (dbExists silent v8 db rawKey rawVal none state).1 =
      state.native.shown.answer db key.bytes val.bytes := by
  rw [dbExists, DataType.sanitize_of_check keyed, DataType.sanitize_of_check valued]
  exact exists_shown key val disciplined (held db.dbi)

theorem dbExists_alone (disciplined : Disciplined state.native) (held : state.Held)
    (alone : ∀ handle, state.native.holdsSlot handle = false) :
    (dbExists silent v8 db rawKey rawVal none state).1 =
      .ofCode (findPair db key.bytes val.bytes state.native.committed) := by
  rw [dbExists_shown keyed valued disciplined held, shown_alone disciplined alone, Shown.answer]

private theorem dbExists_live {handle : ℕ} {writes : Bool} {view : Store}
    (live : state.native.versions.views handle = .live writes view) :
    (dbExists silent v8 db rawKey rawVal (some handle) state).1 =
      .ofCode (findPair db key.bytes val.bytes view) := by
  rw [dbExists, DataType.sanitize_of_check keyed, DataType.sanitize_of_check valued]
  obtain ⟨calls, looked⟩ := exists_explicit key val handle state
  have shown : Txn.shown (state.native.txns handle).txn = .state view := Txn.shown_of_live live
  simp only [txnArg, looked, shown, Shown.answer]

end Answers

/-- A read without a transaction, where what it looks at is protected. -/
theorem get_shown (disciplined : Disciplined native) {db : Db} {rawKey : Value}
    {key : Datum v8 db.keyType} (keyed : db.keyType.check v8 rawKey = .ok key) :
    (∀ store, native.shown = .state store →
      (dbGet silent v8 db rawKey none native).1 = looked key.bytes (store db.dbi key.bytes)) ∧
    (native.shown = .nothing → (dbGet silent v8 db rawKey none native).1 = .throws (.mdb .einval)) := by
  rw [dbGet, DataType.sanitize_of_check keyed]
  rcases get_implicit disciplined v8 db key with
    ⟨free, calls, read⟩ | ⟨taken, reader, calls, lock, read⟩ | ⟨taken, lock, calls, read⟩
  · simp [txnArg, read, Native.shown, free]
  · simp [txnArg, Native.shown, taken, lock]
  · simp [txnArg, read, Native.shown, taken, lock]

/-- The state has the pair, as far as the comparator of the values can tell. -/
def hasPair (db : Db) (key val : Bytes) (store : Store) : Bool :=
  (store db.dbi key).any fun found => db.valType.compare found val = .eq

theorem ofCode_findPair {db : Db} (dups : db.allowDup = true) {key val : Bytes} (sized : key ≠ [])
    (whole : val ≠ []) (store : Store) :
    Presence.ofCode (findPair db key val store) = .known (.ok (hasPair db key val store)) := by
  have refused : ¬(val = [] ∧ 1 < (store db.dbi key).length) := fun both => whole both.1
  rw [findPair, if_neg (by simp [dups]), if_neg sized, if_neg refused, hasPair]
  cases (store db.dbi key).any fun found => db.valType.compare found val = .eq <;> rfl

/-- Looking for a pair in a state is moving a new cursor there, for a key that the comparator tells from
the others. -/
theorem findPair_eq_mdbCursorGet {db : Db} {store : Store} (contents : Contents db store)
    (stray : Cursor.Stray contents.pairs.length) {key : Bytes} (val : Bytes)
    (apart : ∀ pair ∈ contents.pairs, db.keyType.compare pair.1 key = .eq ↔ pair.1 = key) :
    findPair db key val store =
      (Cursor.mdbCursorGet contents stray none (.getBoth key val) .fresh).1 := by
  have there : (Cursor.destination contents stray (.getBoth key val) .fresh).isSome =
      hasPair db key val store := by
    rw [Bool.eq_iff_iff]
    simp only [Cursor.destination, Position.seek_isSome_iff, Bool.and_eq_true, decide_eq_true_eq,
      hasPair, List.any_eq_true]
    constructor
    · rintro ⟨index, same, same'⟩
      have member := contents.pairs.get_mem index
      refine ⟨(contents.pairs.get index).2, ?_, same'⟩
      rw [← (apart _ member).mp same, ← contents.mem_pairs]
      exact member
    · rintro ⟨found, member, same⟩
      obtain ⟨index, at_index⟩ := List.get_of_mem ((contents.mem_pairs key found).mpr member)
      refine ⟨index, ?_, ?_⟩
      · rw [apart _ (contents.pairs.get_mem index), at_index]
      · rw [at_index]
        exact same
  have refuses : Cursor.refusesVal db store (.getBoth key val) =
      decide (val = [] ∧ 1 < (store db.dbi key).length) := by
    simp [Cursor.refusesVal, Cursor.Movement.val?, Cursor.Movement.key?]
  simp only [findPair, Cursor.mdbCursorGet, Cursor.Movement.needsDups, Cursor.Movement.key?,
    Option.some.injEq, Bool.true_and, refuses, decide_eq_true_eq]
  split_ifs with plain empty refused found
  · rfl
  · rfl
  · rfl
  · obtain ⟨index, moved⟩ := Option.isSome_iff_exists.mp (there.trans found)
    rw [moved]
  · rw [Option.not_isSome_iff_eq_none.mp fun some => found (there.symm.trans some)]

/-- In a transaction, `exists` gives the answer of a new cursor on what the transaction sees. -/
theorem dbExists_eq_cursor {db : Db} {rawKey rawVal : Value} {key : Datum v8 db.keyType}
    {val : Datum v8 db.valType} (keyed : db.keyType.check v8 rawKey = .ok key)
    (valued : db.valType.check v8 rawVal = .ok val) {state : Looking} {handle : ℕ} {writes : Bool}
    {view : Store} (live : state.native.versions.views handle = .live writes view)
    (contents : Contents db view) (stray : Cursor.Stray contents.pairs.length)
    (apart : ∀ pair ∈ contents.pairs, db.keyType.compare pair.1 key.bytes = .eq ↔ pair.1 = key.bytes) :
    (dbExists silent v8 db rawKey rawVal (some handle) state).1 =
      .known (Cursor.dbExists contents stray v8 none rawKey rawVal) := by
  rw [dbExists_live keyed valued live, findPair_eq_mdbCursorGet contents stray val.bytes apart,
    Cursor.dbExists, keyed, valued]
  simp only [Cursor.cursorOp]
  cases Cursor.mdbCursorGet contents stray none (.getBoth key.bytes val.bytes) .fresh with
  | mk code place => cases code <;> rfl

/-- After every run of calls, and in every transaction, `exists` says whether a state has the pair, and
looks at the state whose first value of the key `get` returns. Without a transaction this is the latest
state, unless a read-only transaction is open; then both throw, until there is a read lock. The answer
is not known only where no slot protects what is looked at. -/
theorem exists_agrees_with_get {store : Store} {looks : List Look} {state : Looking}
    {versions : Versions Store}
    (run : Runs (Look.Tracked v8) (⟨.opened store, fun _ => false⟩, .opened store) looks (state, versions))
    {db : Db} (dups : db.allowDup = true) {rawKey rawVal : Value} {key : Datum v8 db.keyType}
    {val : Datum v8 db.valType} (keyed : db.keyType.check v8 rawKey = .ok key) (sized : key.bytes ≠ [])
    (valued : db.valType.check v8 rawVal = .ok val) (whole : val.bytes ≠ []) :
    (∀ other rawKey rawVal txn, (dbExists silent v8 other rawKey rawVal txn state).1 = .unknown →
      state.native.Unprotected txn) ∧
    (∀ handle writes view, versions.views handle = .live writes view →
      (dbGet silent v8 db rawKey (some handle) state.native).1 = .ok (view db.dbi key.bytes).head? ∧
      (dbExists silent v8 db rawKey rawVal (some handle) state).1 =
        .known (.ok (hasPair db key.bytes val.bytes view))) ∧
    ((∀ handle, state.native.holdsSlot handle = false) →
      (dbGet silent v8 db rawKey none state.native).1 =
        .ok (versions.committed db.dbi key.bytes).head? ∧
      (dbExists silent v8 db rawKey rawVal none state).1 =
        .known (.ok (hasPair db key.bytes val.bytes versions.committed))) ∧
    (∀ handle, state.native.holdsSlot handle = true → ¬state.native.Unprotected none →
      (dbGet silent v8 db rawKey none state.native).1 = .throws (.mdb .einval) ∧
        (dbExists silent v8 db rawKey rawVal none state).1 = .known (.throws (.mdb .einval))) := by
  have sound := Look.sound_of_run run
  obtain rfl : state.native.versions = versions := sound.agree
  have answered := dbExists_shown keyed valued sound.disciplined sound.held
  obtain ⟨read, threw⟩ := get_shown sound.disciplined keyed
  refine ⟨?_, ?_, ?_, ?_⟩
  · intro other rawKey rawVal txn unknown
    exact dbExists_unknown sound.disciplined sound.held unknown
  · intro handle writes view live
    rw [dbExists_live keyed valued live, ofCode_findPair dups sized whole]
    refine ⟨?_, rfl⟩
    have reads : (Txn.view (state.native.txns handle).txn).reads? = some view := congrArg View.reads? live
    rw [dbGet, DataType.sanitize_of_check keyed]
    exact (get_explicit reads db key).trans (looked_of_ne sized _)
  · intro alone
    rw [read _ (shown_alone sound.disciplined alone), looked_of_ne sized,
      dbExists_alone keyed valued sound.disciplined sound.held alone, ofCode_findPair dups sized whole]
    exact ⟨rfl, rfl⟩
  · intro handle holds unlocked
    have taken : state.native.slotTaken = true := by
      by_contra free
      have idle := sound.disciplined.free (Bool.eq_false_iff.mpr free) handle
      exact Bool.false_ne_true (idle.symm.trans holds)
    have shown : state.native.shown = .nothing := by
      have missing : ¬state.native.readLock.isSome = true := fun lock => unlocked ⟨taken, lock⟩
      rw [Native.shown, if_pos taken, if_neg missing]
    rw [threw shown, answered, shown]
    exact ⟨rfl, rfl⟩

/-- A call of a session that names no transaction. -/
theorem Look.Tracked.unnamed {state : Looking × Versions Store} {call : Session} {next : Native}
    (unnamed : call.handle? = none) (ran : (call.run v8 state.1.native).state? = some next) :
    Look.Tracked v8 state (.session call) (⟨next, state.1.cur⟩, state.2.record
      (call.event v8 (call.run v8 state.1.native).returned?.isSome)) :=
  ⟨Session.Tracked.unnamed unnamed ran, rfl⟩

theorem Look.Tracked.alone {state : Looking × Versions Store} {db : Db} {key val : Value}
    (ended : (dbExists silent v8 db key val none state.1).1 ≠ .known .never) :
    Look.Tracked v8 state (.exists db key val none)
      ((dbExists silent v8 db key val none state.1).2, state.2) :=
  ⟨fun _ named => absurd named (Option.some_ne_none _).symm, ended, rfl⟩

/-- A pair is put and found, and a second one is put beside a read-only transaction: the transaction
does not see it, and without a transaction, pages would be looked at that nobody protects. -/
theorem exists_agrees_beside_reader :
    let db : Db := ⟨2, .int32, .int32, true⟩
    let number (value : ℚ) : Value := .number (.finite value)
    ∃ state versions,
      Runs (Look.Tracked .basic) (⟨.opened fun _ _ => [], fun _ => false⟩, .opened fun _ _ => [])
        [.session (.put db (number 1) (number 1) none), .exists db (number 1) (number 1) none,
          .session (.beginTxn true), .session (.put db (number 1) (number 2) none)] (state, versions) ∧
      (dbExists silent .basic db (number 1) (number 2) (some 0) state).1 = .known (.ok false) ∧
      state.native.Unprotected none := by
  intro db number
  have run : Runs (Look.Tracked .basic) (⟨.opened fun _ _ => [], fun _ => false⟩, .opened fun _ _ => [])
      [.session (.put db (number 1) (number 1) none), .exists db (number 1) (number 1) none,
        .session (.beginTxn true), .session (.put db (number 1) (number 2) none)] _ :=
    .snoc (.snoc (.snoc (.snoc .nil (.unnamed rfl rfl)) (.alone (by decide +kernel)))
      (.unnamed rfl rfl)) (.unnamed rfl rfl)
  have keyed : db.keyType.check V8.basic (number 1) =
      .ok ⟨.number (.finite 1), .number (.finite 1), rfl⟩ := rfl
  have valued : db.valType.check V8.basic (number 2) =
      .ok ⟨.number (.finite 2), .number (.finite 2), rfl⟩ := rfl
  obtain ⟨-, live, -⟩ :=
    exists_agrees_with_get run rfl keyed (by decide +kernel) valued (by decide +kernel)
  exact ⟨_, _, run, (live 0 false _ rfl).2.trans (by decide +kernel), rfl, rfl⟩

end NodeKv.Lmdb
