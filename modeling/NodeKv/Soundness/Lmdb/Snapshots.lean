import NodeKv.Proofs.Lmdb.Views

/-! # What reads see

A read in a live explicit transaction sees that transaction's own view. A read without one goes
through the cached read-only transaction, which needs the reader slot of the thread. While an
explicit read-only transaction holds the slot, `env::require_readlock` cannot begin or renew the
cached one and does not notice: the read is answered from the snapshot of the previous implicit
read, or throws when there has been none.
-/

namespace NodeKv.Lmdb

open Machine

variable {v8 : V8} {native : Native}

/-- A read in an explicit transaction, whose snapshot may be an unprotected one. -/
theorem get_explicit {handle : ℕ} {view : Store}
    (reads : (Txn.view (native.txns handle).txn).reads? = some view) (db : Db)
    (key : Datum v8 db.keyType) :
    (db.get silent v8 key.value (.txn handle) native).1 =
      looked key.bytes (view db.dbi key.bytes) := by
  simp only [Db.get, Datum.encode_value]
  cases found : (native.txns handle).txn with
  | none =>
    rw [found] at reads
    cases reads
  | some txn =>
    rw [found] at reads
    cases txn with
    | writer number store entries =>
      obtain rfl := Option.some.inj reads
      exact (mdbGet_found key.bytes _ native).1
    | reader reader =>
      cases reset : reader.reset with
      | true => simp [Txn.view, reset, View.reads?] at reads
      | false =>
        have same : reader.snapshot = view := by
          cases slot : reader.slot <;> simpa [Txn.view, reset, slot, View.reads?] using reads
        rw [← same]
        exact (mdbGet_reader db key.bytes reset native).1

/-- An implicit read is fresh when no explicit transaction holds the reader slot, and otherwise
when the cached snapshot happens to agree with the committed state on the key. -/
theorem get_implicit_fresh_iff (disciplined : Disciplined native) (db : Db)
    (key : Datum v8 db.keyType) (sized : key.bytes ≠ []) :
    (db.get silent v8 key.value .undefined native).1 =
        .ok (native.committed db.dbi key.bytes).head? ↔
      (∀ handle, native.holdsSlot handle = false) ∨
        ∃ reader, native.readLock = some reader ∧
          (reader.snapshot db.dbi key.bytes).head? = (native.committed db.dbi key.bytes).head? := by
  have held (taken : native.slotTaken = true) : ¬∀ handle, native.holdsSlot handle = false := by
    obtain ⟨handle, holds, -⟩ := disciplined.taken taken
    intro free
    exact nomatch holds.symm.trans (free handle)
  rcases get_implicit disciplined v8 db key with
    ⟨free, calls, read⟩ | ⟨taken, reader, calls, lock, read⟩ | ⟨taken, lock, calls, read⟩
  · rw [read, looked_of_ne sized]
    exact iff_of_true rfl (.inl (disciplined.free free))
  · rw [read, lock, looked_of_ne sized]
    simp [held taken]
  · rw [read, lock]
    simp [held taken]

/-- A key of no bytes is not looked up. -/
theorem get_implicit_empty (disciplined : Disciplined native) (db : Db)
    (key : Datum v8 db.keyType) (empty : key.bytes = []) :
    ∃ rc, (db.get silent v8 key.value .undefined native).1 = .throws (.mdb rc) := by
  have refused (vals : List Bytes) : looked key.bytes vals = .throws (.mdb .badValsize) :=
    if_pos empty
  rcases get_implicit disciplined v8 db key with
    ⟨-, calls, read⟩ | ⟨-, reader, calls, -, read⟩ | ⟨-, -, calls, read⟩
  · exact ⟨.badValsize, by rw [read, refused]⟩
  · exact ⟨.badValsize, by rw [read, refused]⟩
  · exact ⟨.einval, by rw [read]⟩

/-- Reads along any session of one thread. An implicit read is fresh when the key is not empty, and
the reader slot is free or the cached snapshot agrees with the committed state. -/
theorem implicit_get_fresh_iff {store : Store} {calls : List Session} {versions : Versions Store}
    (run : Runs (Session.Tracked v8) (.opened store, .opened store) calls (native, versions))
    (db : Db) (key : Value) {datum : Datum v8 db.keyType}
    (sanitized : db.keyType.check v8 key = .ok datum) :
    ((dbGet silent v8 db key none native).1 =
        .ok (versions.committed db.dbi datum.bytes).head? ↔
      datum.bytes ≠ [] ∧ ((∀ handle, native.holdsSlot handle = false) ∨
        ∃ reader, native.readLock = some reader ∧
          (reader.snapshot db.dbi datum.bytes).head? =
            (versions.committed db.dbi datum.bytes).head?)) ∧
    ∀ handle view, (versions.views handle).reads? = some view →
      ((dbGet silent v8 db key (some handle) native).1 =
        .ok (view db.dbi datum.bytes).head? ↔ datum.bytes ≠ []) := by
  obtain ⟨disciplined, agree⟩ := tracked_versions run
  obtain rfl : native.versions = versions := agree
  have passed : db.keyType.sanitize v8 key = .ok datum.value := by
    rcases db.keyType.check_cases v8 key with ⟨error, -, rejected⟩ | ⟨found, passed, checked⟩
    · exact nomatch rejected.symm.trans sanitized
    · obtain rfl := Except.ok.inj (checked.symm.trans sanitized)
      exact passed
  have asked (txn : Option ℕ) : dbGet silent v8 db key txn native =
      db.get silent v8 datum.value (txnArg txn) native := by
    rw [dbGet, passed]
  refine ⟨?_, ?_⟩
  · rw [asked]
    rcases eq_or_ne datum.bytes [] with empty | sized
    · obtain ⟨rc, threw⟩ := get_implicit_empty disciplined db datum empty
      rw [txnArg, threw]
      simp [empty]
    · rw [and_iff_right sized]
      exact get_implicit_fresh_iff disciplined db datum sized
  · intro handle view reads
    rw [asked, txnArg, get_explicit reads db datum, looked]
    split_ifs with empty <;> simp [empty]

/-- The step of a call that names no transaction. -/
theorem Session.Tracked.unnamed {state : Native × Versions Store} {call : Session} {next : Native}
    (unnamed : call.handle? = none) (ran : (call.run v8 state.1).state? = some next) :
    Session.Tracked v8 state call (next, state.2.record
      (call.event v8 (call.run v8 state.1).returned?.isSome)) := by
  refine ⟨⟨?_, ran⟩, rfl⟩
  intro handle named
  exact nomatch unnamed.symm.trans named

/-- Beside an open read-only transaction, a key is read as it was read before; the transaction
itself does not see the later write. -/
theorem implicit_get_fresh_beside_reader :
    let db : Db := ⟨2, .int32, .int32, false⟩
    let number (value : ℚ) : Value := .number (.finite value)
    ∃ native versions,
      Runs (Session.Tracked .basic) (.opened fun _ _ => [], .opened fun _ _ => [])
        [.put db (number 1) (number 1) none, .get db (number 1) none, .beginTxn true,
          .put db (number 2) (number 2) none] (native, versions) ∧
      (dbGet silent .basic db (number 1) none native).1 = .ok (some [1, 0, 0, 0]) ∧
      (dbGet silent .basic db (number 2) (some 0) native).1 = .ok none := by
  intro db number
  have run : Runs (Session.Tracked .basic) (.opened fun _ _ => [], .opened fun _ _ => [])
      [.put db (number 1) (number 1) none, .get db (number 1) none, .beginTxn true,
        .put db (number 2) (number 2) none] _ :=
    .snoc (.snoc (.snoc (.snoc .nil (.unnamed rfl rfl)) (.unnamed rfl rfl)) (.unnamed rfl rfl))
      (.unnamed rfl rfl)
  obtain ⟨fresh, -⟩ := implicit_get_fresh_iff run db (number 1) rfl
  obtain ⟨-, own⟩ := implicit_get_fresh_iff run db (number 2) rfl
  exact ⟨_, _, run, fresh.mpr ⟨by decide, .inr ⟨_, rfl, rfl⟩⟩, (own 0 _ rfl).mpr (by decide)⟩

/-- With an explicit read-only transaction open, the first implicit read throws, and one that
follows an earlier implicit read returns the value the key had then. -/
theorem implicit_get_stale_beside_reader :
    let db : Db := ⟨2, .int32, .int32, false⟩
    let number (value : ℚ) : Value := .number (.finite value)
    (∃ native versions,
      Runs (Session.Tracked .basic) (.opened fun _ _ => [], .opened fun _ _ => [])
        [.put db (number 1) (number 1) none, .beginTxn true] (native, versions) ∧
      (dbGet silent .basic db (number 1) none native).1 = .throws (.mdb .einval)) ∧
    ∃ native versions,
      Runs (Session.Tracked .basic) (.opened fun _ _ => [], .opened fun _ _ => [])
        [.put db (number 1) (number 1) none, .get db (number 1) none, .beginTxn true,
          .put db (number 1) (number 2) none] (native, versions) ∧
      versions.committed 2 [1, 0, 0, 0] = [[2, 0, 0, 0]] ∧
      (dbGet silent .basic db (number 1) none native).1 = .ok (some [1, 0, 0, 0]) := by
  intro db number
  refine ⟨⟨_, _, .snoc (.snoc .nil (.unnamed rfl rfl)) (.unnamed rfl rfl), ?_⟩,
    _, _, .snoc (.snoc (.snoc (.snoc .nil (.unnamed rfl rfl)) (.unnamed rfl rfl))
    (.unnamed rfl rfl)) (.unnamed rfl rfl), ?_, ?_⟩
  · decide +kernel
  · decide +kernel
  · decide +kernel

end NodeKv.Lmdb
