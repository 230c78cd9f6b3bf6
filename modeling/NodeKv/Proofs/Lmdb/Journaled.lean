import NodeKv.Machine.Versions
import NodeKv.Model.Lmdb.Turns
import NodeKv.Proofs.Lmdb.Writers

/-! # The journal of an environment

The committed state of an environment is what its journal of committed transactions says, a
read-only transaction sees a version of it, and a write transaction sees its own writes on the
latest one. The last holds because nothing is committed beside an open write transaction: the
writer mutex is held.

`Books` says what a native method may do to the committed state, the journal and the transactions,
through one transaction object and with whatever codes LMDB returns. Everything else here follows
from it.
-/

namespace NodeKv.Lmdb

open Machine

/-- A read-only transaction sees what it saw before, or the latest committed state. -/
def Reader.From (native : Native) (before : Option Reader) (reader : Reader) : Prop :=
  reader.snapshot = native.committed ∨ ∃ old, before = some old ∧ reader.snapshot = old.snapshot

theorem Reader.From.same {native : Native} {before : Option Reader} {reader : Reader}
    (old : before = some reader) : reader.From native before := .inr ⟨reader, old, rfl⟩

/-- What a method may leave as the transaction of an object. -/
inductive Txn.From (native : Native) (before : Option Txn) : Txn → Prop
  | same {txn : Txn} (old : before = some txn) : From native before txn
  | snapshot {reader : Reader} (latest : reader.snapshot = native.committed) :
      From native before (.reader reader)
  | moved {old reader : Reader} (found : before = some (.reader old))
      (seen : reader.From native (some old)) : From native before (.reader reader)
  | begun (number : ℕ) : From native before (.writer number native.committed [])
  | wrote {number : ℕ} {view : Store} {entries : List Entry}
      (old : before = some (.writer number view entries)) (entry : Entry) :
      From native before (.writer number (entry.apply view) (entries ++ [entry]))

/-- A write transaction sees its own writes on the latest committed state. -/
def Txn.Own (committed : Store) : Txn → Prop
  | reader _ => True
  | writer _ view entries => view = entries.foldl Entry.apply committed

theorem Txn.From.own {native : Native} {before : Option Txn} {txn : Txn}
    (derived : txn.From native before)
    (old : ∀ txn, before = some txn → txn.Own native.committed) : txn.Own native.committed := by
  cases derived with
  | same found => exact old txn found
  | snapshot latest => trivial
  | moved found seen => trivial
  | begun number => rfl
  | wrote found entry =>
    have own := old _ found
    rw [Txn.Own] at own
    rw [Txn.Own, List.foldl_append, ← own, List.foldl_cons, List.foldl_nil]

/-- What a method may do to the books of an environment, through one transaction object. -/
inductive Books (handle : ℕ) (before after : Native) : Prop
  | keeps (committed : after.committed = before.committed) (log : after.log = before.log)
      (others : ∀ other, other ≠ handle → after.txns other = before.txns other)
      (txn : ∀ txn, (after.txns handle).txn = some txn → txn.From before (before.txns handle).txn)
      (cached : ∀ reader, after.readLock = some reader → reader.From before before.readLock)
  /-- The object's own transaction is committed. -/
  | commits {number : ℕ} {view : Store} {entries : List Entry}
      (own : (before.txns handle).txn = some (.writer number view entries))
      (committed : after.committed = view) (log : after.log = before.log ++ [entries])
      (others : ∀ other, other ≠ handle → after.txns other = before.txns other)
      (closed : (after.txns handle).txn = none) (cached : after.readLock = before.readLock)
  /-- A transaction that the method has begun itself is committed. -/
  | writes {entries : List Entry} (free : before.locked = false)
      (committed : after.committed = entries.foldl Entry.apply before.committed)
      (log : after.log = before.log ++ [entries]) (txns : after.txns = before.txns)
      (cached : after.readLock = before.readLock)

/-- All that `Books` looks at. -/
def Native.books (native : Native) : Store × List (List Entry) × (ℕ → Wrapper) × Option Reader :=
  (native.committed, native.log, native.txns, native.readLock)

namespace Native

private theorem books_eq_iff {native other : Native} :
    native.books = other.books ↔ native.committed = other.committed ∧ native.log = other.log ∧
      native.txns = other.txns ∧ native.readLock = other.readLock := by
  simp [books]

private theorem setTxn_of_ne {handle other : ℕ} (ne : other ≠ handle) (txn : Option Txn)
    (native : Native) :
    (native.setTxn handle txn).txns other = native.txns other := by
  simp [setTxn, ne]

private theorem wrap_self (wrapper : Wrapper) (native : Native) :
    (native.wrap wrapper).txns native.count = wrapper := by
  simp [wrap]

private theorem wrap_of_ne (wrapper : Wrapper) {native : Native} {other : ℕ}
    (ne : other ≠ native.count) :
    (native.wrap wrapper).txns other = native.txns other := by
  simp [wrap, ne]

end Native

namespace Books

variable {native middle next : Native} {handle : ℕ}

private theorem cached_same (same : next.readLock = native.readLock) (reader : Reader)
    (found : next.readLock = some reader) : reader.From native native.readLock :=
  .same (same ▸ found)

theorem of_same (same : next.books = native.books) (handle : ℕ) : Books handle native next := by
  obtain ⟨committed, log, txns, cached⟩ := Native.books_eq_iff.mp same
  refine .keeps committed log (fun _ _ => by rw [txns]) ?_ (cached_same cached)
  rw [txns]
  exact fun _ => .same

theorem refl (handle : ℕ) (native : Native) : Books handle native native := of_same rfl handle

/-- A method that sets the transaction of an object. -/
theorem setTxn (same : middle.books = native.books) {txn : Option Txn}
    (derived : ∀ new, txn = some new → new.From native (native.txns handle).txn) :
    Books handle native (middle.setTxn handle txn) := by
  obtain ⟨committed, log, txns, cached⟩ := Native.books_eq_iff.mp same
  refine .keeps committed log ?_ ?_ (cached_same cached)
  · intro other ne
    rw [Native.setTxn_of_ne ne, txns]
  · rw [Native.setTxn_txn]
    exact derived

/-- A method that makes an object. -/
theorem wrap (same : middle.books = native.books) (count : middle.count = native.count)
    {wrapper : Wrapper}
    (derived : ∀ new, wrapper.txn = some new → new.From native (native.txns native.count).txn) :
    Books native.count native (middle.wrap wrapper) := by
  obtain ⟨committed, log, txns, cached⟩ := Native.books_eq_iff.mp same
  refine .keeps committed log ?_ ?_ (cached_same cached)
  · intro other ne
    rw [Native.wrap_of_ne _ (count ▸ ne), txns]
  · rw [← count, Native.wrap_self, count]
    exact derived

end Books

section Calls

variable (returns : Returns) {native : Native}

private theorem beginWrite_books {answer : Except Rc Txn} {next : Native}
    (begun : beginWrite returns native = some (answer, next)) :
    next.books = native.books ∧
      ((∃ rc, answer = .error rc) ∨
        native.locked = false ∧ ∃ number, answer = .ok (.writer number native.committed [])) := by
  unfold beginWrite at begun
  split at begun
  · cases begun
    exact ⟨rfl, .inl ⟨_, rfl⟩⟩
  · split_ifs at begun with locked
    cases begun
    exact ⟨rfl, .inr ⟨Bool.eq_false_iff.mpr locked, _, rfl⟩⟩

private theorem beginRead_books {answer : Except Rc Reader} {next : Native}
    (begun : beginRead returns native = (answer, next)) :
    next.books = native.books ∧ next.count = native.count ∧
      ∀ reader, answer = .ok reader → reader = ⟨native.committed, true, false⟩ := by
  unfold beginRead at begun
  split at begun
  · cases begun
    exact ⟨rfl, rfl, by rintro _ ⟨⟩⟩
  · split_ifs at begun <;> cases begun
    · exact ⟨rfl, rfl, by rintro _ ⟨⟩⟩
    · exact ⟨rfl, rfl, fun _ same => (Except.ok.inj same).symm⟩

/-- A renewal takes a new snapshot or goes on with the old one. -/
theorem mdbRenew_books (reader : Reader) (native : Native) :
    (mdbRenew returns reader native).2.2.books = native.books ∧
      (mdbRenew returns reader native).2.1.From native (some reader) := by
  unfold mdbRenew
  cases reset : reader.reset with
  | false => exact ⟨rfl, .same rfl⟩
  | true =>
    cases returns native.calls with
    | some rc => exact ⟨rfl, .same rfl⟩
    | none =>
      cases native.slotTaken with
      | true => exact ⟨rfl, .inr ⟨reader, rfl, rfl⟩⟩
      | false => exact ⟨rfl, .inl rfl⟩

private theorem mdbReset_books (reader : Reader) (native : Native) :
    (mdbReset reader native).2.books = native.books ∧
      (mdbReset reader native).1.snapshot = reader.snapshot := by
  refine ⟨?_, rfl⟩
  unfold mdbReset
  cases reader.slot <;> rfl

private theorem mdbGet_books (db : Db) (key : Bytes) (txn : Option Txn) (native : Native) :
    (mdbGet returns db key txn native).2.books = native.books := by
  rcases mdbGet_state returns db key txn native with same | asked
  · rw [same]
  · rw [asked]
    rfl

private theorem mdbWrite_books (entry : Entry) (txn : Option Txn) (native : Native) :
    (mdbWrite returns entry txn native).2.2.books = native.books ∧
      ∀ new, (mdbWrite returns entry txn native).2.1 = some new → new.From native txn := by
  cases txn with
  | none => exact ⟨rfl, by rintro _ ⟨⟩⟩
  | some txn =>
    cases txn with
    | reader reader => exact ⟨rfl, fun _ => .same⟩
    | writer number view entries =>
      simp only [mdbWrite]
      cases returns native.calls with
      | some rc => exact ⟨rfl, fun _ => .same⟩
      | none =>
        have applied : entry.apply view = (entry.write view).getD view := rfl
        cases written : entry.write view with
        | some after =>
          rw [written, Option.getD_some] at applied
          refine ⟨rfl, ?_⟩
          rintro _ ⟨⟩
          rw [← applied]
          exact .wrote rfl entry
        | none =>
          rw [written, Option.getD_none] at applied
          refine ⟨rfl, ?_⟩
          rintro _ ⟨⟩
          have left : Txn.From native (some (.writer number view entries))
            (.writer number (entry.apply view) (entries ++ [entry])) := .wrote rfl entry
          rwa [applied] at left

private theorem mdbAbort_books (txn : Option Txn) (native : Native) :
    (mdbAbort txn native).books = native.books := by
  cases txn with
  | none => rfl
  | some txn =>
    cases txn with
    | reader reader =>
      simp only [mdbAbort]
      split_ifs <;> rfl
    | writer number view entries => rfl

/-- A commit publishes the view of a write transaction, or changes nothing. -/
theorem mdbCommit_books (txn : Option Txn) (native : Native) :
    (mdbCommit returns txn native).2.books = native.books ∨
      ∃ number view entries, txn = some (.writer number view entries) ∧
        (mdbCommit returns txn native).2.books =
          { native with committed := view, log := native.log ++ [entries] }.books := by
  cases txn with
  | none => exact .inl rfl
  | some txn =>
    cases txn with
    | reader reader =>
      refine .inl ?_
      simp only [mdbCommit]
      split_ifs <;> rfl
    | writer number view entries =>
      simp only [mdbCommit]
      cases returns native.calls with
      | some rc => exact .inl rfl
      | none => exact .inr ⟨number, view, entries, rfl, rfl⟩

/-- A write in a transaction of its own. -/
theorem writeScope_alone_books {entry : Entry} {rc : Option Rc} {next : Native}
    (ran : writeScope returns .undefined entry native = some (rc, next)) (handle : ℕ) :
    Books handle native next := by
  simp only [writeScope] at ran
  cases begun : beginWrite returns native with
  | none => simp [begun] at ran
  | some answer =>
    obtain ⟨answer, middle⟩ := answer
    rcases beginWrite_books returns begun with ⟨same, ⟨_, rfl⟩ | ⟨free, number, rfl⟩⟩
    · simp only [begun] at ran
      cases ran
      exact .of_same same _
    · simp only [begun] at ran
      obtain ⟨same', derived⟩ :=
        mdbWrite_books returns entry (some (.writer number native.committed [])) middle
      generalize mdbWrite returns entry (some (.writer number native.committed [])) middle = answer
        at ran same' derived
      obtain ⟨code, txn, written⟩ := answer
      cases ran
      have books : written.books = native.books := same'.trans same
      split_ifs
      · rcases mdbCommit_books returns txn written with
          unpublished | ⟨number', view, entries, rfl, published⟩
        · exact .of_same (unpublished.trans books) _
        · have base := (Native.books_eq_iff.mp same).1
          have own : (Txn.writer number' view entries).Own middle.committed := by
            refine (derived _ rfl).own ?_
            rintro _ ⟨⟩
            exact base.symm
          obtain ⟨-, log, txns, cached⟩ := Native.books_eq_iff.mp books
          obtain ⟨committed', log', txns', cached'⟩ := Native.books_eq_iff.mp published
          rw [Txn.Own, base] at own
          exact .writes free (committed'.trans own) (log'.trans (congrArg (· ++ _) log))
            (txns'.trans txns) (cached'.trans cached)
      · exact .of_same ((mdbAbort_books txn written).trans books) _

/-- The object that a last argument names. -/
def namedBy (native : Native) : Value → ℕ
  | .txn handle => handle
  | _ => native.count

/-- A write in the caller's transaction, or in one of its own. -/
theorem writeScope_books {arg : Value} {entry : Entry} {rc : Option Rc} {next : Native}
    (ran : writeScope returns arg entry native = some (rc, next)) :
    Books (namedBy native arg) native next := by
  cases arg with
  | txn handle =>
    obtain ⟨same, derived⟩ := mdbWrite_books returns entry (native.txns handle).txn native
    cases ran
    exact .setTxn same derived
  | buffer bytes => cases ran
  | undefined => exact writeScope_alone_books returns ran _
  | number num => exact writeScope_alone_books returns ran _
  | text chars => exact writeScope_alone_books returns ran _

theorem Db.put_books (v8 : V8) (db : Db) (key val arg : Value) (native : Native) :
    Books (namedBy native arg) native (db.put returns v8 key val arg native).2 := by
  unfold Db.put
  split
  · split
    · exact .refl _ native
    · exact writeScope_books returns ‹_›
    · exact writeScope_books returns ‹_›
  · exact .refl _ native

theorem Db.del_books (v8 : V8) (db : Db) (key val arg : Value) (native : Native) :
    Books (namedBy native arg) native (db.del returns v8 key val arg native).2 := by
  unfold Db.del
  split
  · split
    · exact .refl _ native
    · exact writeScope_books returns ‹_›
    · split_ifs <;> exact writeScope_books returns ‹_›
  · exact .refl _ native

theorem Write.within_books (v8 : V8) (db : Db) (txn : Option ℕ) (write : Write) (native : Native) :
    Books (namedBy native (txnArg txn)) native (write.within returns v8 db txn native).2 := by
  rcases write.within_cases returns v8 db txn native with ⟨-, error, threw⟩ | ⟨entry, -, ran⟩
  · rw [threw]
    exact .refl _ native
  · rw [ran]
    split
    · exact .refl _ native
    · exact writeScope_books returns ‹_›

/-- Only the cached transaction changes, and sees what it saw or the latest state. -/
structure Cached (before after : Native) : Prop where
  committed : after.committed = before.committed
  log : after.log = before.log
  txns : after.txns = before.txns
  cached : ∀ reader, after.readLock = some reader → reader.From before before.readLock

theorem Cached.books {before after : Native} (cached : Cached before after) (handle : ℕ) :
    Books handle before after := by
  refine .keeps cached.committed cached.log (fun _ _ => by rw [cached.txns]) ?_ cached.cached
  rw [cached.txns]
  exact fun _ => .same

theorem Cached.of_same {before after : Native} (same : after.books = before.books) :
    Cached before after := by
  obtain ⟨committed, log, txns, cached⟩ := Native.books_eq_iff.mp same
  exact ⟨committed, log, txns, Books.cached_same cached⟩

theorem Cached.trans {before middle after : Native} (first : Cached before middle)
    (second : Cached middle after) : Cached before after := by
  refine ⟨second.committed.trans first.committed, second.log.trans first.log,
    second.txns.trans first.txns, ?_⟩
  intro reader found
  rcases second.cached reader found with latest | ⟨old, found', seen⟩
  · exact .inl (latest.trans first.committed)
  · rcases first.cached old found' with latest | ⟨older, found'', seen'⟩
    · exact .inl (seen.trans latest)
    · exact .inr ⟨older, found'', seen.trans seen'⟩

theorem requireReadlock_cached (native : Native) : Cached native
    (requireReadlock returns native) := by
  unfold requireReadlock
  cases lock : native.readLock with
  | some reader =>
    obtain ⟨same, derived⟩ := mdbRenew_books returns reader native
    obtain ⟨committed, log, txns, -⟩ := Native.books_eq_iff.mp same
    refine ⟨committed, log, txns, ?_⟩
    rintro _ ⟨⟩
    rw [lock]
    exact derived
  | none =>
    cases begun : beginRead returns native with
    | mk answer next =>
      obtain ⟨same, -, derived⟩ := beginRead_books returns begun
      cases answer with
      | error rc => exact .of_same same
      | ok reader =>
        obtain rfl := derived reader rfl
        obtain ⟨committed, log, txns, -⟩ := Native.books_eq_iff.mp same
        refine ⟨committed, log, txns, ?_⟩
        rintro _ ⟨⟩
        exact .inl rfl

private theorem releaseReadlock_cached (native : Native) : Cached native
    (releaseReadlock native) := by
  unfold releaseReadlock
  cases lock : native.readLock with
  | none => exact .of_same rfl
  | some reader =>
    obtain ⟨same, seen⟩ := mdbReset_books reader native
    obtain ⟨committed, log, txns, -⟩ := Native.books_eq_iff.mp same
    refine ⟨committed, log, txns, ?_⟩
    rintro _ ⟨⟩
    exact .inr ⟨reader, lock, seen⟩

theorem dbGet_cached (v8 : V8) (db : Db) (key : Value) (txn : Option ℕ) (native : Native) :
    Cached native (dbGet returns v8 db key txn native).2 := by
  unfold dbGet
  split
  · exact .of_same rfl
  · unfold Db.get
    split
    · exact .of_same rfl
    · cases txn with
      | some handle => exact .of_same (mdbGet_books returns db _ _ native)
      | none =>
        have required := requireReadlock_cached returns native
        refine (required.trans (.of_same ?_)).trans (releaseReadlock_cached _)
        exact mdbGet_books returns db _ _ _

/-- A new transaction object. -/
theorem txnCtor_books (readonly : Bool) (native : Native) :
    Books native.count native (txnCtor returns readonly native).2 := by
  unfold txnCtor
  cases readonly with
  | true =>
    simp only [↓reduceIte]
    cases begun : beginRead returns native with
    | mk answer next =>
      obtain ⟨same, count, derived⟩ := beginRead_books returns begun
      cases answer with
      | error rc => exact .of_same same _
      | ok reader =>
        obtain rfl := derived reader rfl
        refine .wrap same count ?_
        rintro _ ⟨⟩
        exact .snapshot rfl
  | false =>
    simp only [Bool.false_eq_true, ↓reduceIte]
    cases begun : beginWrite returns native with
    | none => exact .refl _ native
    | some answer =>
      obtain ⟨answer, next⟩ := answer
      rcases beginWrite_books returns begun with ⟨same, ⟨rc, rfl⟩ | ⟨-, number, rfl⟩⟩
      · exact .of_same same _
      · have count : next.count = native.count := by
          rcases beginWrite_cases returns begun with ⟨_, -, kept⟩ | ⟨_, -, -, -, kept⟩
          · exact (Native.writers_eq_iff.mp kept).2.1
          · exact (Native.writers_eq_iff.mp kept).2.1
        refine .wrap same count ?_
        rintro _ ⟨⟩
        exact .begun number

theorem txnCommit_books (handle : ℕ) (native : Native) :
    Books handle native (txnCommit returns handle native).2 := by
  unfold txnCommit
  cases found : (native.txns handle).txn with
  | none => exact .refl _ native
  | some txn =>
    rcases mdbCommit_books returns (some txn) native with
      same | ⟨number, view, entries, own, published⟩
    · exact .setTxn same (by rintro _ ⟨⟩)
    · obtain ⟨committed, log, txns, cached⟩ := Native.books_eq_iff.mp published
      refine .commits (found.trans own) committed log ?_ (Native.setTxn_txn ..) cached
      intro other ne
      rw [Native.setTxn_of_ne ne, txns]

theorem txnAbort_books (handle : ℕ) (native : Native) :
    Books handle native (txnAbort handle native).2 := by
  unfold txnAbort
  cases (native.txns handle).txn with
  | none => exact .refl _ native
  | some txn => exact .setTxn (mdbAbort_books (some txn) native) (by rintro _ ⟨⟩)

theorem txnReset_books (handle : ℕ) (native : Native) :
    Books handle native (txnReset handle native).2 := by
  unfold txnReset
  cases found : (native.txns handle).txn with
  | none => exact .refl _ native
  | some txn =>
    cases txn with
    | writer number view entries => exact .refl _ native
    | reader reader =>
      obtain ⟨same, seen⟩ := mdbReset_books reader native
      refine .setTxn same ?_
      rintro _ ⟨⟩
      exact .moved found (.inr ⟨reader, rfl, seen⟩)

theorem txnRenew_books (handle : ℕ) (native : Native) :
    Books handle native (txnRenew returns handle native).2 := by
  unfold txnRenew
  cases (native.txns handle).readonly with
  | true =>
    cases found : (native.txns handle).txn with
    | none => exact .refl _ native
    | some txn =>
      cases txn with
      | writer number view entries => exact .refl _ native
      | reader reader =>
        obtain ⟨same, seen⟩ := mdbRenew_books returns reader native
        refine .setTxn same ?_
        rintro _ ⟨⟩
        exact .moved found seen
  | false =>
    cases found : (native.txns handle).txn with
    | some txn => exact .refl _ native
    | none =>
      simp only [Bool.false_eq_true, Option.isSome_none, ↓reduceIte]
      cases begun : beginWrite returns native with
      | none => exact .refl _ native
      | some answer =>
        obtain ⟨answer, next⟩ := answer
        rcases beginWrite_books returns begun with ⟨same, ⟨rc, rfl⟩ | ⟨-, number, rfl⟩⟩
        · exact .of_same same _
        · refine .setTxn same ?_
          rintro _ ⟨⟩
          exact .begun number

/-- Opening a database commits a transaction without writes. -/
theorem dbCtor_books (handle : ℕ) (native : Native) :
    Books handle native (dbCtor returns native).2 := by
  unfold dbCtor
  cases begun : beginWrite returns native with
  | none => exact .refl _ native
  | some answer =>
    obtain ⟨answer, middle⟩ := answer
    rcases beginWrite_books returns begun with ⟨same, ⟨rc, rfl⟩ | ⟨free, number, rfl⟩⟩
    · exact .of_same same _
    · simp only
      cases code : returns middle.calls with
      | some rc =>
        have aborted := mdbAbort_books (some (.writer number native.committed [])) middle.called
        exact .of_same (aborted.trans same) _
      | none =>
        have ended := mdbCommit_books returns (some (.writer number native.committed [])) middle.called
        generalize mdbCommit returns (some (.writer number native.committed [])) middle.called = answer
          at ended ⊢
        obtain ⟨rc, next⟩ := answer
        have committed : Books handle native next := by
          rcases ended with unpublished | ⟨_, _, _, ⟨⟩, published⟩
          · exact .of_same (unpublished.trans same) _
          · obtain ⟨-, log, txns, cached⟩ := Native.books_eq_iff.mp same
            obtain ⟨committed', log', txns', cached'⟩ := Native.books_eq_iff.mp published
            have unwritten : next.committed = ([] : List Entry).foldl Entry.apply native.committed :=
              committed'
            exact .writes free unwritten (log'.trans (congrArg (· ++ _) log)) (txns'.trans txns)
              (cached'.trans cached)
        cases rc with
        | some rc => exact committed
        | none => exact committed

end Calls

/-- The committed state, and what the transactions see, by the journal. -/
structure Journaled (initial : Store) (native : Native) : Prop where
  committed : native.committed = replay Entry.apply initial native.log
  own : ∀ handle txn, (native.txns handle).txn = some txn → txn.Own native.committed
  versions : ∀ handle reader, (native.txns handle).txn = some (.reader reader) →
    IsVersion Entry.apply initial native.log reader.snapshot
  cached : ∀ reader, native.readLock = some reader →
    IsVersion Entry.apply initial native.log reader.snapshot

section Journaled

variable {initial : Store} {before after : Native} {handle : ℕ}

theorem Reader.From.isVersion {old : Option Reader} {reader : Reader}
    (derived : reader.From before old) (journaled : Journaled initial before)
    (version : ∀ reader, old = some reader →
      IsVersion Entry.apply initial before.log reader.snapshot) :
    IsVersion Entry.apply initial before.log reader.snapshot := by
  rcases derived with latest | ⟨older, found, seen⟩
  · rw [latest, journaled.committed]
    exact .latest
  · rw [seen]
    exact version older found

theorem Txn.From.isVersion {reader : Reader}
    (derived : (Txn.reader reader).From before (before.txns handle).txn)
    (journaled : Journaled initial before) :
    IsVersion Entry.apply initial before.log reader.snapshot := by
  cases derived with
  | same found => exact journaled.versions handle reader found
  | snapshot latest =>
    rw [latest, journaled.committed]
    exact .latest
  | moved found seen =>
    refine seen.isVersion journaled ?_
    rintro _ ⟨⟩
    exact journaled.versions handle _ found

/-- A commit leaves only read-only transactions, which keep their versions. -/
theorem Journaled.published (journaled : Journaled initial before) {entries : List Entry}
    (committed : after.committed = entries.foldl Entry.apply before.committed)
    (log : after.log = before.log ++ [entries])
    (txns : ∀ handle txn, (after.txns handle).txn = some txn →
      (before.txns handle).txn = some txn ∧ before.writes handle = false)
    (cached : after.readLock = before.readLock) : Journaled initial after := by
  have grown : before.log <+: after.log := by
    rw [log]
    exact List.prefix_append ..
  refine ⟨?_, ?_, ?_, ?_⟩
  · rw [committed, log, replay_concat, journaled.committed]
  · intro handle txn found
    obtain ⟨found', reads⟩ := txns handle txn found
    cases txn with
    | reader reader => trivial
    | writer number view entries =>
      rw [Native.writes, found', Option.any_some] at reads
      cases reads
  · intro handle reader found
    exact (journaled.versions handle reader (txns handle _ found).1).mono grown
  · intro reader found
    exact (journaled.cached reader (cached ▸ found)).mono grown

theorem Books.journaled (books : Books handle before after) (exclusive : Exclusive before)
    (journaled : Journaled initial before) : Journaled initial after := by
  cases books with
  | keeps committed log others txn cached =>
    refine ⟨by rw [committed, log, journaled.committed], ?_, ?_, ?_⟩
    · intro other found member
      rw [committed]
      by_cases here : other = handle
      · subst here
        exact (txn found member).own (journaled.own other)
      · rw [others other here] at member
        exact journaled.own other found member
    · intro other reader member
      rw [log]
      by_cases here : other = handle
      · subst here
        exact (txn _ member).isVersion journaled
      · rw [others other here] at member
        exact journaled.versions other reader member
    · intro reader found
      rw [log]
      exact (cached reader found).isVersion journaled journaled.cached
  | commits own committed log others closed cached =>
    have seen := journaled.own handle _ own
    rw [Txn.Own] at seen
    refine journaled.published (committed.trans seen) log ?_ cached
    intro other txn found
    by_cases here : other = handle
    · rw [here, closed] at found
      cases found
    · rw [others other here] at found
      refine ⟨found, ?_⟩
      -- The one that commits holds the mutex, so no other object is writing.
      have holds : before.writes handle = true := by rw [Native.writes, own, Option.any_some, Txn.writes]
      by_contra writes
      exact here (exclusive.mutex.alone holds (Bool.eq_true_of_not_eq_false writes))
  | writes free committed log txns cached =>
    refine journaled.published committed log ?_ cached
    intro other txn found
    rw [txns] at found
    exact ⟨found, exclusive.mutex.free free other⟩

/-- The journal only grows. -/
theorem Books.log_prefix (books : Books handle before after) : before.log <+: after.log := by
  cases books with
  | keeps committed log others txn cached => rw [log]
  | commits own committed log others closed cached =>
    rw [log]
    exact List.prefix_append ..
  | writes free committed log txns cached =>
    rw [log]
    exact List.prefix_append ..

theorem Books.others (books : Books handle before after) {other : ℕ} (ne : other ≠ handle) :
    after.txns other = before.txns other := by
  cases books with
  | keeps committed log others txn cached => exact others other ne
  | commits own committed log others closed cached => exact others other ne
  | writes free committed log txns cached => rw [txns]

end Journaled

end NodeKv.Lmdb
