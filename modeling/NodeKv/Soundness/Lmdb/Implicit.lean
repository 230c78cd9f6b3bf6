import NodeKv.Proofs.Lmdb.Scope

/-! # What an implicit write reports

A `put` or `del` without a transaction begins one, writes in it, and leaves the commit to the
destructor of `txn_scope`, which runs after the result has been set. A failed begin is noticed,
because the write into the missing transaction fails; a failed write is thrown or, for a key that
was not found, reported as false, and aborts. The code of the commit is dropped: the call returns
true whether the write was committed or not.
-/

namespace NodeKv.Lmdb

open Machine

/-- `mdb_del` returned `MDB_NOTFOUND` within the transaction that the call began: LMDB said so, or
there was nothing to remove. -/
def NothingFound (returns : Returns) (asked : Entry) (prior : Native) : Prop :=
  returns prior.calls = none ∧ (returns (prior.calls + 1) = some .notFound ∨
    returns (prior.calls + 1) = none ∧ asked.write prior.committed = none)

/-- What a write should report: true if it was committed, and otherwise nothing has happened. -/
structure WriteReported (returns : Returns) (write : Write) (entry : Option Entry)
    (prior after : Native) (reply : Result Bool) : Prop where
  done : reply = .ok true → ∃ asked, entry = some asked ∧
    asked.write prior.committed = some after.committed ∧ after.log = prior.log ++ [[asked]]
  undone : reply ≠ .ok true → after.committed = prior.committed ∧ after.log = prior.log
  /-- False is for a key that a `del` did not find; everything else is thrown. -/
  failed : reply ≠ .ok true →
    (reply = .ok false ∧ write.isDel ∧ ∃ asked, entry = some asked ∧
      NothingFound returns asked prior) ∨ ∃ error, reply = .throws error

/-- A commit that is tried succeeds. -/
def CommitSucceeds (returns : Returns) (entry : Option Entry) (prior : Native) : Prop :=
  ∀ asked store, entry = some asked → returns prior.calls = none →
    returns (prior.calls + 1) = none → asked.write prior.committed = some store →
    returns (prior.calls + 2) = none

/-- A write that has done nothing, and said so. -/
theorem WriteReported.of_undone {returns : Returns} {write : Write} {entry : Option Entry}
    {prior after : Native} {reply : Result Bool} (committed : after.committed = prior.committed)
    (log : after.log = prior.log)
    (reports : (reply = .ok false ∧ write.isDel ∧ ∃ asked, entry = some asked ∧
      NothingFound returns asked prior) ∨ ∃ error, reply = .throws error) :
    WriteReported returns write entry prior after reply := by
  constructor
  · intro succeeded
    rcases reports with ⟨refused, -⟩ | ⟨error, threw⟩
    · exact nomatch succeeded.symm.trans refused
    · exact nomatch succeeded.symm.trans threw
  · exact fun _ => ⟨committed, log⟩
  · exact fun _ => reports

/-- A write that LMDB did not carry out reports false only for what `mdb_del` did not find: with no
transaction begun the code is `EINVAL`, which is thrown. -/
theorem reply_of_refused {returns : Returns} {write : Write} {entry : Entry} {prior : Native}
    {rc : Rc}
    (early : returns prior.calls = none → returns (prior.calls + 1) = some rc ∨
      returns (prior.calls + 1) = none ∧ entry.write prior.committed = none ∧ rc = .notFound)
    (unbegun : returns prior.calls ≠ none → rc = .einval) :
    (write.reply (some rc) = .ok false ∧ write.isDel ∧ ∃ asked, some entry = some asked ∧
      NothingFound returns asked prior) ∨ ∃ error, write.reply (some rc) = .throws error := by
  rcases write.reply_some rc with ⟨refused, deletes, rfl⟩ | threw
  · have began : returns prior.calls = none := by
      by_contra failed
      exact absurd (unbegun failed) (by decide)
    refine .inl ⟨refused, deletes, entry, rfl, began, ?_⟩
    rcases early began with reported | ⟨silent, missing, -⟩
    · exact .inl reported
    · exact .inr ⟨silent, missing⟩
  · exact .inr threw

/-- For all codes that LMDB may return while no other transaction is writing, an implicit write
reports what it has done exactly if the commit does not fail. -/
theorem implicit_write_reported_iff (returns : Returns) (v8 : V8) (db : Db) (write : Write)
    (native : Native) (unlocked : native.locked = false) :
    WriteReported returns write (write.asked? v8 db) native (write.perform returns v8 db native).2
        (write.perform returns v8 db native).1 ↔
      CommitSucceeds returns (write.asked? v8 db) native := by
  rcases write.perform_cases returns v8 db native with
    ⟨rejected, error, threw⟩ | ⟨entry, given, performed⟩
  · rw [rejected, threw]
    constructor
    · intro _ asked store missing
      exact nomatch missing
    · intro _
      exact .of_undone rfl rfl (.inr ⟨error, rfl⟩)
  · rw [given, performed]
    rcases writeScope_cases unlocked entry with
      ⟨rc, next, ran, committed, log, early, unbegun⟩ | ⟨store, next, ran, began, wrote, written, ended⟩
    · -- The commit is not tried, and nothing but an error or false is reported.
      rw [ran]
      constructor
      · intro _ asked store same began wrote written
        obtain rfl := Option.some.inj same
        rcases early began with failed | ⟨-, missing, -⟩
        · exact nomatch wrote.symm.trans failed
        · exact nomatch missing.symm.trans written
      · intro _
        exact .of_undone committed log (reply_of_refused early unbegun)
    · -- The commit is tried, and true is reported whatever it returns.
      rw [ran]
      have succeeded : write.reply none = .ok true := by cases write <;> rfl
      constructor
      · intro reported asked store' same _ _ _
        by_contra failed
        rw [if_neg failed] at ended
        obtain ⟨asked, -, -, logged⟩ := reported.done succeeded
        have longer := congrArg List.length (logged.symm.trans (Prod.mk.inj ended).2)
        simp at longer
      · intro succeeds
        rw [if_pos (succeeds entry store rfl began wrote written)] at ended
        obtain ⟨committed, log⟩ := Prod.mk.inj ended
        constructor
        · exact fun _ => ⟨entry, rfl, written.trans (congrArg some committed.symm), log⟩
        · exact fun other => absurd succeeded other
        · exact fun other => absurd succeeded other

/-- LMDB returns an error for one of its calls. -/
def failing (call : ℕ) (rc : Rc) : Returns := fun index => if index = call then some rc else none

/-- A put that LMDB has no objection to. -/
theorem implicit_write_reported_on_success :
    WriteReported silent (.put (.number (.finite 1)) (.number (.finite 7)))
      (Write.asked? V8.basic ⟨0, .int32, .int32, false⟩
        (.put (.number (.finite 1)) (.number (.finite 7))))
      (.opened fun _ _ => [])
      (Write.perform silent V8.basic ⟨0, .int32, .int32, false⟩
        (.put (.number (.finite 1)) (.number (.finite 7))) (.opened fun _ _ => [])).2
      (Write.perform silent V8.basic ⟨0, .int32, .int32, false⟩
        (.put (.number (.finite 1)) (.number (.finite 7))) (.opened fun _ _ => [])).1 :=
  (implicit_write_reported_iff silent V8.basic ⟨0, .int32, .int32, false⟩ _ _ rfl).mpr
    fun _ _ _ _ _ _ => rfl

/-- The commit finds no space left: the put returns true, and nothing is stored. -/
theorem put_reports_failed_commit :
    let full := failing 2 (.system "No space left on device")
    let (reply, after) := dbPut full V8.basic ⟨0, .int32, .int32, false⟩ (.number (.finite 1))
      (.number (.finite 7)) none (.opened fun _ _ => [])
    reply = .ok true ∧ ∀ key, after.committed 0 key = [] :=
  ⟨rfl, fun _ => rfl⟩

end NodeKv.Lmdb
