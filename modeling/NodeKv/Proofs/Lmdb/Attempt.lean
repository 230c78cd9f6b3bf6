import NodeKv.Model.Lmdb.Db

/-! # One transaction over a queue

What a flush does natively. A queue of puts runs inside the transaction of the flush: it takes
effect as a whole at the commit, and an error reported at any point leaves the committed store as
it was. A delete never comes back, because it begins a second write transaction.
-/

namespace NodeKv.Lmdb

open Machine

variable {v8 : V8}

@[simp] theorem Native.setTxn_txn (handle : ℕ) (txn : Option Txn) (native : Native) :
    ((native.setTxn handle txn).txns handle).txn = txn := by
  simp [setTxn]

/-- An open write transaction, with the rest of the environment as it was before it. -/
structure Writing (before : Native) (handle : ℕ) (view : Store) (entries : List Entry)
    (native : Native) : Prop where
  txn : ∃ number, (native.txns handle).txn = some (.writer number view entries)
  committed : native.committed = before.committed
  log : native.log = before.log
  begun : native.begun = before.begun + 1
  locked : native.locked = true

/-- An error that LMDB reported. -/
def Reported (returns : Returns) (error : Error) : Prop :=
  ∃ call rc, returns call = some rc ∧ error = .mdb rc

/-- Some writes have been committed in one transaction of their own. -/
structure WroteAll (before : Native) (entries : List Entry) (after : Native) : Prop where
  committed : after.committed = entries.foldl Entry.apply before.committed
  log : after.log = before.log ++ [entries]
  begun : after.begun = before.begun + 1
  unlocked : after.locked = false

/-- The queue has been committed in one transaction of its own. -/
abbrev Settled (before : Native) (ops : List (BatchOp v8)) (after : Native) : Prop :=
  WroteAll before (ops.map BatchOp.entry) after

/-- The transaction is over without effect. -/
structure Undone (before after : Native) : Prop where
  committed : after.committed = before.committed
  log : after.log = before.log
  unlocked : after.locked = false

section Exec

variable (returns : Returns) {before native : Native} {handle : ℕ} {view : Store}
  {entries : List Entry}

/-- A statement that writes one entry in the open transaction. -/
def WritesEntry (before : Native) (handle : ℕ) (entry : Entry) (statement : Prog Error Native) :
    Prop :=
  ∀ view entries native, Writing before handle view entries native →
    (statement native).Meets False
      (Writing before handle (entry.apply view) (entries ++ [entry]))
      fun error next => Reported returns error ∧ Writing before handle view entries next

theorem put_writes {db : Db} {info0 info1 : Value} {key val : Bytes}
    (keyed : db.keyType.encode v8 info0 = some key) (valued : db.valType.encode v8 info1 = some val) :
    WritesEntry returns before handle (.put db key val)
      (Result.statement (db.put returns v8 info0 info1 (.txn handle))) := by
  intro view entries native writing
  obtain ⟨number, txn⟩ := writing.txn
  cases code : returns native.calls with
  | some rc =>
    simp only [Result.statement, Db.put, keyed, valued, writeScope, mdbWrite, txn, code]
    refine ⟨⟨_, rc, code, rfl⟩, ?_⟩
    exact { writing with txn := ⟨number, Native.setTxn_txn ..⟩ }
  | none =>
    simp only [Result.statement, Db.put, keyed, valued, writeScope, mdbWrite, txn, code, Entry.write]
    exact { writing with txn := ⟨number, Native.setTxn_txn ..⟩ }

/-- The loop over the queue. The invariant says what is left to do. -/
theorem forEach_writes {ω : Type*} {exec : ω → Prog Error Native} {entry : ω → Entry} (ops : List ω)
    (writes : ∀ op ∈ ops, WritesEntry returns before handle (entry op) (exec op))
    (writing : Writing before handle view entries native) :
    (Prog.forEach exec ops native).Meets False
      (Writing before handle ((ops.map entry).foldl Entry.apply view) (entries ++ ops.map entry))
      fun error next => Reported returns error ∧
        ∃ view entries, Writing before handle view entries next := by
  induction ops generalizing view entries native with
  | nil =>
    rw [List.map_nil, List.append_nil]
    exact writing
  | cons op rest ih =>
    have head := writes op (List.mem_cons_self ..) view entries native writing
    refine Prog.seq_meets (head.mono id (fun _ => id) ?_) ?_
    · rintro error next ⟨reported, still⟩
      exact ⟨reported, view, entries, still⟩
    · intro next written
      have onward := ih (fun other member => writes other (List.mem_cons_of_mem _ member)) written
      rwa [List.append_assoc, List.singleton_append] at onward

theorem exec_writes {op : BatchOp v8} (put : op.isPut = true) :
    WritesEntry returns before handle op.entry (op.exec returns handle) := by
  cases op with
  | del db key => exact nomatch put
  | put db key val => exact put_writes returns key.encode_value val.encode_value

theorem exec_put (writing : Writing before handle view entries native) {op : BatchOp v8}
    (put : op.isPut = true) :
    (op.exec returns handle native).Meets False
      (Writing before handle (op.entry.apply view) (entries ++ [op.entry]))
      fun error next => Reported returns error ∧ Writing before handle view entries next :=
  exec_writes returns put view entries native writing

private theorem txnCommit_meets (writing : Writing before handle view entries native) :
    (Result.statement (txnCommit returns handle) native).Meets False
      (fun after => after.committed = view ∧ after.log = before.log ++ [entries] ∧
        after.begun = before.begun + 1 ∧ after.locked = false)
      fun error next => Reported returns error ∧ (next.txns handle).txn = none ∧
        Undone before next := by
  obtain ⟨number, txn⟩ := writing.txn
  cases code : returns native.calls with
  | some rc =>
    simp only [Result.statement, txnCommit, txn, mdbCommit, code]
    refine ⟨⟨_, rc, code, rfl⟩, Native.setTxn_txn .., ?_⟩
    exact ⟨writing.committed, writing.log, rfl⟩
  | none =>
    simp only [Result.statement, txnCommit, txn, mdbCommit, code]
    exact ⟨rfl, congrArg (· ++ _) writing.log, writing.begun, rfl⟩

private theorem txnAbort_writing (writing : Writing before handle view entries native) :
    Undone before (txnAbort handle native).2 := by
  obtain ⟨number, txn⟩ := writing.txn
  simp only [txnAbort, txn, mdbAbort]
  exact ⟨writing.committed, writing.log, rfl⟩

end Exec

/-- What can become of a transaction that makes some writes. -/
inductive WritesOutcome (returns : Returns) (entries : List Entry) (before : Native) :
    TxnResult × Native → Prop
  | committed {after : Native} (wrote : WroteAll before entries after) :
      WritesOutcome returns entries before (.committed, after)
  | failed {error : Error} {after : Native} (reported : Reported returns error)
      (undone : Undone before after) : WritesOutcome returns entries before (.failed error, after)
  | notBegun {error : Error} {after : Native} (reported : Reported returns error)
      (undone : Undone before after) : WritesOutcome returns entries before (.notBegun error, after)

section Attempt

variable (returns : Returns) {native : Native}

/-- The transaction of a flush, just begun. -/
theorem txnCtor_write (unlocked : native.locked = false) :
    (∃ error after, txnCtor returns false native = (.throws error, after) ∧
      Reported returns error ∧ Undone native after) ∨
    ∃ handle after, txnCtor returns false native = (.ok handle, after) ∧
      Writing native handle native.committed [] after := by
  cases code : returns native.calls with
  | some rc =>
    refine .inl ⟨.mdb rc, native.called, ?_, ⟨_, rc, code, rfl⟩, rfl, rfl, unlocked⟩
    simp only [txnCtor, beginWrite, code, Bool.false_eq_true, ↓reduceIte]
  | none =>
    let begun : Native := { native.called with locked := true, begun := native.begun + 1 }
    have created : txnCtor returns false native =
        (.ok native.count, begun.wrap ⟨false, some (.writer native.begun native.committed [])⟩) := by
      simp only [txnCtor, beginWrite, code, unlocked, Bool.false_eq_true, ↓reduceIte]
      rfl
    refine .inr ⟨native.count, _, created, ⟨native.begun, ?_⟩, rfl, rfl, rfl, rfl⟩
    simp [begun, Native.wrap, Native.called]

private theorem transaction_writes (unlocked : native.locked = false) {body : ℕ → Prog Error Native}
    {entries : List Entry}
    (writes : ∀ handle after, Writing native handle native.committed [] after →
      (body handle after).Meets False
        (Writing native handle (entries.foldl Entry.apply native.committed) entries)
        fun error next => Reported returns error ∧
          ∃ view entries, Writing native handle view entries next) :
    WritesOutcome returns entries native (transaction returns body native) := by
  rcases txnCtor_write returns unlocked with
    ⟨error, after, begun, reported, undone⟩ | ⟨handle, after, begun, writing⟩
  · simp only [transaction, begun]
    exact .notBegun reported undone
  · have ran : (Prog.seq (body handle) (Result.statement (txnCommit returns handle)) after).Meets
        False (WroteAll native entries)
        fun error next => Reported returns error ∧ Undone native (txnAbort handle next).2 := by
      refine Prog.seq_meets ((writes handle after writing).mono id (fun _ => id) ?_) ?_
      · rintro error next ⟨reported, view, entries, still⟩
        exact ⟨reported, txnAbort_writing still⟩
      · intro next written
        refine (txnCommit_meets returns written).mono id ?_ ?_
        · rintro last ⟨committed, log, count, unlocked⟩
          exact ⟨committed, log, count, unlocked⟩
        · rintro error last ⟨reported, closed, undone⟩
          -- The handle is gone already, so the abort that follows throws and changes nothing.
          simp only [txnAbort, closed]
          exact ⟨reported, undone⟩
    cases outcome : Prog.seq (body handle) (Result.statement (txnCommit returns handle)) after with
    | returned next =>
      rw [outcome] at ran
      simp only [transaction, begun, outcome]
      exact .committed ran
    | threw error next =>
      rw [outcome] at ran
      simp only [transaction, begun, outcome]
      exact .failed ran.1 ran.2
    | diverged =>
      rw [outcome] at ran
      exact ran.elim

/-- A queue of operations that write one entry each, run in a transaction of its own. -/
theorem transaction_forEach (unlocked : native.locked = false) {ω : Type*}
    {exec : ℕ → ω → Prog Error Native} {entry : ω → Entry} {ops : List ω}
    (writes : ∀ handle, ∀ op ∈ ops, WritesEntry returns native handle (entry op) (exec handle op)) :
    WritesOutcome returns (ops.map entry) native
      (transaction returns (fun txn => Prog.forEach (exec txn) ops) native) :=
  transaction_writes returns unlocked fun handle _ writing =>
    forEach_writes returns ops (writes handle) writing

theorem attempt_puts (unlocked : native.locked = false) {ops : List (BatchOp v8)}
    (puts : ∀ op ∈ ops, op.isPut = true) :
    WritesOutcome returns (ops.map BatchOp.entry) native (attempt returns ops native) :=
  transaction_forEach returns unlocked fun _ op member => exec_writes returns (puts op member)

end Attempt

end NodeKv.Lmdb
