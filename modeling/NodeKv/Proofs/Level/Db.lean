import NodeKv.Machine.Ledger
import NodeKv.Model.Level.Db

/-! # One database and its batch

What `put`, `del` and `flushBatchOps` do to a single database. A rejected argument touches
nothing, an accepted one adds a record and counts it, and a flush writes the whole batch or throws
and changes neither the store nor the batch.
-/

namespace NodeKv.Level

open Machine

variable {v8 : V8}

/-- What a database has written and what its batch holds. -/
def Db.ledger (db : Db) : Ledger Record := ⟨db.log, db.records⟩

/-- The counter shadows the batch, and the store is the replay of what was written. -/
structure Counted (store : Bytes → Option Bytes) (db : Db) : Prop where
  cnt : db.cnt = db.records.length
  replayed : db.store = applyAll store db.log

/-- The store as it was, and the batch with these records at its end. -/
structure Kept (accepted : List Record) (before after : Db) : Prop where
  store : after.store = before.store
  log : after.log = before.log
  records : after.records = before.records ++ accepted
  cnt : after.cnt = before.cnt + accepted.length

theorem Kept.conserves {accepted : List Record} {before after : Db}
    (kept : Kept accepted before after) : before.ledger.Conserves accepted after.ledger := by
  have same : after.ledger = ⟨before.ledger.settled, before.ledger.pending ++ accepted⟩ := by
    simp only [Db.ledger, kept.log, kept.records]
  rw [same]
  exact .accept _ _

theorem Kept.counted {accepted : List Record} {before after : Db} {store : Bytes → Option Bytes}
    (kept : Kept accepted before after) (counted : Counted store before) : Counted store after := by
  constructor
  · rw [kept.cnt, kept.records, counted.cnt, List.length_append]
  · rw [kept.store, kept.log, counted.replayed]

theorem Kept.refl (db : Db) : Kept [] db db := ⟨rfl, rfl, (List.append_nil _).symm, rfl⟩

theorem Kept.then {first : List Record} {before middle after : Db} (left : Kept first before middle)
    (right : Kept [] middle after) : Kept first before after := by
  constructor
  · rw [right.store, left.store]
  · rw [right.log, left.log]
  · rw [right.records, left.records, List.append_nil]
  · rw [right.cnt, left.cnt, List.length_nil, Nat.add_zero]

section Db

variable (fails : Fails) {schema : Schema} {db : Db} {store : Bytes → Option Bytes}

/-- A write is refused before anything happens, or the engine gets its record. -/
theorem Op.perform_cases (schema : Schema) (target : Target) (op : Op) :
    (op.record? v8 schema = none ∧ ∃ error, op.perform v8 fails schema target = .threw error) ∨
    ∃ record, op.record? v8 schema = some record ∧
      op.perform v8 fails schema target = writeRecord fails target record := by
  cases op with
  | put key val =>
    simp only [Op.record?, Op.perform, Level.put]
    rcases schema.keyType.check_cases v8 key with
      ⟨error, rejected, checked⟩ | ⟨key', sanitized, checked⟩
    · rw [rejected, checked]
      exact .inl ⟨rfl, error, rfl⟩
    · rcases schema.valType.check_cases v8 val with
        ⟨error, rejected, checked'⟩ | ⟨val', sanitized', checked'⟩
      · rw [sanitized, rejected, checked, checked']
        exact .inl ⟨rfl, error, rfl⟩
      · rw [sanitized, sanitized', checked, checked']
        refine .inr ⟨.put key'.bytes val'.bytes, rfl, ?_⟩
        simp only [nativePut, Datum.encode_value]
  | del key =>
    simp only [Op.record?, Op.perform, Level.del]
    rcases schema.keyType.check_cases v8 key with
      ⟨error, rejected, checked⟩ | ⟨key', sanitized, checked⟩
    · rw [rejected, checked]
      exact .inl ⟨rfl, error, rfl⟩
    · rw [sanitized, checked]
      refine .inr ⟨.del key'.bytes, rfl, ?_⟩
      simp only [nativeDel, Datum.encode_value]

/-- The counter moves with the batch: a rejected argument moves neither. -/
theorem batchRecord_meets (schema : Schema) (op : Op) (db : Db) :
    (batchRecord v8 fails schema op db).Meets False
      (fun next => Kept (op.record? v8 schema).toList db next ∧ next.batchSize = db.batchSize)
      fun _ next => op.record? v8 schema = none ∧ next = db := by
  rcases op.perform_cases fails schema .batch with ⟨refused, error, threw⟩ | ⟨record, given, wrote⟩
  · rw [batchRecord, threw, Prog.seq_threw rfl]
    exact ⟨refused, rfl⟩
  · rw [batchRecord, wrote, writeRecord, Prog.seq_update, given]
    exact ⟨⟨rfl, rfl, rfl, rfl⟩, rfl⟩

theorem writeRecords_meets (records : List Record) (db : Db) :
    (writeRecords fails records db).Meets False
      (fun next => next = { db with
        calls := db.calls + 1, store := applyAll db.store records, log := db.log ++ records })
      fun _ next => Kept [] db next ∧ ∃ call text, fails call = some text := by
  unfold writeRecords
  cases status : fails db.calls with
  | some text => exact ⟨{ Kept.refl db with }, _, text, status⟩
  | none => exact rfl

/-- A flush writes the whole batch, or throws and changes neither store nor batch. -/
theorem flushBatchOps_meets (counted : Counted store db) :
    (flushBatchOps fails db).Meets False
      (fun next => Counted store next ∧ next.records = [] ∧
        db.ledger.Conserves [] next.ledger)
      fun _ next => Kept [] db next := by
  unfold flushBatchOps
  split_ifs with some
  · refine Prog.seq_meets ((writeRecords_meets fails db.records db).mono id (fun _ => id) ?_) ?_
    · rintro error next ⟨kept, -⟩
      exact kept
    · rintro _ rfl
      refine ⟨⟨rfl, ?_⟩, rfl, .settle _⟩
      rw [applyAll_append, ← counted.replayed]
  · have empty : db.records = [] := List.length_eq_zero_iff.mp (by rw [← counted.cnt]; omega)
    exact ⟨counted, empty, .refl _⟩

end Db

end NodeKv.Level
