import NodeKv.Machine.Simulation
import NodeKv.Model.Rocks.Life
import NodeKv.Proofs.Level.Db

/-! # One column family among several

Seen from one family, the shared contents are a store of their own: a batch does to it what the
records for this family do in order, whatever else the batch holds. So the calls through a bound
database end as those of a LevelDB database with that store, whose batch has the records for the
family only, and leave every other family as it was, except for the default one.
-/

namespace NodeKv.Rocks

open Machine
open Level (Fails Op Record Target)

/-- The records that are for one family. -/
def forFamily (name : Bytes) (entries : List Entry) : List Record :=
  (entries.filter (·.family = name)).map Entry.record

@[simp] theorem forFamily_append (name : Bytes) (entries more : List Entry) :
    forFamily name (entries ++ more) = forFamily name entries ++ forFamily name more := by
  simp [forFamily]

@[simp] theorem forFamily_self (name : Bytes) (record : Record) :
    forFamily name [⟨name, record⟩] = [record] := by
  simp [forFamily]

theorem forFamily_of_ne {other : Bytes} {entries : List Entry}
    (apart : ∀ entry ∈ entries, entry.family ≠ other) : forFamily other entries = [] := by
  rw [forFamily, List.filter_eq_nil_iff.mpr, List.map_nil]
  intro entry member same
  exact apart entry member (of_decide_eq_true same)

/-- A batch does to a family what its own records do. -/
theorem applyEntries_apply (contents : Contents) (entries : List Entry) (name : Bytes) :
    applyEntries contents entries name = applyAll (contents name) (forFamily name entries) := by
  induction entries generalizing contents with
  | nil => rfl
  | cons entry rest ih =>
    have onward : applyEntries contents (entry :: rest) = applyEntries (Function.update contents
        entry.family (entry.record.apply (contents entry.family))) rest := rfl
    rw [onward, ih]
    by_cases same : entry.family = name
    · rw [forFamily, forFamily, List.filter_cons, if_pos (decide_eq_true same), List.map_cons, ← same,
        Function.update_self]
      rfl
    · have passed : ¬decide (entry.family = name) = true := fun holds => same (of_decide_eq_true holds)
      rw [forFamily, forFamily, List.filter_cons, if_neg passed, Function.update_of_ne (Ne.symm same)]

/-- Entries for a family, or for the default one. -/
def Tagged (name : Bytes) (entries : List Entry) : Prop :=
  ∀ entry ∈ entries, entry.family = name ∨ entry.family = defaultName

theorem Tagged.append {name : Bytes} {entries more : List Entry} (tagged : Tagged name entries)
    (added : Tagged name more) : Tagged name (entries ++ more) := by
  intro entry member
  rcases List.mem_append.mp member with old | new
  · exact tagged entry old
  · exact added entry new

theorem Tagged.own {name : Bytes} (record : Record) : Tagged name [⟨name, record⟩] := by
  intro entry member
  obtain rfl := List.mem_singleton.mp member
  exact .inl rfl

/-- The share of a database of the family `name` looks like a LevelDB database, and only this family
and the default one may have changed since `base`. -/
structure Alike (name : Bytes) (base : Contents) (share : Share) (db : Level.Db) : Prop where
  store : db.store = share.contents name
  records : db.records = forFamily name share.entries
  cnt : db.cnt = share.cnt
  batchSize : db.batchSize = share.batchSize
  calls : db.calls = share.calls
  tagged : Tagged name share.entries
  frame : ∀ other, other ≠ name → other ≠ defaultName → share.contents other = base other

/-- An operation is refused before anything happens, or its record is written, by both engines. -/
theorem perform_cases (v8 : V8) (fails : Fails) (db : Db) (target : Target) (op : Op) :
    (op.record? v8 db.schema = none ∧ ∃ error, perform v8 fails db target op = .threw error ∧
      op.perform v8 fails db.schema target = .threw error) ∨
    ∃ record, op.record? v8 db.schema = some record ∧
      perform v8 fails db target op = writeRecord fails db target record ∧
      op.perform v8 fails db.schema target = Level.writeRecord fails target record := by
  cases op with
  | put key val =>
    simp only [Op.record?, perform, put, Op.perform, Level.put]
    rcases db.schema.keyType.check_cases v8 key with
      ⟨error, rejected, checked⟩ | ⟨key', sanitized, checked⟩
    · rw [rejected, checked]
      exact .inl ⟨rfl, error, rfl, rfl⟩
    · rcases db.schema.valType.check_cases v8 val with
        ⟨error, rejected, checked'⟩ | ⟨val', sanitized', checked'⟩
      · rw [sanitized, rejected, checked, checked']
        exact .inl ⟨rfl, error, rfl, rfl⟩
      · rw [sanitized, sanitized', checked, checked']
        refine .inr ⟨.put key'.bytes val'.bytes, rfl, ?_, ?_⟩
        · simp only [nativePut, Datum.encode_value]
        · simp only [Level.nativePut, Datum.encode_value]
  | del key =>
    simp only [Op.record?, perform, del, Op.perform, Level.del]
    rcases db.schema.keyType.check_cases v8 key with
      ⟨error, rejected, checked⟩ | ⟨key', sanitized, checked⟩
    · rw [rejected, checked]
      exact .inl ⟨rfl, error, rfl, rfl⟩
    · rw [sanitized, checked]
      refine .inr ⟨.del key'.bytes, rfl, ?_, ?_⟩
      · simp only [nativeDel, Datum.encode_value]
      · simp only [Level.nativeDel, Datum.encode_value]

/-- Adding to a batch cannot fail otherwise than by a refusal. -/
theorem batchRecord_cases (v8 : V8) (fails : Fails) (db : Db) (op : Op) (share : Share) :
    (op.record? v8 db.schema = none ∧ ∃ error, batchRecord v8 fails db op share = .threw error share) ∨
    ∃ record, op.record? v8 db.schema = some record ∧ batchRecord v8 fails db op share = .returned
      { share with entries := share.entries ++ [⟨db.target, record⟩], cnt := share.cnt + 1 } := by
  rcases perform_cases v8 fails db .batch op with ⟨refused, error, threw, -⟩ | ⟨record, given, wrote, -⟩
  · refine .inl ⟨refused, error, ?_⟩
    rw [batchRecord, threw, Prog.seq_threw rfl]
  · refine .inr ⟨record, given, ?_⟩
    rw [batchRecord, wrote, writeRecord, Prog.seq_update]
    rfl

namespace Life

@[simp] theorem share_putBack (index : ℕ) (batch : Option ℕ) (life : Life) (share : Share) :
    (life.putBack index batch share).share index batch = share := by
  simp [Life.share, putBack]

theorem run_returned {index : ℕ} {batch : Option ℕ} {program : Prog Error Share} {life : Life}
    {share : Share} (returned : program (life.share index batch) = .returned share) :
    Life.run index batch program life = .returned (life.putBack index batch share) := by
  rw [Life.run, Prog.zoom, returned]

theorem run_threw {index : ℕ} {batch : Option ℕ} {program : Prog Error Share} {life : Life}
    {share : Share} {error : Error} (threw : program (life.share index batch) = .threw error share) :
    Life.run index batch program life = .threw error (life.putBack index batch share) := by
  rw [Life.run, Prog.zoom, threw]

end Life

section Bound

variable {v8 : V8} {fails : Fails} {db : Db} {family : Family} {base : Contents} {share : Share}
  {mirror : Level.Db}

theorem Db.target_of_bound (bound : db.cf = some family) : db.target = family.name := by
  rw [Db.target, bound]
  rfl

private theorem writeEntries_rel (bound : db.cf = some family)
    (alike : Alike family.name base share mirror)
    {entries : List Entry} (tagged : Tagged family.name entries) :
    Outcome.Rel (Alike family.name base) (writeEntries fails db entries share)
      (Level.writeRecords fails (forFamily family.name entries) mirror) := by
  unfold writeEntries Level.writeRecords
  rw [bound, alike.calls]
  dsimp only
  cases fails share.calls with
  | some text => exact .threw _ { alike with calls := rfl }
  | none =>
    refine .returned { alike with calls := rfl, store := ?_, frame := ?_ }
    · dsimp only
      rw [applyEntries_apply, alike.store]
    · intro other ne hidden
      have none : ∀ entry ∈ entries, entry.family ≠ other := by
        intro entry member same
        rcases tagged entry member with own | shared
        · exact ne (same.symm.trans own)
        · exact hidden (same.symm.trans shared)
      dsimp only
      rw [applyEntries_apply, forFamily_of_ne none]
      exact alike.frame other ne hidden

theorem perform_rel (bound : db.cf = some family) (alike : Alike family.name base share mirror)
    (target : Target) (op : Op) :
    Outcome.Rel (Alike family.name base) (perform v8 fails db target op share)
      (op.perform v8 fails db.schema target mirror) := by
  rcases perform_cases v8 fails db target op with
    ⟨-, error, threw, threw'⟩ | ⟨record, -, wrote, wrote'⟩
  · rw [threw, threw']
    exact .threw error alike
  · rw [wrote, wrote']
    cases target with
    | batch =>
      refine .returned { alike with records := ?_, tagged := ?_ }
      · dsimp only
        rw [alike.records, Db.target_of_bound bound, forFamily_append, forFamily_self]
      · dsimp only
        rw [Db.target_of_bound bound]
        exact alike.tagged.append (.own record)
    | database =>
      rw [writeRecord, Db.target_of_bound bound, Level.writeRecord, ← forFamily_self family.name record]
      exact writeEntries_rel bound alike (.own record)

theorem batchRecord_rel (bound : db.cf = some family) (alike : Alike family.name base share mirror)
    (op : Op) :
    Outcome.Rel (Alike family.name base) (batchRecord v8 fails db op share)
      (Level.batchRecord v8 fails db.schema op mirror) := by
  refine Prog.seq_rel (perform_rel bound alike .batch op) (fun _ _ => id) ?_
  intro next next' alike
  exact .returned { alike with cnt := congrArg (· + 1) alike.cnt }

theorem batchClear_rel {name : Bytes} (alike : Alike name base share mirror) :
    Outcome.Rel (Alike name base) (batchClear share) (Level.batchClear mirror) :=
  .returned { alike with records := rfl, cnt := rfl, tagged := fun _ => by simp }

theorem batchWrite_rel (bound : db.cf = some family) (alike : Alike family.name base share mirror) :
    Outcome.Rel (Alike family.name base) (batchWrite fails db share)
      (Level.flushBatchOps fails mirror) := by
  unfold batchWrite Level.flushBatchOps
  rw [alike.cnt]
  split_ifs
  · rw [alike.records]
    exact Prog.seq_rel (writeEntries_rel bound alike alike.tagged) (fun _ _ => id)
      fun _ _ => batchClear_rel
  · exact .returned alike

end Bound

end NodeKv.Rocks
