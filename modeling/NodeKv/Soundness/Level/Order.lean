import NodeKv.Soundness.Level.Cursors
import NodeKv.Soundness.Order.Search

/-! # Cursors by the order of keys

What the databases of LevelDB and RocksDB contain is made by the constructors of their types. For
keys that are stored in the order of a spelling, cursors go by the spelling.
-/

namespace NodeKv.Level

open Machine

/-- A key and a value that the constructors of their types have made. -/
structure Pair (v8 : V8) (schema : Schema) (key val : Bytes) : Prop where
  key : ∃ datum : Datum v8 schema.keyType, key = datum.bytes
  val : ∃ datum : Datum v8 schema.valType, val = datum.bytes

/-- All keys and values are made by the constructors of their types. -/
def Made (v8 : V8) (schema : Schema) (store : Bytes → Option Bytes) : Prop :=
  ∀ key val, store key = some val → Pair v8 schema key val

/-- The contents that calls and timers reach from such contents, with whatever failing in between. -/
inductive Reached (v8 : V8) : Schema → (Bytes → Option Bytes) → Prop where
  | mk {fails : ℕ → Fails} {schema : ℕ → Schema} {stores : ℕ → Bytes → Option Bytes}
      {sizes : ℕ → JsNumber} {turns : List Turn} {session : Session}
      (initial : ∀ index, Made v8 (schema index) (stores index))
      (run : Runs (Prog.Steps (turn v8 fails schema)) (Session.start stores sizes) turns session)
      (index : ℕ) : Reached v8 (schema index) (session.world.dbs index).store

theorem Reached.made {v8 : V8} {schema : Schema} {store : Bytes → Option Bytes}
    (reached : Reached v8 schema store) : Made v8 schema store := by
  obtain ⟨initial, run, index⟩ := reached
  have replayed := (Session.replayed_of_run run).dbs index
  intro key val found
  exact replayed.found (initial index) (fun key val => ⟨⟨key, rfl⟩, ⟨val, rfl⟩⟩) found

theorem Made.contained {v8 : V8} {schema : Schema} {store : Bytes → Option Bytes}
    (made : Made v8 schema store) : Contained schema store := by
  intro key val found
  obtain ⟨⟨key, rfl⟩, ⟨val, rfl⟩⟩ := made key val found
  exact ⟨key.selfContained, val.selfContained⟩

section Cursor

variable {runtime : Runtime} {schema : Schema} {store : Bytes → Option Bytes}
  {snapshot : Snapshot schema.keyType store} {stray : Stray snapshot.entries.length}
  {spelling : Datum runtime.toV8 schema.keyType → String}

/-- The keys in the order of a cursor are in the order of their spelling. -/
theorem Snapshot.spelled (made : Made runtime.toV8 schema store)
    (spells : Spells runtime.toV8 schema.keyType spelling)
    (snapshot : Snapshot schema.keyType store) :
    ∃ keys : List (Datum runtime.toV8 schema.keyType),
      snapshot.entries.map Prod.fst = keys.map Datum.bytes ∧
      keys.Pairwise fun left right =>
        compareOn codePoints (spelling left) (spelling right) = .lt := by
  refine spells.exists_data (· = .lt) ?_ (List.pairwise_map.mpr snapshot.ordered)
  intro key member
  obtain ⟨⟨key, val⟩, present, rfl⟩ := List.mem_map.mp member
  exact (made key val ((snapshot.mem_entries key val).mp present)).key

/-- `gte` goes to the least key that is not below its argument. -/
theorem gte_least (made : Made runtime.toV8 schema store)
    (spells : Spells runtime.toV8 schema.keyType spelling) {raw : Value}
    {key : Datum runtime.toV8 schema.keyType}
    (checked : schema.keyType.check runtime.toV8 raw = .ok key)
    (iterator : Iterator snapshot.entries.length) :
    ∃ next, gte runtime snapshot stray raw iterator = (.flag next.valid, next) ∧
      FindsLeast spelling (fun key => ∃ val, store key.bytes = some val) key
        (next.position.map fun index => (snapshot.entries.get index).1) := by
  have searched : Searched runtime.toV8 schema.keyType snapshot.entries Prod.fst fun _ => True := by
    constructor
    · intro entry member _
      exact (made _ _ ((snapshot.mem_entries ..).mp member)).key
    · apply snapshot.ordered.imp
      intro left right less _ _
      rw [less]
      rfl
  have present (key : Datum runtime.toV8 schema.keyType) :
      (∃ entry ∈ snapshot.entries, True ∧ entry.1 = key.bytes) ↔
        ∃ val, store key.bytes = some val := by
    constructor
    · rintro ⟨⟨key, val⟩, member, -, rfl⟩
      exact ⟨val, (snapshot.mem_entries ..).mp member⟩
    · rintro ⟨val, found⟩
      exact ⟨_, (snapshot.mem_entries ..).mpr found, trivial, rfl⟩
  refine ⟨iterator.move snapshot stray (.seek key.bytes), ?_, ?_⟩
  · simp only [gte, DataType.sanitize_of_check checked, key.encode_value]
    rfl
  · have kinds : ∀ index : Fin snapshot.entries.length,
        (schema.keyType.compare (snapshot.entries.get index).1 key.bytes).isGE = true ↔ True ∧
          (schema.keyType.compare (snapshot.entries.get index).1 key.bytes).isGE = true :=
      fun _ => (iff_of_eq (true_and _)).symm
    have least := searched.least spells key kinds
    simp only [present] at least
    exact least

end Cursor

end NodeKv.Level
