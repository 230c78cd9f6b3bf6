import NodeKv.Model.Cache.Env
import NodeKv.Model.Cache.Get
import NodeKv.Proofs.Compare
import NodeKv.Proofs.Decode
import NodeKv.Proofs.Lmdb.Attempt
import NodeKv.Proofs.Lmdb.Stored

/-! # Which generation a read is answered from

A read should be answered from the current environment if the key is there, and only otherwise from
the old one. The operator `||` goes by the value instead: zero and the empty text count as nothing.
Numbers of 32 bits and texts can be that; Buffers are objects, and the texts of hexadecimal and of
64-bit values are never empty.
-/

namespace NodeKv.Cache.Read

open Machine Lmdb

/-- An environment in which no transaction of the thread is reading. -/
structure Readable (native : Native) : Prop where
  disciplined : Disciplined native
  free : native.slotTaken = false

/-- The reply to bytes that were found, or not. -/
def replyTo (runtime : Runtime) (type : DataType) : Option Bytes → Reply
  | some val => .ofDecoded (type.decoded runtime val)
  | none => .null

/-- What the environment holds under the key, converted. -/
def held (runtime : Runtime) (db : Lmdb.Db) (key : Bytes) (native : Native) : Reply :=
  replyTo runtime db.valType (native.committed db.dbi key).head?

/-- The values under the key are of the type of the database. -/
def Typed (db : Lmdb.Db) (key : Bytes) (native : Native) : Prop :=
  ∀ val ∈ native.committed db.dbi key, db.valType.SelfContained val

section Lmdb

variable {runtime : Runtime} {db : Lmdb.Db} {raw : Value} {key : Datum runtime.toV8 db.keyType}
  {native : Native}

/-- An undisturbed read returns what the environment holds. -/
theorem lmdbGet_eq (accepted : db.keyType.check runtime.toV8 raw = .ok key)
    (sized : key.bytes ≠ []) (readable : Readable native) (typed : Typed db key.bytes native)
    (around : Memory) :
    (lmdbGet silent runtime around db raw native).1 = held runtime db key.bytes native := by
  have answered : ∃ after, dbGet silent runtime.toV8 db raw none native =
      (.ok (native.committed db.dbi key.bytes).head?, after) := by
    rw [dbGet, DataType.sanitize_of_check accepted]
    rcases get_implicit readable.disciplined runtime.toV8 db key with
      ⟨-, calls, answer⟩ | ⟨taken, -⟩ | ⟨taken, -⟩
    · exact ⟨_, looked_of_ne sized _ ▸ answer⟩
    · exact nomatch readable.free.symm.trans taken
    · exact nomatch readable.free.symm.trans taken
  obtain ⟨after, answer⟩ := answered
  rw [lmdbGet, answer, held]
  cases found : (native.committed db.dbi key.bytes).head? with
  | none => rfl
  | some val =>
    simp only [replyTo]
    rw [DataType.decode_holding runtime (typed val (List.mem_of_head? found))]

private theorem held_answers (runtime : Runtime) {bytes : Bytes} (typed : Typed db bytes native) :
    held runtime db bytes native = .null ∨ ∃ val, held runtime db bytes native = .value val := by
  unfold held replyTo
  cases found : (native.committed db.dbi bytes).head? with
  | none => exact .inl rfl
  | some val =>
    obtain ⟨converted, decoded⟩ := Option.isSome_iff_exists.mp
      (DataType.decoded_isSome runtime (typed val (List.mem_of_head? found)))
    exact .inr ⟨converted, by simp only [decoded, Reply.ofDecoded]⟩

private theorem truthy_of_held (always : db.valType.alwaysTrue = true) {bytes : Bytes} {val : Value}
    (found : held runtime db bytes native = .value val) : val.truthy = true := by
  unfold held replyTo at found
  cases stored : (native.committed db.dbi bytes).head? with
  | none => simp [stored] at found
  | some first =>
    cases decoded : db.valType.decoded runtime first with
    | none => simp [stored, decoded, Reply.ofDecoded] at found
    | some converted =>
      simp only [stored, decoded, Reply.ofDecoded, Reply.value.injEq] at found
      obtain rfl := found
      rcases decoded_ne_empty runtime always decoded with ⟨copy, rfl⟩ | ⟨text, rfl, some⟩
      · rfl
      · simp [Value.truthy, some]

end Lmdb

section Flushed

/-- The place an entry writes to. -/
def target : Entry → ℕ × Bytes
  | .put db key _ => (db.dbi, key)
  | .del db key _ => (db.dbi, key)

private theorem set_of_ne {db : Lmdb.Db} {key other : Bytes} {dbi : ℕ}
    (elsewhere : (db.dbi, key) ≠ (dbi, other)) (store : Store) (vals : List Bytes) :
    store.set db key vals dbi other = store dbi other := by
  unfold Store.set
  by_cases same : dbi = db.dbi
  · obtain rfl := same
    have ne : other ≠ key := fun equal => elsewhere (by rw [equal])
    simp [ne]
  · simp [same]

theorem apply_of_ne {entry : Entry} {dbi : ℕ} {key : Bytes} (elsewhere : target entry ≠ (dbi, key))
    (store : Store) : entry.apply store dbi key = store dbi key := by
  cases entry with
  | put db other val => exact set_of_ne elsewhere store _
  | del db other val =>
    rw [Entry.apply, Entry.write]
    cases written : store.del db other val with
    | none => rfl
    | some next =>
      simp only [Store.del] at written
      obtain ⟨-, removed⟩ := Option.ite_none_right_eq_some.mp written
      rw [← removed]
      exact set_of_ne elsewhere store _

private theorem foldl_of_ne {entries : List Entry} {dbi : ℕ} {key : Bytes}
    (elsewhere : ∀ entry ∈ entries, target entry ≠ (dbi, key)) (store : Store) :
    entries.foldl Entry.apply store dbi key = store dbi key := by
  induction entries generalizing store with
  | nil => rfl
  | cons entry rest ih =>
    rw [List.foldl_cons, ih fun other member => elsewhere other (List.mem_cons_of_mem _ member)]
    exact apply_of_ne (elsewhere entry (List.mem_cons_self ..)) store

/-- The operation is in the queue, and no later one writes to the same place. -/
def LastOn {v8 : V8} (op : Lmdb.BatchOp v8) (ops : List (Lmdb.BatchOp v8)) : Prop :=
  ∃ front back, ops = front ++ op :: back ∧
    ∀ later ∈ back, target later.entry ≠ target op.entry

private theorem committed_of_lastOn {v8 : V8} {db : Lmdb.Db} {key : Datum v8 db.keyType}
    {val : Datum v8 db.valType} {ops : List (Lmdb.BatchOp v8)} (last : LastOn (.put db key val) ops)
    (single : db.allowDup = false) (store : Store) :
    (ops.map BatchOp.entry).foldl Entry.apply store db.dbi key.bytes = [val.bytes] := by
  obtain ⟨front, back, rfl, later⟩ := last
  rw [List.map_append, List.map_cons, List.foldl_append, List.foldl_cons, foldl_of_ne]
  · simp [BatchOp.entry, Entry.apply, Entry.write, Store.put, Store.set, single]
  · intro entry member
    obtain ⟨op, queued, rfl⟩ := List.mem_map.mp member
    exact later op queued

section Duplicates

variable {v8 : V8} {type : DataType} {val : Datum v8 type}

/-- A value of the type that is not less than the given one. -/
def Above (val : Datum v8 type) (other : Bytes) : Prop :=
  (∃ datum : Datum v8 type, other = datum.bytes) ∧ type.compare val.bytes other ≠ .gt

/-- The least value comes first where it is inserted. -/
theorem head_insertDup {vals : List Bytes} (above : ∀ other ∈ vals, Above val other) :
    (insertDup type val.bytes vals).head? = some val.bytes := by
  cases vals with
  | nil => rfl
  | cons first rest =>
    obtain ⟨⟨datum, rfl⟩, least⟩ := above _ (List.mem_cons_self ..)
    unfold insertDup
    cases order : type.compare val.bytes datum.bytes with
    | lt => rfl
    | eq => rw [DataType.eq_of_compare val.sized datum.sized order, List.head?_cons]
    | gt => exact absurd order least

/-- It stays first when greater ones are inserted. -/
theorem head_insertDup_above {vals : List Bytes} {other : Bytes} (sized : val.bytes ≠ [])
    (above : Above val other) (first : vals.head? = some val.bytes) :
    (insertDup type other vals).head? = some val.bytes := by
  obtain ⟨rest, rfl⟩ : ∃ rest, vals = val.bytes :: rest := List.head?_eq_some_iff.mp first
  have order := type.compare_swap other val.bytes
  unfold insertDup
  cases compared : type.compare val.bytes other with
  | gt => exact absurd compared above.2
  | eq =>
    rw [compared] at order
    rw [order]
    rfl
  | lt =>
    rw [compared] at order
    rw [order]
    simp [sized]

/-- Every entry on the key puts a value of the type that is not less than the given one. -/
def PutsAbove (db : Lmdb.Db) (key : Bytes) (val : Datum v8 db.valType) (entries : List Entry) : Prop :=
  ∀ entry ∈ entries, target entry = (db.dbi, key) →
    ∃ other, entry = .put db key other ∧ Above val other

variable {db : Lmdb.Db} {key : Bytes} {least : Datum v8 db.valType}

private theorem put_self (dup : db.allowDup = true) (store : Store) (other : Bytes) :
    Entry.apply store (.put db key other) db.dbi key =
      insertDup db.valType other (store db.dbi key) := by
  simp [Entry.apply, Entry.write, Store.put, Store.set, dup]

/-- The entries leave values that are not less, and the least one first once it is there. -/
theorem foldl_puts_above (dup : db.allowDup = true) (sized : least.bytes ≠ [])
    {entries : List Entry} (puts : PutsAbove db key least entries) (store : Store) :
    ((∀ other ∈ store db.dbi key, Above least other) →
      ∀ other ∈ entries.foldl Entry.apply store db.dbi key, Above least other) ∧
    ((store db.dbi key).head? = some least.bytes →
      (entries.foldl Entry.apply store db.dbi key).head? = some least.bytes) := by
  induction entries generalizing store with
  | nil => exact ⟨id, id⟩
  | cons entry rest ih =>
    obtain ⟨stay, first⟩ := ih (fun other member => puts other (List.mem_cons_of_mem _ member))
      (entry.apply store)
    by_cases here : target entry = (db.dbi, key)
    · obtain ⟨other, rfl, above⟩ := puts entry (List.mem_cons_self ..) here
      rw [put_self dup] at stay first
      refine ⟨fun before => stay ?_, fun before => first (head_insertDup_above sized above before)⟩
      intro found member
      rcases mem_insertDup member with rfl | old
      · exact above
      · exact before found old
    · rw [apply_of_ne here] at stay first
      exact ⟨stay, first⟩

/-- The least value under a key is the first one after a queue that puts it. -/
theorem head_of_puts {key : Datum v8 db.keyType} {ops : List (Lmdb.BatchOp v8)}
    (dup : db.allowDup = true) (sized : least.bytes ≠ [])
    (puts : PutsAbove db key.bytes least (ops.map BatchOp.entry))
    (queued : .put db key least ∈ ops) {store : Store}
    (before : ∀ other ∈ store db.dbi key.bytes, Above least other) :
    ((ops.map BatchOp.entry).foldl Entry.apply store db.dbi key.bytes).head? =
      some least.bytes := by
  obtain ⟨front, back, rfl⟩ := List.append_of_mem queued
  rw [List.map_append, List.map_cons] at puts ⊢
  rw [List.foldl_append, List.foldl_cons]
  have early := (foldl_puts_above dup sized
    (fun entry member => puts entry (List.mem_append_left _ member)) store).1 before
  refine (foldl_puts_above dup sized (fun entry member => puts entry
    (List.mem_append_right _ (List.mem_cons_of_mem _ member))) _).2 ?_
  rw [BatchOp.entry, put_self dup]
  exact head_insertDup early

end Duplicates

end Flushed

section Get

variable {runtime : Runtime} {db : Db} {raw : Value} {key : Datum runtime.toV8 db.keyType}
  {cur old : Native}

/-- The answer of the newest generation that has the key. -/
def newest (runtime : Runtime) (db : Db) (key : Bytes) (cur old : Native) : Reply :=
  if held runtime db.cur key cur = .null then held runtime db.old key old
  else held runtime db.cur key cur

theorem get_eq (accepted : db.keyType.check runtime.toV8 raw = .ok key) (sized : key.bytes ≠ [])
    (curReadable : Readable cur) (oldReadable : Readable old) (curTyped : Typed db.cur key.bytes cur)
    (oldTyped : Typed db.old key.bytes old) (around : Memory) :
    (get silent silent runtime around db raw cur old).1 =
      if (held runtime db.cur key.bytes cur).falls then held runtime db.old key.bytes old
      else held runtime db.cur key.bytes cur := by
  have first : (lmdbGet silent runtime around db.cur raw cur).1 =
      held runtime db.cur key.bytes cur := lmdbGet_eq accepted sized curReadable curTyped around
  have second : (lmdbGet silent runtime around db.old raw old).1 =
      held runtime db.old key.bytes old := lmdbGet_eq accepted sized oldReadable oldTyped around
  rw [get, ← first, ← second]
  dsimp only
  split_ifs <;> rfl

/-- A read comes from the newest generation unless a value there is false to the script, and the
old generation has something else. -/
theorem get_eq_newest_iff (accepted : db.keyType.check runtime.toV8 raw = .ok key)
    (sized : key.bytes ≠ []) (curReadable : Readable cur) (oldReadable : Readable old)
    (curTyped : Typed db.cur key.bytes cur) (oldTyped : Typed db.old key.bytes old)
    (around : Memory) :
    (get silent silent runtime around db raw cur old).1 = newest runtime db key.bytes cur old ↔
      ∀ val, held runtime db.cur key.bytes cur = .value val →
        val.truthy = true ∨ held runtime db.old key.bytes old = .value val := by
  rw [get_eq accepted sized curReadable oldReadable curTyped oldTyped, newest]
  rcases held_answers runtime curTyped with missing | ⟨val, found⟩
  · rw [missing]
    simp [Reply.falls]
  · rw [found]
    cases truth : val.truthy <;> simp [Reply.falls, truth]

/-- The read of the cache over maps of bytes, with truth decided on the converted values, answers as
the native one does. -/
theorem get_refines {D K : Type*} [DecidableEq D] [DecidableEq K]
    (accepted : db.keyType.check runtime.toV8 raw = .ok key) (sized : key.bytes ≠ [])
    (curReadable : Readable cur) (oldReadable : Readable old) (curTyped : Typed db.cur key.bytes cur)
    (oldTyped : Typed db.old key.bytes old) (around : Memory) {state : State D K Bytes} {name : D}
    {index : K}
    (curMap : state.native state.host.curEnv (name, index) =
      (cur.committed db.curDbi key.bytes).head?)
    (oldMap : state.native state.host.oldEnv (name, index) =
      (old.committed db.oldDbi key.bytes).head?) :
    (get silent silent runtime around db raw cur old).1 =
      replyTo runtime db.valType (Cache.get
        (fun val => (db.valType.decoded runtime val).any Value.truthy) state name index) := by
  rw [get_eq accepted sized curReadable oldReadable curTyped oldTyped, Cache.get, curMap, oldMap]
  have found : held runtime db.cur key.bytes cur =
      replyTo runtime db.valType (cur.committed db.curDbi key.bytes).head? := rfl
  have before : held runtime db.old key.bytes old =
      replyTo runtime db.valType (old.committed db.oldDbi key.bytes).head? := rfl
  rw [found, before]
  cases stored : (cur.committed db.curDbi key.bytes).head? with
  | none => simp [replyTo, Reply.falls]
  | some val =>
    have typed : db.valType.SelfContained val := curTyped val (List.mem_of_head? stored)
    obtain ⟨converted, decoded⟩ :=
      Option.isSome_iff_exists.mp (DataType.decoded_isSome runtime typed)
    cases truth : converted.truthy <;>
      simp [replyTo, decoded, Reply.ofDecoded, Reply.falls, truth]

section Put

variable {returns : Returns} {before : Native} {ops : List (Lmdb.BatchOp runtime.toV8)}
  {val : Datum runtime.toV8 db.valType} (unlocked : before.locked = false)
  (puts : ∀ op ∈ ops, op.isPut = true) (flushed : attempt returns ops before = (.committed, cur))

include unlocked puts flushed

private theorem committed_of_flushed :
    cur.committed = (ops.map BatchOp.entry).foldl Entry.apply before.committed := by
  have outcome := attempt_puts returns unlocked puts
  rw [flushed] at outcome
  obtain ⟨settled⟩ := outcome
  exact settled.committed

/-- What the current environment holds under a key that was put last by the queue it committed. -/
theorem held_of_flushed (single : db.allowDup = false) (last : LastOn (.put db.cur key val) ops) :
    cur.committed db.curDbi key.bytes = [val.bytes] := by
  rw [committed_of_flushed unlocked puts flushed]
  exact committed_of_lastOn last single before.committed

/-- What it holds first under a key that allows duplicates, and to which the queue put no less. -/
theorem held_of_least (dup : db.allowDup = true) (sized : val.bytes ≠ [])
    (above : PutsAbove db.cur key.bytes val (ops.map BatchOp.entry))
    (queued : .put db.cur key val ∈ ops)
    (already : ∀ other ∈ before.committed db.curDbi key.bytes, Above val other) :
    (cur.committed db.curDbi key.bytes).head? = some val.bytes ∧ Typed db.cur key.bytes cur := by
  have allowed : db.cur.allowDup = true := dup
  rw [Typed, committed_of_flushed unlocked puts flushed]
  refine ⟨head_of_puts allowed sized above queued already, ?_⟩
  intro other member
  obtain ⟨⟨datum, rfl⟩, -⟩ := (foldl_puts_above allowed sized above _).1 already other member
  exact datum.selfContained

end Put

/-- A value that the current environment has first under the key is read if it is true to the
script, or the old environment has it too. -/
theorem get_first_iff (accepted : db.keyType.check runtime.toV8 raw = .ok key)
    (sized : key.bytes ≠ []) (curReadable : Readable cur) (oldReadable : Readable old)
    (curTyped : Typed db.cur key.bytes cur) (oldTyped : Typed db.old key.bytes old)
    (around : Memory) {val : Datum runtime.toV8 db.valType}
    (first : (cur.committed db.curDbi key.bytes).head? = some val.bytes) :
    ∃ value, db.valType.decoded runtime val.bytes = some value ∧
      ((get silent silent runtime around db raw cur old).1 = .value value ↔
        value.truthy = true ∨ held runtime db.old key.bytes old = .value value) := by
  obtain ⟨value, decoded⟩ :=
    Option.isSome_iff_exists.mp (DataType.decoded_isSome runtime val.selfContained)
  have found : held runtime db.cur key.bytes cur = .ofDecoded (some value) := by
    rw [held, Db.cur, first, replyTo, decoded]
  refine ⟨value, decoded, ?_⟩
  rw [get_eq accepted sized curReadable oldReadable curTyped oldTyped, found]
  cases truth : value.truthy <;> simp [Reply.ofDecoded, Reply.falls, truth]

end Get

/-- For every contents of the two environments and every key that is not empty, a read is answered
by the newest generation that has the key, exactly if the value there is true to the script or the
old generation has the same value. After a flush of a put, the value put is read back on the same
condition; where duplicates are allowed, if it is not empty and none of the others is less. -/
theorem cache_get_newest_iff {runtime : Runtime} {db : Db} {raw : Value}
    {key : Datum runtime.toV8 db.keyType} (accepted : db.keyType.check runtime.toV8 raw = .ok key)
    (sized : key.bytes ≠ []) {old : Native} (oldReadable : Readable old)
    (oldTyped : Typed db.old key.bytes old) (around : Memory) :
    (∀ cur, Readable cur → Typed db.cur key.bytes cur →
      ((get silent silent runtime around db raw cur old).1 = newest runtime db key.bytes cur old ↔
        ∀ val, held runtime db.cur key.bytes cur = .value val →
          val.truthy = true ∨ held runtime db.old key.bytes old = .value val) ∧
      (db.valType.alwaysTrue = true →
        (get silent silent runtime around db raw cur old).1 = newest runtime db key.bytes cur old)) ∧
    ∀ returns before cur, ∀ ops : List (Lmdb.BatchOp runtime.toV8),
      ∀ val : Datum runtime.toV8 db.valType, before.locked = false →
      (∀ op ∈ ops, op.isPut = true) → attempt returns ops before = (.committed, cur) →
      Readable cur →
      (if db.allowDup then
        val.bytes ≠ [] ∧ .put db.cur key val ∈ ops ∧
        PutsAbove db.cur key.bytes val (ops.map BatchOp.entry) ∧
        ∀ other ∈ before.committed db.curDbi key.bytes, Above val other
      else LastOn (.put db.cur key val) ops) →
      ∃ value, db.valType.decoded runtime val.bytes = some value ∧
        ((get silent silent runtime around db raw cur old).1 = .value value ↔
          value.truthy = true ∨ held runtime db.old key.bytes old = .value value) := by
  constructor
  · intro cur curReadable curTyped
    have general := get_eq_newest_iff accepted sized curReadable oldReadable curTyped oldTyped around
    refine ⟨general, fun always => general.mpr ?_⟩
    intro val found
    exact .inl (truthy_of_held always found)
  · intro returns before cur ops val unlocked puts flushed curReadable put
    cases dup : db.allowDup with
    | false =>
      rw [if_neg (by simp [dup])] at put
      have stored := held_of_flushed unlocked puts flushed dup put
      have typed : Typed db.cur key.bytes cur := by
        intro found member
        obtain rfl := List.mem_singleton.mp (stored ▸ member)
        exact val.selfContained
      have first : (cur.committed db.curDbi key.bytes).head? = some val.bytes := by
        rw [stored, List.head?_singleton]
      exact get_first_iff accepted sized curReadable oldReadable typed oldTyped around first
    | true =>
      rw [if_pos dup] at put
      obtain ⟨some, queued, above, already⟩ := put
      obtain ⟨first, typed⟩ := held_of_least unlocked puts flushed dup some above queued already
      exact get_first_iff accepted sized curReadable oldReadable typed oldTyped around first

/-- A database of 32-bit numbers. -/
def numbers (allowDup : Bool) : Db := ⟨0, 0, .int32, .int32, allowDup⟩

/-- The number stored in a byte and three zeros. -/
def number (value : ℚ) : Datum Runtime.basic.toV8 .int32 :=
  ⟨.number (.finite value), .number (.finite value), rfl⟩

/-- The current environment has a number that is not zero, or it has a greater one and the number is
put beside it. -/
theorem cache_get_newest_number :
    (get silent silent Runtime.basic ⟨[], []⟩ (numbers false) (.number (.finite 1))
      (.opened fun _ _ => [[7, 0, 0, 0]]) (.opened fun _ _ => [[5, 0, 0, 0]])).1 =
      .value (.number (.finite 7)) ∧
    ∃ cur, attempt silent [.put (numbers true).cur (number 1) (number 7)]
        (.opened fun _ _ => [[9, 0, 0, 0]]) = (.committed, cur) ∧
      cur.committed 0 [1, 0, 0, 0] = [[7, 0, 0, 0], [9, 0, 0, 0]] ∧
      (get silent silent Runtime.basic ⟨[], []⟩ (numbers true) (.number (.finite 1)) cur
        (.opened fun _ _ => [[5, 0, 0, 0]])).1 = .value (.number (.finite 7)) := by
  have keyed (allowDup : Bool) : (numbers allowDup).keyType.check Runtime.basic.toV8
      (.number (.finite 1)) = .ok (number 1) := rfl
  have readable (store : Store) : Readable (.opened store) := ⟨opened_disciplined store, rfl⟩
  have typed (db : Lmdb.Db) (number : db.valType = .int32) (key : Bytes) (low : UInt8) :
      Typed db key (.opened fun _ _ => [[low, 0, 0, 0]]) := by
    intro val member
    obtain rfl := List.mem_singleton.mp member
    rw [number]
    exact le_rfl
  constructor
  · have newest := ((cache_get_newest_iff (keyed false) (by decide) (readable _)
      (typed _ rfl _ 5) ⟨[], []⟩).1 _ (readable _) (typed _ rfl _ 7)).1
    refine (newest.mpr ?_).trans (by decide +kernel)
    intro val found
    have seven : held Runtime.basic (numbers false).cur [1, 0, 0, 0]
        (.opened fun _ _ => [[7, 0, 0, 0]]) = .value (.number (.finite 7)) := by decide +kernel
    obtain rfl := Reply.value.inj (seven.symm.trans found)
    exact .inl (by decide +kernel)
  · obtain ⟨cur, flushed, ended, lock, free, stored⟩ :
        ∃ cur, attempt silent [.put (numbers true).cur (number 1) (number 7)]
            (.opened fun _ _ => [[9, 0, 0, 0]]) = (.committed, cur) ∧
          (∀ handle, (cur.txns handle).txn = none) ∧ cur.readLock = none ∧
          cur.slotTaken = false ∧ cur.committed 0 [1, 0, 0, 0] = [[7, 0, 0, 0], [9, 0, 0, 0]] := by
      refine ⟨_, rfl, ?_, rfl, rfl, by decide +kernel⟩
      rintro (_ | handle) <;> rfl
    have nine : Above (number 7) [9, 0, 0, 0] := ⟨⟨number 9, by decide +kernel⟩, by decide +kernel⟩
    have seven : Above (number 7) (number 7).bytes := ⟨⟨number 7, rfl⟩, by decide +kernel⟩
    obtain ⟨value, decoded, read⟩ := (cache_get_newest_iff (keyed true) (by decide) (readable _)
      (typed _ rfl _ 5) ⟨[], []⟩).2 silent _ cur _ (number 7) rfl (by simp [BatchOp.isPut]) flushed
      ⟨disciplined_of_idle ended lock free, free⟩
      ⟨by decide +kernel, List.mem_singleton_self _,
        fun entry member _ => ⟨_, List.mem_singleton.mp member, seven⟩,
        fun other member => List.mem_singleton.mp member ▸ nine⟩
    have converted : DataType.decoded Runtime.basic .int32 (number 7).bytes =
        some (.number (.finite 7)) := by decide +kernel
    obtain rfl := Option.some.inj (converted.symm.trans decoded)
    exact ⟨cur, flushed, stored, read.mpr (.inl (by decide +kernel))⟩

/-- The current environment has zero, and the read goes on to the old one. -/
theorem zero_falls_through :
    (get silent silent Runtime.basic ⟨[], []⟩ (numbers false) (.number (.finite 1))
        (.opened fun _ _ => [[0, 0, 0, 0]]) (.opened fun _ _ => [[5, 0, 0, 0]])).1 =
      .value (.number (.finite 5)) ∧
    newest Runtime.basic (numbers false) [1, 0, 0, 0] (.opened fun _ _ => [[0, 0, 0, 0]])
      (.opened fun _ _ => [[5, 0, 0, 0]]) = .value (.number (.finite 0)) := by
  constructor
  · decide +kernel
  · decide +kernel

end NodeKv.Cache.Read
