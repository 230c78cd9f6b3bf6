import NodeKv.Model.Level.Cursor
import NodeKv.Proofs.Compare
import NodeKv.Soundness.Level.Lookup

/-! # What cursors need of their callers

A cursor is on an entry exactly if its last movement returned true. It does not look at that itself:
`next` and `prev` go on from wherever the iterator is, and `key` and `val` set null for an invalid
iterator and then ask it all the same. So the engine is called within its contract, and null is
never needed, exactly if the script moves relative to an entry and reads only on an entry. The
usual loop does so, and visits every entry once, in the order of the keys.
-/

namespace NodeKv.Level

open Machine

/-- The call was within the contract of the engine. -/
def Proper (asked : Method × Bool) : Prop := asked.1.needsValid = true → asked.2 = true

/-- The call makes sense on an entry only. -/
def Call.needsEntry : Call → Bool
  | next => true
  | prev => true
  | key => true
  | val => true
  | _ => false

/-- Whether the cursor is on an entry as far as the script can tell. -/
def moved (last : Bool) : Call × Answer → Bool
  | (_, .flag found) => found
  | (_, .reply _) => last

/-- What the last movement returned. -/
def lastMoved (transcript : List (Call × Answer)) : Bool := transcript.foldl moved false

/-- A script that goes by what the movements return. -/
inductive Careful : List (Call × Answer) → Prop
  | nil : Careful []
  | snoc {transcript : List (Call × Answer)} {label : Call × Answer} (prior : Careful transcript)
      (onEntry : label.1.needsEntry = true → lastMoved transcript = true) :
      Careful (transcript ++ [label])

private theorem careful_snoc {transcript : List (Call × Answer)} {label : Call × Answer} :
    Careful (transcript ++ [label]) ↔
      Careful transcript ∧ (label.1.needsEntry = true → lastMoved transcript = true) := by
  constructor
  · intro careful
    generalize whole : transcript ++ [label] = longer at careful
    cases careful with
    | nil => simp at whole
    | snoc prior onEntry =>
      obtain ⟨rfl, same⟩ := List.append_inj' whole rfl
      obtain rfl := List.singleton_inj.mp same
      exact ⟨prior, onEntry⟩
  · rintro ⟨prior, onEntry⟩
    exact .snoc prior onEntry

/-- Every key and value can be converted within its bytes. -/
def Contained (schema : Schema) (store : Bytes → Option Bytes) : Prop :=
  ∀ key val, store key = some val →
    schema.keyType.SelfContained key ∧ schema.valType.SelfContained val

theorem Replayed.store_contained {v8 : V8} {schema : Schema} {store : Bytes → Option Bytes}
    {db : Db}
    (replayed : Replayed v8 schema store db) (initial : Contained schema store) :
    Contained schema db.store := by
  intro key val found
  exact replayed.found initial (fun key val => ⟨key.selfContained, val.selfContained⟩) found

section Cursor

variable {runtime : Runtime} {schema : Schema} {store : Bytes → Option Bytes}
  {snapshot : Snapshot schema.keyType store} {stray : Stray snapshot.entries.length}
  {around : Memory} {iterator next : Iterator snapshot.entries.length}

/-- The reply to a read: null, or what the entry has. -/
def wanted (runtime : Runtime) (snapshot : Snapshot schema.keyType store) (part : Part) :
    Position snapshot.entries.length → Reply
  | none => .null
  | some index =>
    .ofDecoded ((part.type schema).decoded runtime (part.of (snapshot.entries.get index)))

/-- A call asks the engine for at most one thing, and the script learns where that led. -/
structure Asks (iterator : Iterator snapshot.entries.length) (label : Call × Answer)
    (next : Iterator snapshot.entries.length) : Prop where
  valid : next.valid = moved iterator.valid label
  calls : ∃ asked : Option Method, asked.any Method.needsValid = label.1.needsEntry ∧
    next.calls = iterator.calls ++ asked.toList.map fun method => (method, iterator.valid)

private theorem cursorOp_asks {movement : Movement} {call : Call} {answer : Answer}
    (needs : (Method.move movement).needsValid = call.needsEntry)
    (performed : Prod.map Answer.flag id (cursorOp snapshot stray movement iterator) =
      (answer, next)) : Asks iterator (call, answer) next := by
  obtain ⟨rfl, rfl⟩ := Prod.mk.inj performed
  exact ⟨rfl, some (.move movement), needs, rfl⟩

private theorem cursorRead_asks {part : Part} {call : Call} {answer : Answer}
    (needs : call.needsEntry = true)
    (performed : Prod.map Answer.reply id
      (cursorRead runtime snapshot stray around part iterator) = (answer, next)) :
    Asks iterator (call, answer) next := by
  obtain ⟨rfl, rfl⟩ := Prod.mk.inj performed
  exact ⟨rfl, some (.read part), needs.symm, rfl⟩

private theorem refused_asks {key : Value} {reply : Reply} {answer : Answer}
    (performed : (Answer.reply reply, iterator) = (answer, next)) :
    Asks iterator (.gte key, answer) next := by
  obtain ⟨rfl, rfl⟩ := Prod.mk.inj performed
  exact ⟨rfl, none, rfl, (List.append_nil _).symm⟩

private theorem perform_asks {label : Call × Answer}
    (performed : CursorStep runtime snapshot stray around iterator label next) :
    Asks iterator label next := by
  obtain ⟨call, answer⟩ := label
  cases call with
  | first => exact cursorOp_asks rfl performed
  | last => exact cursorOp_asks rfl performed
  | next => exact cursorOp_asks rfl performed
  | prev => exact cursorOp_asks rfl performed
  | key => exact cursorRead_asks rfl performed
  | val => exact cursorRead_asks rfl performed
  | gte key =>
    simp only [CursorStep, perform, gte] at performed
    split at performed
    · exact refused_asks performed
    · split at performed
      · exact refused_asks performed
      · exact cursorOp_asks rfl performed

/-- Along every use of a cursor. -/
theorem used_spec {transcript : List (Call × Answer)}
    (used : Runs (CursorStep runtime snapshot stray around) (.opened _) transcript iterator) :
    iterator.valid = lastMoved transcript ∧
      ((∀ asked ∈ iterator.calls, Proper asked) ↔ Careful transcript) := by
  refine used.preserves (fun transcript iterator => iterator.valid = lastMoved transcript ∧
    ((∀ asked ∈ iterator.calls, Proper asked) ↔ Careful transcript)) ?_ ?_
  · exact ⟨rfl, fun _ => .nil, fun _ => List.forall_mem_nil _⟩
  · intro transcript iterator label next ⟨valid, proper⟩ stepped
    obtain ⟨tracked, asked, needs, calls⟩ := perform_asks stepped
    constructor
    · rw [tracked, valid, lastMoved, lastMoved, List.foldl_append]
      rfl
    · rw [careful_snoc, ← proper, calls, List.forall_mem_append, ← valid, ← needs]
      cases asked <;> simp [Proper]

/-- A read on an entry. -/
theorem cursorRead_on (contained : Contained schema store) (part : Part)
    (index : Fin snapshot.entries.length) (calls : List (Method × Bool)) :
    cursorRead runtime snapshot stray around part ⟨some index, calls⟩ =
      (wanted runtime snapshot part (some index), ⟨some index, calls ++ [(.read part, true)]⟩) := by
  have stored := (snapshot.mem_entries _ _).mp (snapshot.entries.get_mem index)
  have within : (part.type schema).SelfContained (part.of (snapshot.entries.get index)) := by
    cases part with
    | key => exact (contained _ _ stored).1
    | value => exact (contained _ _ stored).2
  have read := DataType.decode_holding runtime within around
  simp only [cursorRead, Iterator.slice, setOver, wanted, read]
  rfl

private theorem ofDecoded_ne_null (converted : Option Value) :
    Reply.ofDecoded converted ≠ .null := by
  cases converted <;> nofun

/-- A read answers as it should exactly on an entry. -/
theorem cursorRead_eq_wanted_iff (contained : Contained schema store) (part : Part) :
    (cursorRead runtime snapshot stray around part iterator).1 =
      wanted runtime snapshot part iterator.position ↔ iterator.valid = true := by
  obtain ⟨position, calls⟩ := iterator
  cases position with
  | none =>
    -- whatever bytes the engine returns, a conversion does not make null of them
    simp only [cursorRead, setOver, Iterator.slice, wanted, Iterator.valid, Option.isSome_none,
      Bool.false_eq_true, iff_false]
    exact ofDecoded_ne_null _
  | some index =>
    rw [cursorRead_on contained]
    exact iff_of_true rfl rfl

end Cursor

section Loop

variable (runtime : Runtime) {schema : Schema} {store : Bytes → Option Bytes}
  (snapshot : Snapshot schema.keyType store) (stray : Stray snapshot.entries.length)
  (around : Memory)

/-- A loop that reads the entry the cursor is on and goes to the next, until there is none. -/
def visit : ℕ → Bool → Iterator snapshot.entries.length →
    Option (List (Reply × Reply) × Iterator snapshot.entries.length)
  | _, false, iterator => some ([], iterator)
  | 0, true, _ => none
  | fuel + 1, true, iterator =>
    let (key, iterator) := cursorRead runtime snapshot stray around .key iterator
    let (val, iterator) := cursorRead runtime snapshot stray around .value iterator
    let (more, iterator) := cursorOp snapshot stray .next iterator
    (visit fuel more iterator).map (Prod.map ((key, val) :: ·) id)

/-- The loop from the first entry on. -/
def visitAll (fuel : ℕ) (iterator : Iterator snapshot.entries.length) :
    Option (List (Reply × Reply) × Iterator snapshot.entries.length) :=
  let (found, iterator) := cursorOp snapshot stray .seekToFirst iterator
  visit runtime snapshot stray around fuel found iterator

/-- The key and the value of an entry, converted. -/
def converted (schema : Schema) (entry : Bytes × Bytes) : Reply × Reply :=
  (.ofDecoded (schema.keyType.decoded runtime entry.1),
    .ofDecoded (schema.valType.decoded runtime entry.2))

variable {runtime snapshot stray around}

/-- The loop reads every entry ahead, and keeps to the contract of the engine. -/
theorem visit_eq (contained : Contained schema store) {fuel : ℕ}
    {position : Position snapshot.entries.length} (enough : position.ahead.length ≤ fuel)
    (calls : List (Method × Bool)) :
    ∃ after asked, (∀ call ∈ asked, Proper call) ∧ after.calls = calls ++ asked ∧
      visit runtime snapshot stray around fuel position.isSome ⟨position, calls⟩ =
        some (position.ahead.map fun index => converted runtime schema (snapshot.entries.get index),
          after) := by
  induction fuel generalizing position calls with
  | zero =>
    obtain rfl : position = none := by
      cases position with
      | none => rfl
      | some index => simp [Position.ahead_some] at enough
    exact ⟨⟨none, calls⟩, [], List.forall_mem_nil _, (List.append_nil _).symm, rfl⟩
  | succ fuel ih =>
    cases position with
    | none => exact ⟨⟨none, calls⟩, [], List.forall_mem_nil _, (List.append_nil _).symm, rfl⟩
    | some index =>
      rw [Position.ahead_some, List.length_cons] at enough
      obtain ⟨after, asked, proper, called, visited⟩ := ih (Nat.le_of_succ_le_succ enough)
        (calls ++ [(.read .key, true)] ++ [(.read .value, true)] ++ [(.move .next, true)])
      refine ⟨after, [(.read .key, true), (.read .value, true), (.move .next, true)] ++ asked,
        ?_, ?_, ?_⟩
      · rw [List.forall_mem_append]
        exact ⟨by simp [Proper], proper⟩
      · rw [called]
        simp
      · have moved (calls : List (Method × Bool)) :
            cursorOp snapshot stray .next ⟨some index, calls⟩ = ((Position.next index).isSome,
              ⟨Position.next index, calls ++ [(.move .next, true)]⟩) := rfl
        rw [Option.isSome_some, visit, cursorRead_on contained]
        simp only
        rw [cursorRead_on contained]
        simp only [moved, visited, Position.ahead_some]
        rfl

theorem visitAll_eq (contained : Contained schema store) {fuel : ℕ}
    (enough : snapshot.entries.length ≤ fuel) (iterator : Iterator snapshot.entries.length) :
    ∃ after asked, (∀ call ∈ asked, Proper call) ∧ after.calls = iterator.calls ++ asked ∧
      visitAll runtime snapshot stray around fuel iterator =
        some (snapshot.entries.map (converted runtime schema), after) := by
  obtain ⟨after, asked, proper, called, visited⟩ := visit_eq contained
    ((Position.length_ahead_le (.first _)).trans enough)
    (iterator.calls ++ [(.move .seekToFirst, iterator.valid)])
  refine ⟨after, (.move .seekToFirst, iterator.valid) :: asked, ?_, ?_, ?_⟩
  · exact List.forall_mem_cons.mpr ⟨nofun, proper⟩
  · rw [called, List.append_assoc, List.singleton_append]
  · refine Eq.trans visited ?_
    rw [Position.ahead_first, ← List.ofFn_eq_map]
    exact congrArg (fun visited => some (visited, after)) (List.ofFn_getElem_eq_map _ _)

end Loop

/-- An iterator sees every key once. -/
theorem Snapshot.nodup_keys {type : DataType} {store : Bytes → Option Bytes}
    (snapshot : Snapshot type store) : (snapshot.entries.map Prod.fst).Nodup := by
  apply List.pairwise_map.mpr
  apply snapshot.ordered.imp
  intro left right less same
  rw [same, DataType.compare_self] at less
  contradiction

/-- On every contents that calls and timers reach, a cursor that was used in any way is on an entry
exactly if its last movement returned true. Its iterator was called within its contract exactly if
the script was careful, a read answers as it should exactly on an entry, and the loop from here on
visits every entry once, in the order of the keys. -/
theorem cursor_protocol_iff {runtime : Runtime} {fails : ℕ → Fails} {schema : ℕ → Schema}
    {stores : ℕ → Bytes → Option Bytes} {sizes : ℕ → JsNumber} {turns : List Turn}
    {session : Session} (initial : ∀ index, Contained (schema index) (stores index))
    (run : Runs (Prog.Steps (turn runtime.toV8 fails schema)) (Session.start stores sizes) turns session)
    (index : ℕ) (snapshot : Snapshot (schema index).keyType (session.world.dbs index).store)
    (stray : Stray snapshot.entries.length) (around : Memory) {transcript : List (Call × Answer)}
    {iterator : Iterator snapshot.entries.length}
    (used : Runs (CursorStep runtime snapshot stray around) (.opened _) transcript iterator) :
    iterator.valid = lastMoved transcript ∧
    ((∀ asked ∈ iterator.calls, Proper asked) ↔ Careful transcript) ∧
    (∀ part, (cursorRead runtime snapshot stray around part iterator).1 =
      wanted runtime snapshot part iterator.position ↔ lastMoved transcript = true) ∧
    (snapshot.entries.map Prod.fst).Nodup ∧
    ∀ fuel, snapshot.entries.length ≤ fuel →
      ∃ after asked, (∀ call ∈ asked, Proper call) ∧ after.calls = iterator.calls ++ asked ∧
        visitAll runtime snapshot stray around fuel iterator =
          some (snapshot.entries.map (converted runtime (schema index)), after) := by
  have contained := ((Session.replayed_of_run run).dbs index).store_contained (initial index)
  obtain ⟨valid, proper⟩ := used_spec used
  refine ⟨valid, proper, ?_, snapshot.nodup_keys, ?_⟩
  · intro part
    rw [← valid]
    exact cursorRead_eq_wanted_iff contained part
  · intro fuel enough
    exact visitAll_eq contained enough iterator

/-- Numbers by numbers. -/
def numbers : Schema := ⟨.int32, .int32⟩

/-- A store with one entry. -/
def single (key : Bytes) : Option Bytes := if key = [1, 0, 0, 0] then some [7, 0, 0, 0] else none

def Snapshot.single : Snapshot numbers.keyType single where
  entries := [([1, 0, 0, 0], [7, 0, 0, 0])]
  mem_entries := fun key val => by simp [Level.single, eq_comm]
  ordered := List.pairwise_singleton _ _

/-- A store with three entries. -/
def three (key : Bytes) : Option Bytes :=
  if key = [1, 0, 0, 0] then some [7, 0, 0, 0]
  else if key = [2, 0, 0, 0] then some [8, 0, 0, 0]
  else if key = [3, 0, 0, 0] then some [9, 0, 0, 0]
  else none

def Snapshot.three : Snapshot numbers.keyType three where
  entries := [([1, 0, 0, 0], [7, 0, 0, 0]), ([2, 0, 0, 0], [8, 0, 0, 0]), ([3, 0, 0, 0], [9, 0, 0, 0])]
  mem_entries := fun key val => by
    unfold Level.three
    split_ifs with first second third
    · simp [first, eq_comm]
    · simp [second, eq_comm]
    · simp [third, eq_comm]
    · simp [first, second, third]
  ordered := by decide +kernel

/-- Over the three entries to the end, and from the last one back to the second, whose key is read. The
loop visits them all again. -/
theorem cursor_protocol_over_three : ∃ iterator,
    Runs (CursorStep Runtime.basic Snapshot.three ⟨fun _ => none, fun _ => []⟩ ⟨[], []⟩) (.opened 3)
      [(.first, .flag true), (.next, .flag true), (.next, .flag true), (.next, .flag false),
        (.last, .flag true), (.prev, .flag true)] iterator ∧
    (∀ asked ∈ iterator.calls, Proper asked) ∧
    (cursorRead Runtime.basic Snapshot.three ⟨fun _ => none, fun _ => []⟩ ⟨[], []⟩ .key iterator).1 =
      .value (.number (.finite 2)) ∧
    ∃ after, visitAll Runtime.basic Snapshot.three ⟨fun _ => none, fun _ => []⟩ ⟨[], []⟩ 3 iterator =
      some ([1, 2, 3].map fun key =>
        (.value (.number (.finite key)), .value (.number (.finite (key + 6)))), after) := by
  have opened : Runs (Prog.Steps (turn Runtime.basic.toV8 (fun _ _ => none) fun _ => numbers))
      (Session.start (fun _ => three) fun _ => .finite 64) [] _ := .nil
  have contained : Contained numbers three := by
    intro key val stored
    have stored := (Snapshot.three.mem_entries key val).mpr stored
    have whole : ∀ entry ∈ Snapshot.three.entries, entry.1.length = 4 ∧ entry.2.length = 4 := by decide
    obtain ⟨keyed, valued⟩ := whole _ stored
    exact ⟨keyed.ge, valued.ge⟩
  have used : Runs (CursorStep Runtime.basic Snapshot.three ⟨fun _ => none, fun _ => []⟩ ⟨[], []⟩)
      (.opened 3) [(.first, .flag true), (.next, .flag true), (.next, .flag true), (.next, .flag false),
        (.last, .flag true), (.prev, .flag true)]
      ⟨some ⟨1, by decide⟩, [(.move .seekToFirst, false), (.move .next, true), (.move .next, true),
        (.move .next, true), (.move .seekToLast, false), (.move .prev, true)]⟩ :=
    .snoc (.snoc (.snoc (.snoc (.snoc (.snoc .nil (by rfl)) (by rfl)) (by rfl)) (by rfl)) (by rfl)) (by rfl)
  obtain ⟨-, proper, reads, -, visits⟩ := cursor_protocol_iff (fun _ => contained) opened 0 Snapshot.three
    ⟨fun _ => none, fun _ => []⟩ ⟨[], []⟩ used
  obtain ⟨after, -, -, -, visited⟩ := visits 3 le_rfl
  have forward : Careful [(.first, .flag true), (.next, .flag true), (.next, .flag true),
      (.next, .flag false)] :=
    .snoc (.snoc (.snoc (.snoc .nil fun needs => absurd needs (by decide)) fun _ => rfl) fun _ => rfl)
      fun _ => rfl
  have careful : Careful ([(.first, .flag true), (.next, .flag true), (.next, .flag true),
      (.next, .flag false)] ++ [(.last, .flag true)] ++ [(.prev, .flag true)]) :=
    .snoc (.snoc forward fun needs => absurd needs (by decide)) fun _ => rfl
  refine ⟨_, used, proper.mpr careful, ((reads .key).mpr rfl).trans ?_, after, visited.trans ?_⟩
  · decide +kernel
  · have shown : Snapshot.three.entries.map (converted Runtime.basic numbers) = [1, 2, 3].map fun key =>
        (.value (.number (.finite key)), .value (.number (.finite (key + 6)))) := by decide +kernel
    rw [shown]

/-- A new cursor is on no entry. Its key is asked for all the same, and whatever the engine does
then, the reply is not null. -/
theorem fresh_cursor_reads : (Iterator.opened 1).valid = false ∧
    ∀ stray : Stray 1, ∃ reply iterator,
      Runs (CursorStep Runtime.basic Snapshot.single stray ⟨[], []⟩) (.opened 1)
        [(.key, .reply reply)] iterator ∧
      reply ≠ .null ∧ iterator.calls = [(.read .key, false)] := by
  refine ⟨rfl, ?_⟩
  intro stray
  have run : Runs (CursorStep Runtime.basic Snapshot.single stray ⟨[], []⟩) (.opened 1)
      [(.key, .reply _)] _ := .snoc .nil rfl
  exact ⟨_, _, run, ofDecoded_ne_null _, rfl⟩

end NodeKv.Level
