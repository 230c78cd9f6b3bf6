import NodeKv.Machine.Ordered
import NodeKv.Machine.Places
import NodeKv.Soundness.Engines.Interchange
import NodeKv.Soundness.Level.Cursors
import NodeKv.Soundness.Lmdb.Deleting

/-! # Cursors of LMDB and of LevelDB are interchangeable

Iterators of LevelDB and cursors of LMDB agree as long as they are on an entry. Without one, an iterator
must not be asked to go on, while a cursor of LMDB stays near where it was; and after a search that has
found nothing, even `last` cannot be relied on. A script that goes by the answers it gets, and does not
make these calls, gets the same answers from both.
-/

namespace NodeKv.Engines

open Machine

/-- What a script knows of the place of a cursor. -/
inductive Footing where
  /-- It is on an entry. -/
  | entry
  | nowhere
  /-- The last search has found nothing. -/
  | astray
deriving DecidableEq, Repr

namespace Footing

/-- The calls that a script may make. -/
def allows : Footing → Level.Call → Bool
  | entry, _ => true
  | nowhere, call => !call.needsEntry
  | astray, call => !call.needsEntry && decide (call ≠ .last)

/-- What it knows after an answer. -/
def after (footing : Footing) : Level.Call × Level.Answer → Footing
  | (_, .flag true) => entry
  | (.gte _, .flag false) => astray
  | (_, .flag false) => nowhere
  | (_, .reply _) => footing

end Footing

/-- LMDB does not look for an empty key. -/
def Sized (runtime : Runtime) (schema : Level.Schema) : Level.Call → Prop
  | .gte key => ∀ datum, schema.keyType.check runtime.toV8 key = .ok datum → datum.bytes ≠ []
  | _ => True

/-- A script that goes by the answers it gets. -/
def Steady (runtime : Runtime) (schema : Level.Schema) :
    Footing → List (Level.Call × Level.Answer) → Prop
  | _, [] => True
  | footing, label :: rest => footing.allows label.1 = true ∧ Sized runtime schema label.1 ∧
    Steady runtime schema (footing.after label) rest

private theorem steady_snoc {runtime : Runtime} {schema : Level.Schema} {footing : Footing}
    {transcript : List (Level.Call × Level.Answer)} {label : Level.Call × Level.Answer}
    (steady : Steady runtime schema footing (transcript ++ [label])) :
    Steady runtime schema footing transcript ∧
      (transcript.foldl Footing.after footing).allows label.1 = true ∧
      Sized runtime schema label.1 := by
  induction transcript generalizing footing with
  | nil => exact ⟨trivial, steady.1, steady.2.1⟩
  | cons first rest ih =>
    obtain ⟨allowed, sized, onward⟩ := steady
    obtain ⟨steady, last⟩ := ih onward
    exact ⟨⟨allowed, sized, steady⟩, last⟩

section Contents

open Lmdb

variable {db : Lmdb.Db} {store : Store} {map : Bytes → Option Bytes}

theorem Holds.single (holds : Holds db store map) (key : Bytes) :
    (store db.dbi key).length ≤ 1 := by
  rw [holds key]
  cases map key <;> simp

/-- Different entries of LevelDB have keys that compare as different. -/
theorem entries_apart (snapshot : Level.Snapshot db.keyType map) {left right : Bytes × Bytes}
    (member : left ∈ snapshot.entries) (member' : right ∈ snapshot.entries) (ne : left ≠ right) :
    db.keyType.compare left.1 right.1 ≠ .eq := by
  let apart (left right : Bytes × Bytes) : Prop := db.keyType.compare left.1 right.1 ≠ .eq
  have symm : Std.Symm apart := by
    constructor
    intro left right differ same
    rw [DataType.compare_swap, Ordering.swap_eq_iff_eq_swap] at same
    exact differ same
  have ordered : snapshot.entries.Pairwise apart := by
    apply snapshot.ordered.imp
    intro left right less same
    cases less.symm.trans same
  exact ordered.forall member member' ne

/-- The same entries, in the order that both engines keep. -/
theorem pairs_eq_entries (holds : Holds db store map) (contents : Contents db store)
    (snapshot : Level.Snapshot db.keyType map) : contents.pairs = snapshot.entries := by
  have members (pair : Bytes × Bytes) : pair ∈ contents.pairs ↔ pair ∈ snapshot.entries := by
    rw [contents.mem_pairs pair.1 pair.2, snapshot.mem_entries pair.1 pair.2, holds pair.1,
      Option.mem_toList]
  let byKey (left right : Bytes × Bytes) := db.keyType.compare left.1 right.1
  have : Std.TransCmp byKey := transCmp_on db.keyType.compare Prod.fst
  have ordered : Ascending byKey contents.pairs := by
    refine contents.ordered.imp_of_mem ?_
    intro left right member member' less
    rcases Ordering.then_eq_lt.mp less with below | ⟨same, below⟩
    · exact below
    · refine absurd same (entries_apart snapshot ((members left).mp member) ((members right).mp member') ?_)
      rintro rfl
      rw [DataType.compare_self] at below
      cases below
  have ordered' : Ascending byKey snapshot.entries := snapshot.ordered
  exact ordered.unique ordered' members

end Contents

section Places

open Lmdb Lmdb.Deleting

variable {entries : List Pair} {spot : Spot} {position : Position entries.length} {footing : Footing}

/-- Where a cursor of LMDB and an iterator of LevelDB are, by what the script knows. -/
def Footed (entries : List Pair) (spot : Spot) (position : Position entries.length) : Footing → Prop
  | .entry => ∃ before pair after index, entries = before ++ pair :: after ∧
    spot = .at ⟨before, some pair, after⟩ ∧ position = some index ∧ index.val = before.length
  | .nowhere => spot = .fresh entries ∨ entries ≠ [] ∧ ∃ zipper, spot = .at zipper ∧ zipper.items = entries
  | .astray => spot = .fresh entries ∨ entries ≠ [] ∧ spot = .adrift entries

theorem Footed.pairs (footed : Footed entries spot position footing) : spot.pairs = entries := by
  cases footing with
  | entry =>
    obtain ⟨before, pair, after, index, rfl, rfl, -⟩ := footed
    simp [Spot.pairs, Zipper.items]
  | nowhere =>
    rcases footed with rfl | ⟨-, zipper, rfl, items⟩
    · rfl
    · exact items
  | astray =>
    rcases footed with rfl | ⟨-, rfl⟩
    · rfl
    · rfl

/-- A script that is on an entry may take it that it is nowhere. -/
theorem Footed.nowhere (footed : Footed entries spot position footing)
    (steady : footing ≠ .astray) :
    Footed entries spot none .nowhere := by
  cases footing with
  | entry =>
    obtain ⟨before, pair, after, index, rfl, rfl, -⟩ := footed
    exact .inr ⟨by simp, _, rfl, by simp [Zipper.items]⟩
  | nowhere => exact footed
  | astray => exact absurd rfl steady

/-- A movement that finds nothing leaves a cursor near where it was. -/
theorem Footed.settle (footed : Footed entries spot none .nowhere) :
    Footed entries spot.settle none .nowhere := by
  rcases footed with rfl | ⟨some, zipper, rfl, items⟩
  · exact .inl rfl
  · exact .inr ⟨some, zipper.settle, rfl, (Zipper.items_settle zipper).trans items⟩

/-- Both have come to the same entry. -/
theorem footed_found {zipper : Zipper Pair} (alongside : Alongside entries (some zipper) position) :
    position.isSome = true ∧ Footed entries (.at zipper) position .entry := by
  obtain ⟨index, rfl, same⟩ := Option.map_eq_some_iff.mp alongside.index.symm
  obtain ⟨before, here, after⟩ := zipper
  obtain ⟨on, items⟩ := alongside.here _ rfl
  obtain ⟨pair, rfl⟩ := Option.isSome_iff_exists.mp on
  refine ⟨rfl, before, pair, after, index, ?_, rfl, rfl, same⟩
  rw [← items]
  simp [Zipper.items]

private theorem none_of_alongside (alongside : Alongside entries none position) : position = none :=
  Option.map_eq_none_iff.mp alongside.index.symm

/-- Both are led to an entry, or to none. -/
theorem goTo_footed {zipper? : Option (Zipper Pair)}
    (alongside : Alongside entries zipper? position)
    (missed : zipper? = none → Footed entries spot none .nowhere) {call : Level.Call}
    (moves : footing.after (call, .flag false) = .nowhere) :
    (spot.goTo zipper?).1 = .ok (.found position.isSome) ∧
      Footed entries (spot.goTo zipper?).2 position
        (footing.after (call, .flag position.isSome)) := by
  cases zipper? with
  | none =>
    obtain rfl := none_of_alongside alongside
    refine ⟨rfl, ?_⟩
    rw [Option.isSome_none, moves]
    exact (missed rfl).settle
  | some zipper =>
    obtain ⟨some, footed⟩ := footed_found alongside
    rw [some]
    exact ⟨rfl, footed⟩

/-- Nothing has been found if there is nothing. -/
theorem Footed.fresh (footed : Footed entries spot position footing) (empty : entries = []) :
    spot = .fresh entries := by
  cases footing with
  | entry =>
    obtain ⟨before, pair, after, index, rfl, -⟩ := footed
    exact absurd empty (by simp)
  | nowhere => exact footed.resolve_right fun other => other.1 empty
  | astray => exact footed.resolve_right fun other => other.1 empty

/-- A search that finds nothing leads a cursor astray. -/
theorem search_footed (db : Lmdb.Db) (footed : Footed entries spot position footing) {key : Bytes}
    (sized : key ≠ []) (wanted : Ordering → Bool) (raw : Value) {found : Position entries.length}
    (sought : found = Position.seek fun index => wanted (db.keyType.compare (entries.get index).1 key)) :
    (spot.search db key wanted).1 = .ok (.found found.isSome) ∧
      Footed entries (spot.search db key wanted).2 found
        (footing.after (.gte raw, .flag found.isSome)) := by
  have alongside : Alongside entries
      (Zipper.find? (fun pair => wanted (db.keyType.compare pair.1 key)) entries) found := by
    rw [sought]
    exact .find entries _
  simp only [Spot.search, if_neg sized, footed.pairs]
  cases moved : Zipper.find? (fun pair => wanted (db.keyType.compare pair.1 key)) entries with
  | some zipper =>
    rw [moved] at alongside
    obtain ⟨some, footed⟩ := footed_found alongside
    rw [some]
    exact ⟨rfl, footed⟩
  | none =>
    rw [moved] at alongside
    obtain rfl := none_of_alongside alongside
    by_cases empty : entries = []
    · have fresh : spot = .fresh entries := footed.fresh empty
      exact ⟨rfl, .inl ((if_pos empty).trans fresh)⟩
    · exact ⟨rfl, .inr ⟨empty, if_neg empty⟩⟩

end Places

/-- The types of a database, as LevelDB has them. -/
abbrev schemaOf (db : Lmdb.Db) : Level.Schema := ⟨db.keyType, db.valType⟩

section Steps

open Lmdb.Deleting

variable {runtime : Runtime} {around : Memory} {db : Lmdb.Db} {map : Bytes → Option Bytes}
  {snapshot : Level.Snapshot (schemaOf db).keyType map} {stray : Level.Stray snapshot.entries.length}
  {spot : Spot} {iterator : Level.Iterator snapshot.entries.length} {footing : Footing}

/-- A call is answered alike, and the places are alike after it. -/
def AnsweredAlike (runtime : Runtime) (around : Memory) (readonly : Bool)
    (snapshot : Level.Snapshot (schemaOf db).keyType map) (stray : Level.Stray snapshot.entries.length)
    (footing : Footing) (call : Level.Call) (spot : Spot)
    (iterator : Level.Iterator snapshot.entries.length) : Prop :=
  let (answer, next) := Level.perform runtime snapshot stray around call iterator
  ∃ spot', lmdbCursor runtime around (schemaOf db) (Spot.perform db readonly) call spot =
      (some answer, spot') ∧
    Footed snapshot.entries spot' next.position (footing.after (call, answer))

variable {readonly : Bool}

/-- A movement is answered alike if it leads to the same place. -/
theorem move_alike {call : Level.Call} (op : Op) (movement : Level.Movement)
    (asked : lmdbCursor runtime around (schemaOf db) (Spot.perform db readonly) call spot =
      Prod.map (answered runtime around (schemaOf db) .key) id (spot.perform db readonly (.move op)))
    (asked' : Level.perform runtime snapshot stray around call iterator =
      Prod.map Level.Answer.flag id (Level.cursorOp snapshot stray movement iterator))
    {position : Position snapshot.entries.length}
    (destination : iterator.destination snapshot stray movement = position)
    (moved : (spot.perform db readonly (.move op)).1 = .ok (.found position.isSome) ∧
      Footed snapshot.entries (spot.perform db readonly (.move op)).2 position
        (footing.after (call, .flag position.isSome))) :
    AnsweredAlike runtime around readonly snapshot stray footing call spot iterator := by
  subst destination
  obtain ⟨answer, footed⟩ := moved
  rw [AnsweredAlike, asked', asked]
  refine ⟨_, Prod.ext ?_ rfl, footed⟩
  rw [Prod.map_fst, answer]
  rfl

variable (footed : Footed snapshot.entries spot iterator.position footing)

include footed

private theorem first_alike :
    AnsweredAlike runtime around readonly snapshot stray footing .first spot iterator := by
  have missed : Zipper.first? snapshot.entries = none → Footed snapshot.entries spot none .nowhere := by
    intro none
    by_cases steady : footing = .astray
    · subst steady
      rcases footed with fresh | ⟨some, -⟩
      · exact .inl fresh
      · obtain ⟨entry, rest, split⟩ := List.exists_cons_of_ne_nil some
        rw [split] at none
        cases none
    · exact footed.nowhere steady
  refine move_alike .first .seekToFirst rfl rfl rfl ?_
  simp only [Spot.perform, footed.pairs]
  exact goTo_footed (.first _) missed rfl

private theorem last_alike (steady : footing ≠ .astray) :
    AnsweredAlike runtime around readonly snapshot stray footing .last spot iterator := by
  refine move_alike .last .seekToLast rfl rfl rfl ?_
  have placed : spot.perform db readonly (.move .last) = spot.goTo (Zipper.last? spot.pairs) := by
    rcases footed.nowhere steady with rfl | ⟨-, zipper, rfl, -⟩
    · rfl
    · rfl
  rw [placed, footed.pairs]
  exact goTo_footed (.last _) (fun _ => footed.nowhere steady) rfl

private theorem gte_alike {key : Value} (sized : Sized runtime (schemaOf db) (.gte key)) :
    AnsweredAlike runtime around readonly snapshot stray footing (.gte key) spot iterator := by
  rcases db.keyType.check_cases runtime.toV8 key with
    ⟨error, rejected, -⟩ | ⟨datum, sanitized, checked⟩
  · simp only [AnsweredAlike, Level.perform, Level.gte, lmdbCursor, rejected]
    exact ⟨spot, rfl, footed⟩
  · refine move_alike (.setRange datum.bytes) (.seek datum.bytes) ?_ ?_ rfl ?_
    · simp only [lmdbCursor, sanitized, Datum.encode_value]
    · simp only [Level.perform, Level.gte, sanitized, Datum.encode_value]
    · exact search_footed db footed (sized datum checked) (·.isGE) key rfl

omit footed in
private theorem next_alike (footed : Footed snapshot.entries spot iterator.position .entry) :
    AnsweredAlike runtime around readonly snapshot stray .entry .next spot iterator := by
  have near := footed.nowhere (by decide)
  obtain ⟨before, pair, after, index, whole, rfl, on, same⟩ := footed
  have destination : iterator.destination snapshot stray .next = Position.next index := by
    simp only [Level.Iterator.destination, on]
  refine move_alike .next .next rfl rfl destination ?_
  exact goTo_footed (.next whole same) (fun _ => near) rfl

omit footed in
private theorem prev_alike (footed : Footed snapshot.entries spot iterator.position .entry) :
    AnsweredAlike runtime around readonly snapshot stray .entry .prev spot iterator := by
  have near := footed.nowhere (by decide)
  obtain ⟨before, pair, after, index, whole, rfl, on, same⟩ := footed
  have destination : iterator.destination snapshot stray .prev = Position.prev index := by
    simp only [Level.Iterator.destination, on]
  refine move_alike .prev .prev rfl rfl destination ?_
  exact goTo_footed (.prev whole same) (fun _ => near) rfl

omit footed in
theorem read_alike (readonly : Bool)
    (footed : Footed snapshot.entries spot iterator.position .entry)
    (part : Level.Part) :
    ∃ spot', Prod.map (answered runtime around (schemaOf db) part) id (spot.perform db readonly .read) =
        (some (.reply (Level.cursorRead runtime snapshot stray around part iterator).1), spot') ∧
      Footed snapshot.entries spot'
        (Level.cursorRead runtime snapshot stray around part iterator).2.position .entry := by
  obtain ⟨before, pair, after, index, whole, rfl, on, same⟩ := footed
  have shown := Alongside.get_eq whole same
  refine ⟨.at ⟨before, some pair, after⟩, ?_, before, pair, after, index, whole, rfl, on, same⟩
  simp only [Level.cursorRead, Level.Iterator.slice, on, shown]
  rfl

/-- Every call that the script may make. -/
theorem perform_alike {call : Level.Call} (allowed : footing.allows call = true)
    (sized : Sized runtime (schemaOf db) call) :
    AnsweredAlike runtime around readonly snapshot stray footing call spot iterator := by
  -- without an entry only the movements are left that need none
  have standing : call.needsEntry = true → footing = .entry := by
    intro needs
    cases footing <;> simp_all [Footing.allows]
  cases call with
  | first => exact first_alike footed
  | last =>
    refine last_alike footed ?_
    rintro rfl
    cases allowed
  | gte key => exact gte_alike footed sized
  | next =>
    obtain rfl := standing rfl
    exact next_alike footed
  | prev =>
    obtain rfl := standing rfl
    exact prev_alike footed
  | key =>
    obtain rfl := standing rfl
    exact read_alike readonly footed .key
  | val =>
    obtain rfl := standing rfl
    exact read_alike readonly footed .value

end Steps

section Main

open Lmdb Lmdb.Deleting

variable {runtime : Runtime} {around : Memory} {db : Lmdb.Db}

/-- Two cursors of LMDB that answer alike give the same answers to a script. -/
theorem lmdbCursor_follows (runtime : Runtime) (around : Memory) {σ τ : Type*}
    {related : σ → τ → Prop}
    {step : σ → Deleting.Call → Answer Deleting.Reply × σ}
    {step' : τ → Deleting.Call → Answer Deleting.Reply × τ}
    (follows : Follows related step step') {state : σ} {state' : τ} (states : related state state')
    (schema : Level.Schema) (call : Level.Call) :
    (lmdbCursor runtime around schema step call state).1 =
        (lmdbCursor runtime around schema step' call state').1 ∧
      related (lmdbCursor runtime around schema step call state).2
        (lmdbCursor runtime around schema step' call state').2 := by
  have ask (part : Level.Part) (call : Deleting.Call) :
      (Prod.map (answered runtime around schema part) id (step state call)).1 =
          (Prod.map (answered runtime around schema part) id (step' state' call)).1 ∧
        related (Prod.map (answered runtime around schema part) id (step state call)).2
          (Prod.map (answered runtime around schema part) id (step' state' call)).2 := by
    obtain ⟨answer, next⟩ := follows state state' call states
    exact ⟨congrArg (answered runtime around schema part) answer, next⟩
  cases call with
  | first => exact ask .key (.move .first)
  | last => exact ask .key (.move .last)
  | next => exact ask .key (.move .next)
  | prev => exact ask .key (.move .prev)
  | key => exact ask .key .read
  | val => exact ask .value .read
  | gte key =>
    simp only [lmdbCursor]
    split
    · exact ⟨rfl, states⟩
    · split
      · exact ⟨rfl, states⟩
      · exact ask .key _

/-- A script that goes by the answers it gets. On databases with the same contents, whatever a cursor of
LevelDB has answered to it, a cursor of LMDB answers to it as well. -/
theorem cursors_interchangeable {store : Store} {map : Bytes → Option Bytes}
    (holds : Holds db store map) (contents : Contents db store) (plain : db.allowDup = false)
    (readonly : Bool) (snapshot : Level.Snapshot (schemaOf db).keyType map)
    (stray : Level.Stray snapshot.entries.length)
    {transcript : List (Level.Call × Level.Answer)}
    {iterator : Level.Iterator snapshot.entries.length}
    (used : Runs (Level.CursorStep runtime snapshot stray around) (.opened _) transcript iterator)
    (steady : Steady runtime (schemaOf db) .nowhere transcript) :
    ∃ state, Runs (LmdbCursorStep runtime around (schemaOf db) perform)
      (State.opened readonly contents plain holds.single) transcript state := by
  have along : ∃ state spot, Runs (LmdbCursorStep runtime around (schemaOf db) perform)
        (State.opened readonly contents plain holds.single) transcript state ∧ At store readonly state spot ∧
      Footed snapshot.entries spot iterator.position (transcript.foldl Footing.after .nowhere) := by
    refine used.preserves (fun transcript iterator => Steady runtime (schemaOf db) .nowhere transcript →
      ∃ state spot, Runs (LmdbCursorStep runtime around (schemaOf db) perform)
        (State.opened readonly contents plain holds.single) transcript state ∧ At store readonly state spot ∧
      Footed snapshot.entries spot iterator.position (transcript.foldl Footing.after .nowhere)) ?_ ?_ steady
    · intro _
      refine ⟨_, .fresh contents.pairs, .nil, opened_at readonly contents plain holds.single, .inl ?_⟩
      rw [pairs_eq_entries holds contents snapshot]
    · rintro transcript iterator ⟨call, answer⟩ next ih performed steady
      obtain ⟨steady, allowed, sized⟩ := steady_snoc steady
      obtain ⟨state, spot, run, placed, footed⟩ := ih steady
      have alike : AnsweredAlike runtime around readonly snapshot stray _ call spot iterator :=
        perform_alike footed allowed sized
      rw [AnsweredAlike, show Level.perform runtime snapshot stray around call iterator = (answer, next)
        from performed] at alike
      obtain ⟨spot', answered, footed⟩ := alike
      obtain ⟨same, placed⟩ := lmdbCursor_follows runtime around
        (perform_follows store readonly) placed (schemaOf db) call
      rw [answered] at same placed
      refine ⟨_, spot', .snoc run (Prod.ext same rfl), placed, ?_⟩
      rw [List.foldl_append]
      exact footed
  obtain ⟨state, -, run, -⟩ := along
  exact ⟨state, run⟩

def threeMap (key : Bytes) : Option Bytes :=
  (threePairs.find? fun pair => pair.1 = key).map Prod.snd

private theorem holds_three : Holds threeDb (storeOf threeDb threePairs) threeMap := by
  intro key
  by_cases known : key ∈ threePairs.map Prod.fst
  · obtain ⟨pair, member, rfl⟩ := List.mem_map.mp known
    revert pair
    decide
  · have others : ∀ pair ∈ threePairs, ¬pair.1 = key := by
      rintro pair member rfl
      exact known (List.mem_map_of_mem member)
    have found : threePairs.find? (fun pair => pair.1 = key) = none := by simpa using others
    have stored : threePairs.filter (·.1 == key) = [] := by simpa using others
    rw [threeMap, found, storeOf, if_pos rfl, stored]
    rfl

def threeSnapshot : Level.Snapshot (schemaOf threeDb).keyType threeMap where
  entries := threePairs
  mem_entries := fun key val => by
    rw [mem_storeOf threeDb, holds_three key]
    exact Option.mem_toList
  ordered := by decide

/-- Over the three entries to the end, from the second one back to the front, and to the last. -/
theorem cursors_interchangeable_over_three :
    let transcript : List (Level.Call × Level.Answer) := [(.first, .flag true),
      (.val, .reply (.value (.buffer [10]))), (.next, .flag true), (.next, .flag true),
      (.key, .reply (.value (.buffer [3]))), (.next, .flag false), (.gte (.buffer [2]), .flag true),
      (.prev, .flag true), (.val, .reply (.value (.buffer [10]))), (.prev, .flag false),
      (.last, .flag true)]
    ∃ state, Runs (LmdbCursorStep Runtime.basic ⟨[], []⟩ (schemaOf threeDb) perform)
      (State.opened true threeContents rfl holds_three.single) transcript state := by
  intro transcript
  have used : ∃ iterator, Runs (Level.CursorStep Runtime.basic threeSnapshot
      ⟨fun _ => none, fun _ => []⟩ ⟨[], []⟩) (.opened 3) transcript iterator :=
    ⟨_, .snoc (.snoc (.snoc (.snoc (.snoc (.snoc (.snoc (.snoc (.snoc (.snoc (.snoc .nil rfl) rfl) rfl)
      rfl) rfl) rfl) rfl) rfl) rfl) rfl) rfl⟩
  have sized : Sized Runtime.basic (schemaOf threeDb) (.gte (.buffer [2])) := by
    intro datum checked empty
    have encoded := datum.encode_value
    rw [← Except.ok.inj (DataType.sanitize_of_check checked), empty] at encoded
    cases encoded
  have steady : Steady Runtime.basic (schemaOf threeDb) .nowhere transcript :=
    ⟨rfl, trivial, rfl, trivial, rfl, trivial, rfl, trivial, rfl, trivial, rfl, trivial, rfl, sized,
      rfl, trivial, rfl, trivial, rfl, trivial, rfl, trivial, trivial⟩
  obtain ⟨iterator, used⟩ := used
  exact cursors_interchangeable holds_three threeContents rfl true threeSnapshot _ used steady

end Main

end NodeKv.Engines
