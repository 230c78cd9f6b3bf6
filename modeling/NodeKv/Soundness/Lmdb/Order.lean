import NodeKv.Model.Lmdb.Cursor
import NodeKv.Proofs.Lmdb.Stored
import NodeKv.Soundness.Order.Search

/-! # Cursors of LMDB by the order of keys and duplicates

A cursor of LMDB passes the pairs of its database in order, and looks for keys and for duplicates
with the comparators of their types. For types that are stored in the order of a spelling, it goes by
the spelling.
-/

namespace NodeKv.Lmdb

open Machine

variable {v8 : V8} {db : Db} {store : Store}

/-- The states of a database that can be read after a session of calls that agree on its types, if
it has contained values of these types at first. -/
inductive Readable (v8 : V8) (db : Db) : Store → Prop where
  | committed {initial : Store} {calls : List Session} {native : Native} {versions : Versions Store}
      (stored : Stored v8 db initial) (agrees : ∀ call ∈ calls, call.Agrees db)
      (run : Runs (Session.Tracked v8) (.opened initial, .opened initial) calls (native, versions)) :
      Readable v8 db versions.committed
  | view {initial : Store} {calls : List Session} {native : Native} {versions : Versions Store}
      (stored : Stored v8 db initial) (agrees : ∀ call ∈ calls, call.Agrees db)
      (run : Runs (Session.Tracked v8) (.opened initial, .opened initial) calls (native, versions))
      (handle : ℕ) {writes : Bool} {store : Store}
      (live : versions.views handle = .live writes store) : Readable v8 db store

theorem Readable.stored (readable : Readable v8 db store) : Stored v8 db store := by
  cases readable with
  | committed stored agrees run => exact (Session.stored_of_run stored agrees run).committed
  | view stored agrees run handle live =>
    have seen := (Session.stored_of_run stored agrees run).views handle
    rwa [live] at seen

namespace Cursor

/-- The pair that a cursor is on. -/
def Place.index? {size : ℕ} : Place size → Position size
  | on index => some index
  | _ => none

section Movements

variable {contents : Contents db store} {stray : Stray contents.pairs.length}

/-- Where a movement has led to, with its answer. -/
def moved (position : Position contents.pairs.length) : Result Bool × Place contents.pairs.length :=
  match position with
  | some index => (.ok true, .on index)
  | none => (.ok false, .lost)

/-- A movement that LMDB allows says whether it has found a pair, and goes there. -/
theorem cursorOp_moved (movement : Movement) (dups : movement.needsDups = true → db.allowDup = true)
    (sized : movement.key? ≠ some []) (whole : movement.val? ≠ some [])
    (place : Place contents.pairs.length) :
    cursorOp contents stray none movement place =
      moved (destination contents stray movement place) := by
  have allowed : (movement.needsDups && !db.allowDup) = false := by
    cases needs : movement.needsDups with
    | false => rfl
    | true => simp [dups needs]
  have taken : refusesVal db store movement = false := by simp [refusesVal, whole]
  simp only [cursorOp, mdbCursorGet, allowed, taken, Bool.false_eq_true, if_false, if_neg sized]
  cases destination contents stray movement place <;> rfl

theorem cursorOp_eq (movement : Movement) (dups : movement.needsDups = true → db.allowDup = true)
    (sized : movement.key? ≠ some []) (whole : movement.val? ≠ some [])
    (place : Place contents.pairs.length) :
    ∃ next, cursorOp contents stray none movement place = (.ok next.index?.isSome, next) ∧
      next.index? = destination contents stray movement place := by
  rw [cursorOp_moved movement dups sized whole]
  cases destination contents stray movement place with
  | none => exact ⟨.lost, rfl, rfl⟩
  | some index => exact ⟨.on index, rfl, rfl⟩

/-- A loop from the first pair on, after some number of passes. -/
def walk (contents : Contents db store) (stray : Stray contents.pairs.length)
    (place : Place contents.pairs.length) : ℕ → Result Bool × Place contents.pairs.length
  | 0 => cursorOp contents stray none .first place
  | passes + 1 => cursorOp contents stray none .next (walk contents stray place passes).2

/-- The loop comes to every pair in order. -/
theorem walk_eq (place : Place contents.pairs.length) {passes : ℕ}
    (inside : passes < contents.pairs.length) :
    walk contents stray place passes = (.ok true, .on ⟨passes, inside⟩) := by
  induction passes with
  | zero =>
    have first : Position.first contents.pairs.length = some ⟨0, inside⟩ := dif_pos inside
    rw [walk, cursorOp_moved .first (by simp [Movement.needsDups]) (by simp [Movement.key?])
      (by simp [Movement.val?]), destination, first]
    rfl
  | succ passes ih =>
    have next : Position.next (⟨passes, by omega⟩ : Fin contents.pairs.length) =
        some ⟨passes + 1, inside⟩ := dif_pos inside
    rw [walk, ih (by omega), cursorOp_moved .next (by simp [Movement.needsDups])
      (by simp [Movement.key?]) (by simp [Movement.val?]), destination, next]
    rfl

/-- Behind the last pair it ends. -/
theorem walk_ends (place : Place contents.pairs.length) :
    (walk contents stray place contents.pairs.length).1 = .ok false := by
  rcases Nat.eq_zero_or_pos contents.pairs.length with empty | some
  · have first : Position.first contents.pairs.length = none := dif_neg (by omega)
    have start := congrArg (walk contents stray place) empty
    rw [start, walk, cursorOp_moved .first (by simp [Movement.needsDups]) (by simp [Movement.key?])
      (by simp [Movement.val?]), destination, first]
    rfl
  · obtain ⟨passes, count⟩ := Nat.exists_eq_add_of_lt some
    rw [Nat.zero_add] at count
    have inside : passes < contents.pairs.length := by omega
    have next : Position.next (⟨passes, inside⟩ : Fin contents.pairs.length) = none :=
      dif_neg (by simp only; omega)
    have ended := congrArg (walk contents stray place) count
    rw [ended, walk, walk_eq place inside, cursorOp_moved .next (by simp [Movement.needsDups])
      (by simp [Movement.key?]) (by simp [Movement.val?]), destination, next]
    rfl

end Movements

private theorem present_key (contents : Contents db store) (key : Datum v8 db.keyType) :
    (∃ pair ∈ contents.pairs, True ∧ pair.1 = key.bytes) ↔
      ∃ val, val ∈ store db.dbi key.bytes := by
  constructor
  · rintro ⟨⟨key, val⟩, member, -, rfl⟩
    exact ⟨val, (contents.mem_pairs ..).mp member⟩
  · rintro ⟨val, member⟩
    exact ⟨_, (contents.mem_pairs ..).mpr member, trivial, rfl⟩

private theorem present_dup (contents : Contents db store) (key : Bytes)
    (val : Datum v8 db.valType) :
    (∃ pair ∈ contents.pairs, pair.1 = key ∧ pair.2 = val.bytes) ↔
      val.bytes ∈ store db.dbi key := by
  constructor
  · rintro ⟨⟨key, val⟩, member, rfl, rfl⟩
    exact (contents.mem_pairs ..).mp member
  · intro member
    exact ⟨_, (contents.mem_pairs ..).mpr member, rfl, rfl⟩

section Search

variable {contents : Contents db store} {stray : Stray contents.pairs.length}
  (stored : Stored v8 db store)

include stored

private theorem searched_keys (contents : Contents db store) :
    Searched v8 db.keyType contents.pairs Prod.fst fun _ => True := by
  constructor
  · intro pair member _
    exact stored.key _ _ ((contents.mem_pairs ..).mp member)
  · apply contents.ordered.imp
    intro left right less _ _
    rcases Ordering.then_eq_lt.mp less with below | ⟨same, -⟩
    · rw [below]
      rfl
    · rw [same]
      rfl

private theorem searched_dups (contents : Contents db store) (key : Bytes) :
    Searched v8 db.valType contents.pairs Prod.snd fun pair => pair.1 = key := by
  constructor
  · intro pair member _
    exact stored.val _ _ ((contents.mem_pairs ..).mp member)
  · apply contents.ordered.imp
    intro left right less same same'
    rw [Db.comparePairs, same, same', DataType.compare_self] at less
    rw [show db.valType.compare left.2 right.2 = .lt from less]
    rfl

/-- The keys in the order of a cursor are in the order of their spelling. -/
theorem keys_spelled {spelling : Datum v8 db.keyType → String}
    (spells : Spells v8 db.keyType spelling) (contents : Contents db store) :
    ∃ keys : List (Datum v8 db.keyType),
      contents.pairs.map Prod.fst = keys.map Datum.bytes ∧
      keys.Pairwise fun left right =>
        (compareOn codePoints (spelling left) (spelling right)).isLE = true := by
  have searched := searched_keys stored contents
  refine spells.exists_data (·.isLE = true) ?_ (List.pairwise_map.mpr ?_)
  · intro key member
    obtain ⟨pair, present, rfl⟩ := List.mem_map.mp member
    exact searched.made pair present trivial
  · exact searched.ordered.imp fun less => less trivial trivial

section Keys

variable {spelling : Datum v8 db.keyType → String} (spells : Spells v8 db.keyType spelling)
  {raw : Value} {key : Datum v8 db.keyType} (checked : db.keyType.check v8 raw = .ok key)
  (place : Place contents.pairs.length)

include spells checked

/-- `seek` with a key goes to the key that is spelled alike. -/
theorem seek_key : ∃ next,
    seek contents stray v8 none raw none place = (.ok next.index?.isSome, next) ∧
      FindsAlike spelling (fun key => ∃ val, val ∈ store db.dbi key.bytes) key
        (next.index?.map fun index => (contents.pairs.get index).1) := by
  obtain ⟨next, moved, stopped⟩ := cursorOp_eq (.set key.bytes) nofun
    (fun empty => spells.ne_nil key (Option.some.inj empty)) nofun place
  refine ⟨next, ?_, ?_⟩
  · simp only [seek, lookFor, checked]
    exact moved
  · have kinds : ∀ index : Fin contents.pairs.length,
        decide (db.keyType.compare (contents.pairs.get index).1 key.bytes = .eq) = true ↔ True ∧
          db.keyType.compare (contents.pairs.get index).1 key.bytes = .eq := fun _ => by simp
    have alike := (searched_keys stored contents).alike spells key kinds
    simp only [present_key] at alike
    rw [stopped]
    exact alike

/-- `gte` with a key goes to the least key that is not below. -/
theorem gte_key : ∃ next,
    gte contents stray v8 none raw none place = (.ok next.index?.isSome, next) ∧
      FindsLeast spelling (fun key => ∃ val, val ∈ store db.dbi key.bytes) key
        (next.index?.map fun index => (contents.pairs.get index).1) := by
  obtain ⟨next, moved, stopped⟩ := cursorOp_eq (.setRange key.bytes) nofun
    (fun empty => spells.ne_nil key (Option.some.inj empty)) nofun place
  refine ⟨next, ?_, ?_⟩
  · simp only [gte, lookFor, checked]
    exact moved
  · have kinds : ∀ index : Fin contents.pairs.length,
        (db.keyType.compare (contents.pairs.get index).1 key.bytes).isGE = true ↔ True ∧
          (db.keyType.compare (contents.pairs.get index).1 key.bytes).isGE = true :=
      fun _ => (iff_of_eq (true_and _)).symm
    have least := (searched_keys stored contents).least spells key kinds
    simp only [present_key] at least
    rw [stopped]
    exact least

end Keys

/-- A key compares equal to the stored ones that it is the same as. -/
theorem key_eq_iff (key : Datum v8 db.keyType) (index : Fin contents.pairs.length) :
    db.keyType.compare (contents.pairs.get index).1 key.bytes = .eq ↔
      (contents.pairs.get index).1 = key.bytes := by
  constructor
  · intro equal
    obtain ⟨datum, made⟩ := (searched_keys stored contents).made _ (contents.pairs.get_mem index)
      trivial
    rw [made] at equal ⊢
    exact DataType.eq_of_compare datum.sized key.sized equal
  · intro same
    rw [same, DataType.compare_self]

private theorem val_eq_iff (val : Datum v8 db.valType) (index : Fin contents.pairs.length) :
    db.valType.compare (contents.pairs.get index).2 val.bytes = .eq ↔
      (contents.pairs.get index).2 = val.bytes := by
  constructor
  · intro equal
    obtain ⟨datum, made⟩ := (searched_dups stored contents _).made _ (contents.pairs.get_mem index)
      rfl
    rw [made] at equal ⊢
    exact DataType.eq_of_compare datum.sized val.sized equal
  · intro same
    rw [same, DataType.compare_self]

section Dups

variable {spelling : Datum v8 db.valType → String} (spells : Spells v8 db.valType spelling)
  (dups : db.allowDup = true) {rawKey rawVal : Value} {key : Datum v8 db.keyType}
  {val : Datum v8 db.valType} (keyed : db.keyType.check v8 rawKey = .ok key) (some : key.bytes ≠ [])
  (valued : db.valType.check v8 rawVal = .ok val) (place : Place contents.pairs.length)

include spells dups some

/-- Looking for a pair finds the duplicate of the key that is spelled alike. -/
theorem getBoth_alike (stray : Stray contents.pairs.length) (val : Datum v8 db.valType)
    (place : Place contents.pairs.length) : ∃ next,
    cursorOp contents stray none (.getBoth key.bytes val.bytes) place =
        (.ok next.index?.isSome, next) ∧
      (∀ index, next.index? = Option.some index → (contents.pairs.get index).1 = key.bytes) ∧
      FindsAlike spelling (fun val => val.bytes ∈ store db.dbi key.bytes) val
        (next.index?.map fun index => (contents.pairs.get index).2) := by
  obtain ⟨next, moved, stopped⟩ := cursorOp_eq (.getBoth key.bytes val.bytes) (fun _ => dups)
    (fun empty => some (Option.some.inj empty))
    (fun empty => spells.ne_nil val (Option.some.inj empty)) place
  have kinds : ∀ index : Fin contents.pairs.length,
      (decide (db.keyType.compare (contents.pairs.get index).1 key.bytes = .eq) &&
        decide (db.valType.compare (contents.pairs.get index).2 val.bytes = .eq)) = true ↔
      (contents.pairs.get index).1 = key.bytes ∧
        db.valType.compare (contents.pairs.get index).2 val.bytes = .eq := by
    intro index
    rw [Bool.and_eq_true, decide_eq_true_eq, decide_eq_true_eq, key_eq_iff stored]
  refine ⟨next, moved, ?_, ?_⟩
  · intro index found
    rw [stopped] at found
    exact ((kinds index).mp (Position.seek_spec found).1).1
  · have alike := (searched_dups stored contents key.bytes).alike spells val kinds
    simp only [present_dup] at alike
    rw [stopped]
    exact alike

include keyed valued

/-- `seek` with a pair goes to the duplicate of the key that is spelled alike. -/
theorem seek_pair : ∃ next,
    seek contents stray v8 none rawKey (Option.some rawVal) place =
        (.ok next.index?.isSome, next) ∧
      (∀ index, next.index? = Option.some index → (contents.pairs.get index).1 = key.bytes) ∧
      FindsAlike spelling (fun val => val.bytes ∈ store db.dbi key.bytes) val
        (next.index?.map fun index => (contents.pairs.get index).2) := by
  simp only [seek, lookFor, keyed, valued]
  exact getBoth_alike stored spells dups some stray val place

/-- `gte` with a pair goes to the least duplicate of the key that is not below. -/
theorem gte_pair : ∃ next,
    gte contents stray v8 none rawKey (Option.some rawVal) place =
        (.ok next.index?.isSome, next) ∧
      (∀ index, next.index? = Option.some index → (contents.pairs.get index).1 = key.bytes) ∧
      FindsLeast spelling (fun val => val.bytes ∈ store db.dbi key.bytes) val
        (next.index?.map fun index => (contents.pairs.get index).2) := by
  obtain ⟨next, moved, stopped⟩ := cursorOp_eq (.getBothRange key.bytes val.bytes) (fun _ => dups)
    (fun empty => some (Option.some.inj empty))
    (fun empty => spells.ne_nil val (Option.some.inj empty)) place
  have kinds : ∀ index : Fin contents.pairs.length,
      (decide (db.keyType.compare (contents.pairs.get index).1 key.bytes = .eq) &&
        (db.valType.compare (contents.pairs.get index).2 val.bytes).isGE) = true ↔
      (contents.pairs.get index).1 = key.bytes ∧
        (db.valType.compare (contents.pairs.get index).2 val.bytes).isGE = true := by
    intro index
    rw [Bool.and_eq_true, decide_eq_true_eq, key_eq_iff stored]
  refine ⟨next, ?_, ?_, ?_⟩
  · simp only [gte, lookFor, keyed, valued]
    exact moved
  · intro index found
    rw [stopped] at found
    exact ((kinds index).mp (Position.seek_spec found).1).1
  · have least := (searched_dups stored contents key.bytes).least spells val kinds
    simp only [present_dup] at least
    rw [stopped]
    exact least

end Dups

section Pairs

variable (dups : db.allowDup = true) {rawKey rawVal : Value} {key : Datum v8 db.keyType}
  {val : Datum v8 db.valType} (keyed : db.keyType.check v8 rawKey = .ok key) (some : key.bytes ≠ [])
  (valued : db.valType.check v8 rawVal = .ok val) (whole : val.bytes ≠ [])

include dups keyed some valued whole

/-- `exists` finds the pair of the bytes. -/
theorem dbExists_iff : ∃ found, dbExists contents stray v8 none rawKey rawVal = .ok found ∧
    (found = true ↔ val.bytes ∈ store db.dbi key.bytes) := by
  obtain ⟨next, moved, stopped⟩ := @cursorOp_eq db store contents stray
    (.getBoth key.bytes val.bytes) (fun _ => dups) (fun empty => some (Option.some.inj empty))
    (fun empty => whole (Option.some.inj empty)) .fresh
  refine ⟨next.index?.isSome, ?_, ?_⟩
  · simp only [dbExists, keyed, valued, moved]
  · rw [stopped, ← present_dup contents]
    simp only [destination, Position.seek_isSome_iff, Bool.and_eq_true, decide_eq_true_eq]
    constructor
    · rintro ⟨index, same, same'⟩
      exact ⟨_, contents.pairs.get_mem index, (key_eq_iff stored key index).mp same,
        (val_eq_iff stored val index).mp same'⟩
    · rintro ⟨pair, member, same, same'⟩
      obtain ⟨index, rfl⟩ := List.get_of_mem member
      exact ⟨index, (key_eq_iff stored key index).mpr same, (val_eq_iff stored val index).mpr same'⟩

/-- `exists` finds a duplicate of the key that is spelled alike. -/
theorem dbExists_alike_val {spelling : Datum v8 db.valType → String}
    (spells : Spells v8 db.valType spelling) :
    ∃ found, dbExists contents stray v8 none rawKey rawVal = .ok found ∧
      (found = true ↔ ∃ other : Datum v8 db.valType, other.bytes ∈ store db.dbi key.bytes ∧
        spelling other = spelling val) := by
  obtain ⟨found, asked, found_iff⟩ := dbExists_iff stored dups keyed some valued whole
  refine ⟨found, asked, found_iff.trans ⟨fun member => ⟨val, member, rfl⟩, ?_⟩⟩
  rintro ⟨other, member, alike⟩
  rwa [← (spells.bytes_eq_iff other val).mpr alike]

/-- `exists` finds the value under a key that is spelled alike. -/
theorem dbExists_alike_key {spelling : Datum v8 db.keyType → String}
    (spells : Spells v8 db.keyType spelling) :
    ∃ found, dbExists contents stray v8 none rawKey rawVal = .ok found ∧
      (found = true ↔ ∃ other : Datum v8 db.keyType, val.bytes ∈ store db.dbi other.bytes ∧
        spelling other = spelling key) := by
  obtain ⟨found, asked, found_iff⟩ := dbExists_iff stored dups keyed some valued whole
  refine ⟨found, asked, found_iff.trans ⟨fun member => ⟨key, member, rfl⟩, ?_⟩⟩
  rintro ⟨other, member, alike⟩
  rwa [← (spells.bytes_eq_iff other key).mpr alike]

end Pairs

end Search

end Cursor

end NodeKv.Lmdb
