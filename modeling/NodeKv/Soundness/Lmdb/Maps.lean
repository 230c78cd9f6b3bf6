import NodeKv.Machine.Updates
import NodeKv.Model.Cache.Get
import NodeKv.Soundness.Codec.Shown
import NodeKv.Soundness.Lmdb.Listing

/-! # Databases as maps of script values

What a database without duplicates is for: a map from script values to script values, with
transactions. Keys are the same if they are read back alike, and a value is read back as its type
shows it. The sessions on the native environment refine the sessions on such maps, as long as LMDB has
no errors to report; so keys have 1 to 511 bytes.
-/

namespace NodeKv.Lmdb

open Machine

/-- What a database stands for. -/
abbrev ValueMap := Value → Option Value

section StandsFor

variable (runtime : Runtime) (db : Db)

/-- A state of the database, and the map that the script reads. -/
structure StandsFor (store : Store) (map : ValueMap) : Prop where
  lookup : ∀ key : Datum runtime.toV8 db.keyType, db.keyType.Clean key.bytes →
    map (key.shown runtime) = (store db.dbi key.bytes).head?.bind (db.valType.decoded runtime)
  contained : ∀ key val, val ∈ store db.dbi key → db.valType.SelfContained val
  takes : ∀ key val, val ∈ store db.dbi key → db.Takes key val

private theorem standsFor_empty : StandsFor runtime db (fun _ _ => []) fun _ => none where
  lookup _ _ := rfl
  contained _ _ member := absurd member List.not_mem_nil
  takes _ _ member := absurd member List.not_mem_nil

variable {runtime db} {other : Db} {store next : Store} {map : ValueMap}

namespace StandsFor

/-- Other databases do not count. -/
theorem of_eq (stands : StandsFor runtime db store map) (same : next db.dbi = store db.dbi) :
    StandsFor runtime db next map where
  lookup := by
    rw [same]
    exact stands.lookup
  contained := by
    rw [same]
    exact stands.contained
  takes := by
    rw [same]
    exact stands.takes

/-- A write of one key, on both sides. -/
theorem set (stands : StandsFor runtime db store map) {key : Datum runtime.toV8 db.keyType}
    (clean : db.keyType.Clean key.bytes) (vals : List Bytes)
    (contained : ∀ val ∈ vals, db.valType.SelfContained val)
    (takes : ∀ val ∈ vals, db.Takes key.bytes val) :
    StandsFor runtime db (store.set db key.bytes vals)
      (Function.update map (key.shown runtime) (vals.head?.bind (db.valType.decoded runtime))) where
  lookup := by
    intro found clean'
    simp only [Store.set, Function.update_self]
    by_cases same : found.bytes = key.bytes
    · have shown : found.shown runtime = key.shown runtime := by
        rw [Datum.shown, same, Datum.shown]
      rw [same, shown, Function.update_self, Function.update_self]
    · have different : found.shown runtime ≠ key.shown runtime := by
        intro shown
        exact same (Datum.bytes_eq_of_shown clean' clean shown)
      rw [Function.update_of_ne same, Function.update_of_ne different]
      exact stands.lookup found clean'
  contained := by
    intro found val member
    rcases Store.mem_set member with ⟨-, among⟩ | old
    · exact contained val among
    · exact stands.contained found val old
  takes := by
    intro found val member
    rcases Store.mem_set member with ⟨rfl, among⟩ | old
    · exact takes val among
    · exact stands.takes found val old

variable (plain : db.allowDup = false) (stands : StandsFor runtime db store map)

include plain stands

theorem put {key : Datum runtime.toV8 db.keyType} (clean : db.keyType.Clean key.bytes)
    {val : Datum runtime.toV8 db.valType} (takes : db.Takes key.bytes val.bytes) :
    StandsFor runtime db (store.put db key.bytes val.bytes)
      ((Update.put (key.shown runtime) (val.shown runtime)).apply map) := by
  have contained : ∀ other ∈ [val.bytes], db.valType.SelfContained other := by
    intro other member
    rw [List.mem_singleton.mp member]
    exact val.selfContained
  have wrote := stands.set clean [val.bytes] contained (by simpa using takes)
  rw [List.head?_cons, Option.bind_some, val.decoded_bytes] at wrote
  rw [Store.put, if_neg (by simp [plain])]
  exact wrote

theorem del {key : Datum runtime.toV8 db.keyType} (clean : db.keyType.Clean key.bytes)
    (val : Bytes) :
    StandsFor runtime db ((Entry.del db key.bytes (some val)).apply store)
      ((Update.del (key.shown runtime) : Update Value Value).apply map) := by
  have wrote := stands.set clean [] (fun _ member => absurd member List.not_mem_nil)
    fun _ member => absurd member List.not_mem_nil
  simp only [Entry.apply, Entry.write, Store.del, plain, Bool.false_eq_true, if_false, List.length_nil]
  split_ifs with present
  · exact wrote
  · -- The key was missing, so the map does not have it either.
    have empty : store db.dbi key.bytes = [] := List.length_eq_zero_iff.mp (by omega)
    have missing : map (key.shown runtime) = none := by
      rw [stands.lookup key clean, empty]
      rfl
    have same : (Update.del (key.shown runtime) : Update Value Value).apply map = map := by
      rw [Update.apply, Update.written_del, Update.key_del, ← missing, Function.update_eq_self]
    rw [same]
    exact stands

end StandsFor

end StandsFor

namespace Session

section Maps

variable (runtime : Runtime) (db : Db)

/-- A write to a map that took place, in a transaction or on its own. -/
def mapWritten (txn : Option ℕ) (change : ValueMap → ValueMap) : Event ValueMap :=
  match txn with
  | none => .write change
  | some handle => .change handle change

/-- What a call does to the map of a database, seen from its caller. -/
def mapEvent : Session → (returned : Bool) → Event ValueMap
  | get _ _ _, _ => .nothing
  | put other key val txn, true =>
    match other.keyType.check runtime.toV8 key, other.valType.check runtime.toV8 val with
    | .ok key, .ok val => mapWritten txn fun map =>
      if other = db then (Update.put (key.shown runtime) (val.shown runtime)).apply map else map
    | _, _ => .nothing
  | del other key txn val, true =>
    match other.keyType.check runtime.toV8 key, other.valType.check runtime.toV8 val with
    | .ok key, .ok _ => mapWritten txn fun map =>
      if other = db then (Update.del (key.shown runtime) : Update Value Value).apply map else map
    | _, _ => .nothing
  | beginTxn readonly, true => .begin (!readonly)
  | commit handle, true => .commit handle
  | abort handle, true => .abort handle
  | reset handle, true => .suspend handle
  | renew handle, true => .renew handle
  | renew handle, false => .resume handle
  | _, false => .nothing

/-- A session beside the maps that its calls make. -/
def Mapped (state : Native × Versions ValueMap) (call : Session) (next : Native × Versions ValueMap) :
    Prop :=
  Step runtime.toV8 state.1 call next.1 ∧
    next.2 = state.2.record (call.mapEvent runtime db (call.run runtime.toV8 state.1).returned?.isSome)

/-- The key that a call writes. -/
def writes? : Session → Option Value
  | put _ key _ _ => some key
  | del _ key _ _ => some key
  | _ => none

/-- The call does not use the handle of another database, puts nothing of a size that LMDB does not
take, and writes no string with a NUL as a key. -/
structure Fit (call : Session) : Prop where
  agrees : call.Agrees db
  sized : call.Sized runtime.toV8
  clean : ∀ raw, call.writes? = some raw → ∀ key : Datum runtime.toV8 db.keyType,
    db.keyType.check runtime.toV8 raw = .ok key → db.keyType.Clean key.bytes

variable {runtime db}

private theorem written_rel {related : Store → ValueMap → Prop} {entry : Entry}
    {change : ValueMap → ValueMap}
    (kept : ∀ store map, related store map → related (entry.apply store) (change map))
    (txn : Option ℕ) : Event.Rel related (written txn entry) (mapWritten txn change) := by
  cases txn with
  | none => exact .write kept
  | some handle => exact .change handle kept

/-- What a call does to the state of the database, it does to the map. -/
theorem event_rel (plain : db.allowDup = false) {call : Session} (fit : call.Fit runtime db)
    (returned : Bool) : Event.Rel (StandsFor runtime db) (call.event runtime.toV8 returned)
      (call.mapEvent runtime db returned) := by
  cases returned with
  | false =>
    cases call with
    | renew handle => exact .resume handle
    | get other key txn => exact .nothing
    | put other key val txn => exact .nothing
    | del other key txn val => exact .nothing
    | beginTxn readonly => exact .nothing
    | commit handle => exact .nothing
    | abort handle => exact .nothing
    | reset handle => exact .nothing
  | true =>
    cases call with
    | put other raw rawVal txn =>
      simp only [event, mapEvent]
      cases keyed : other.keyType.check runtime.toV8 raw with
      | error error => exact .nothing
      | ok key =>
        cases valued : other.valType.check runtime.toV8 rawVal with
        | error error => exact .nothing
        | ok val =>
          apply written_rel
          intro store map stands
          split_ifs with same
          · subst same
            refine stands.put plain (fit.clean raw rfl key keyed) (fit.sized _ _ _ ?_)
            simp only [asked?, Write.asked?, keyed, valued]
          · exact stands.of_eq (Store.set_other fun handle => same (fit.agrees other rfl handle))
    | del other raw txn rawVal =>
      simp only [event, mapEvent]
      cases keyed : other.keyType.check runtime.toV8 raw with
      | error error => exact .nothing
      | ok key =>
        cases other.valType.check runtime.toV8 rawVal with
        | error error => exact .nothing
        | ok val =>
          apply written_rel
          intro store map stands
          split_ifs with same
          · subst same
            exact stands.del plain (fit.clean raw rfl key keyed) val.bytes
          · have apart : other.dbi ≠ db.dbi := fun handle => same (fit.agrees other rfl handle)
            simp only [Entry.apply, Entry.write]
            cases deleted : store.del other key.bytes (some val.bytes) with
            | none => exact stands
            | some next =>
              obtain ⟨kept, -, rfl⟩ := Store.del_sublist deleted
              exact stands.of_eq (Store.set_other apart)
    | get other key txn => exact .nothing
    | beginTxn readonly => exact .begin _
    | commit handle => exact .commit handle
    | abort handle => exact .abort handle
    | reset handle => exact .suspend handle
    | renew handle => exact .renew handle

/-- The native environment refines the maps. -/
theorem mapped_refines (plain : db.allowDup = false) {store : Store} {map : ValueMap}
    (initial : StandsFor runtime db store map) {calls : List Session}
    {state : Native × Versions ValueMap} (fit : ∀ call ∈ calls, call.Fit runtime db)
    (run : Runs (Mapped runtime db) (.opened store, .opened map) calls state) :
    ∃ versions, Runs (Tracked runtime.toV8) (.opened store, .opened store) calls (state.1, versions) ∧
      Versions.Rel (StandsFor runtime db) versions state.2 := by
  refine run.preserves (fun calls state => (∀ call ∈ calls, call.Fit runtime db) →
    ∃ versions, Runs (Tracked runtime.toV8) (.opened store, .opened store) calls (state.1, versions) ∧
      Versions.Rel (StandsFor runtime db) versions state.2) ?_ ?_ fit
  · intro _
    exact ⟨.opened store, .nil, ⟨initial, rfl, fun _ => .closed, rfl⟩⟩
  · rintro calls state call next ih ⟨stepped, recorded⟩ fit
    obtain ⟨versions, run, rel⟩ := ih fun other member => fit other (List.mem_append_left _ member)
    have own := fit call (List.mem_append_right _ (List.mem_singleton_self call))
    refine ⟨_, .snoc run ⟨stepped, rfl⟩, ?_⟩
    rw [recorded]
    exact rel.record (event_rel plain own _)

end Maps

end Session

/-- The end of `db::get`: the conversion of what was found. -/
def shownReply (runtime : Runtime) (around : Memory) (db : Db) : Result (Option Bytes) → Reply
  | .ok none => .null
  | .ok (some val) => .ofDecoded (db.valType.decode runtime (around.holding val) val.length)
  | .throws error => .throws error
  | .never => .never

/-- The answer of a map. -/
def ValueMap.answer (map : ValueMap) (key : Value) : Reply :=
  match map key with
  | none => .null
  | some val => .value val

theorem StandsFor.answer {runtime : Runtime} {db : Db} {store : Store} {map : ValueMap}
    (stands : StandsFor runtime db store map) (around : Memory) {key : Datum runtime.toV8 db.keyType}
    (clean : db.keyType.Clean key.bytes) :
    shownReply runtime around db (.ok (store db.dbi key.bytes).head?) =
      map.answer (key.shown runtime) := by
  rw [ValueMap.answer, stands.lookup key clean]
  cases found : (store db.dbi key.bytes).head? with
  | none => rfl
  | some val =>
    have contained := stands.contained key.bytes val (List.mem_of_head? found)
    obtain ⟨shown, read⟩ := Option.isSome_iff_exists.mp (DataType.decoded_isSome runtime contained)
    simp only [shownReply, DataType.decode_holding runtime contained, Option.bind_some, read]
    rfl

theorem lmdbGet_eq (runtime : Runtime) (around : Memory) (db : Db) (raw : Value) (native : Native) :
    (Cache.Read.lmdbGet silent runtime around db raw native).1 =
      shownReply runtime around db (dbGet silent runtime.toV8 db raw none native).1 := by
  unfold Cache.Read.lmdbGet
  split
  all_goals
    rename_i answered
    rw [answered]
    rfl

/-- A session on a database without duplicates is a session on a map from script values to script
values: a read in a transaction that is live is answered by the map of that transaction, and one
without by the committed map while no read-only transaction holds the reader slot. Keys are the same if
they are read back alike. A transaction that could not be renewed is not live. -/
theorem sessions_refine_maps {runtime : Runtime} {db : Db} (plain : db.allowDup = false)
    {store : Store}
    {map : ValueMap} (initial : StandsFor runtime db store map) {calls : List Session} {native : Native}
    {maps : Versions ValueMap} (fit : ∀ call ∈ calls, call.Fit runtime db)
    (run : Runs (Session.Mapped runtime db) (.opened store, .opened map) calls (native, maps))
    {raw : Value} {key : Datum runtime.toV8 db.keyType}
    (checked : db.keyType.check runtime.toV8 raw = .ok key) (clean : db.keyType.Clean key.bytes)
    (sized : key.bytes ≠ []) (around : Memory) :
    (∀ handle writes view, maps.views handle = .live writes view →
      shownReply runtime around db (dbGet silent runtime.toV8 db raw (some handle) native).1 =
        view.answer (key.shown runtime)) ∧
    ((∀ handle, native.holdsSlot handle = false) →
      (Cache.Read.lmdbGet silent runtime around db raw native).1 =
        maps.committed.answer (key.shown runtime)) := by
  obtain ⟨versions, tracked, rel⟩ := Session.mapped_refines plain initial fit run
  obtain ⟨disciplined, agree⟩ := tracked_versions tracked
  obtain rfl : native.versions = versions := agree
  constructor
  · intro handle writes view live
    obtain ⟨seen, live', stands⟩ := (rel.views handle).of_live live
    rw [dbGet_live live' checked sized]
    exact stands.answer around clean
  · intro alone
    have fresh := (get_implicit_fresh_iff disciplined db key sized).mpr (.inl alone)
    rw [lmdbGet_eq, dbGet, DataType.sanitize_of_check checked]
    simp only [txnArg, fresh]
    exact rel.committed.answer around clean

/-- The step of a call that names no transaction. -/
theorem Session.Mapped.unnamed {runtime : Runtime} {db : Db} {state : Native × Versions ValueMap}
    {call : Session} {next : Native} (unnamed : call.handle? = none)
    (ran : (call.run runtime.toV8 state.1).state? = some next) :
    Session.Mapped runtime db state call (next, state.2.record
      (call.mapEvent runtime db (call.run runtime.toV8 state.1).returned?.isSome)) := by
  refine ⟨⟨?_, ran⟩, rfl⟩
  intro handle named
  exact absurd (unnamed.symm.trans named) (Option.some_ne_none handle).symm

/-- An integer beyond 32 bits is the same key as the one it is read back as. -/
theorem sessions_refine_maps_wrapped :
    let db : Db := ⟨2, .int32, .int32, false⟩
    let number (value : ℚ) : Value := .number (.finite value)
    ∃ native maps,
      Runs (Session.Mapped Runtime.basic db) (.opened fun _ _ => [], .opened fun _ => none)
        [.put db (number 4294967297) (number 7) none] (native, maps) ∧
      (Cache.Read.lmdbGet silent Runtime.basic ⟨[], []⟩ db (number 1) native).1 = .value (number 7) := by
  intro db number
  have run : Runs (Session.Mapped Runtime.basic db) (.opened fun _ _ => [], .opened fun _ => none)
      [.put db (number 4294967297) (number 7) none] _ := .snoc .nil (.unnamed rfl rfl)
  have fit : ∀ call ∈ [Session.put db (number 4294967297) (number 7) none],
      call.Fit Runtime.basic db := by
    intro call member
    have only : ∀ call ∈ [Session.put db (number 4294967297) (number 7) none],
        ∀ other, call.db? = some other → other = db := by simp [Session.db?]
    obtain ⟨agrees, sized⟩ := Session.on_numbers ⟨rfl, rfl⟩ only call member
    exact ⟨agrees, sized, fun _ _ _ _ string => absurd string (by decide)⟩
  have checked : db.keyType.check Runtime.basic.toV8 (number 1) =
      .ok ⟨.number (.finite 1), .number (.finite 1), rfl⟩ := rfl
  obtain ⟨-, committed⟩ := sessions_refine_maps rfl (standsFor_empty Runtime.basic db) fit run checked
    (fun string => absurd string (by decide)) (by decide +kernel) ⟨[], []⟩
  exact ⟨_, _, run, (committed fun _ => rfl).trans (by decide +kernel)⟩

end NodeKv.Lmdb
