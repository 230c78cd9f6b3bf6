import NodeKv.Machine.Ordered
import NodeKv.Soundness.Lmdb.Order
import NodeKv.Soundness.Lmdb.Snapshots

/-! # Databases as ordered lists

A cursor goes along the pairs of its database in their order. Every state of a database that a
session can read has exactly one such list of pairs, and `get` returns the value that `seek` stops at.
The session keeps to the sizes that LMDB takes, and empty duplicates are left out: LMDB takes one only
as the only value of its key, and drops it when there is a second.
-/

namespace NodeKv.Lmdb

open Machine

variable {v8 : V8} {db other : Db} {store next : Store}

instance (db : Db) : Std.TransCmp db.comparePairs :=
  have := transCmp_on db.keyType.compare (Prod.fst : Bytes × Bytes → Bytes)
  have := transCmp_on db.valType.compare (Prod.snd : Bytes × Bytes → Bytes)
  inferInstanceAs (Std.TransCmp (compareLex _ _))

/-- The sizes that LMDB takes: a key has 1 to 511 bytes, and so has a duplicate. -/
def Db.Takes (db : Db) (key val : Bytes) : Prop :=
  (0 < key.length ∧ key.length ≤ 511) ∧ (db.allowDup = true → 0 < val.length ∧ val.length ≤ 511)

/-- What the call puts has a size that LMDB takes. -/
def Session.Sized (v8 : V8) (call : Session) : Prop :=
  ∀ db key val, call.asked? v8 = some (.put db key val) → db.Takes key val

private theorem length_of_width {type : DataType} (datum : Datum v8 type)
    (number : type.width?.isSome = true) : 0 < datum.bytes.length ∧ datum.bytes.length ≤ 511 := by
  cases type with
  | int32 => exact datum.sized 4 rfl ▸ by decide
  | uint32 => exact datum.sized 4 rfl ▸ by decide
  | int64 => exact datum.sized 8 rfl ▸ by decide
  | binary => cases number
  | string => cases number
  | hex => cases number

/-- Calls on one database of numbers, which LMDB takes. -/
theorem Session.on_numbers {calls : List Session}
    (numbers : db.keyType.width?.isSome = true ∧ db.valType.width?.isSome = true)
    (only : ∀ call ∈ calls, ∀ other, call.db? = some other → other = db) :
    ∀ call ∈ calls, call.Agrees db ∧ call.Sized v8 := by
  intro call member
  refine ⟨fun other own _ => only call member other own, ?_⟩
  intro target key val asked
  obtain ⟨other, own, datum, value, same | same⟩ := Session.asked?_cases asked
  · obtain rfl := only call member other own
    cases same
    exact ⟨length_of_width datum numbers.1, fun _ => length_of_width value numbers.2⟩
  · cases same

/-- A database of finitely many pairs, with values of its types and the duplicates of a key in
order. -/
structure Listed (v8 : V8) (db : Db) (store : Store) : Prop extends Stored v8 db store where
  finite : ∃ pairs : List (Bytes × Bytes), ∀ key val, (key, val) ∈ pairs ↔ val ∈ store db.dbi key
  sorted : ∀ key, Ascending db.valType.compare (store db.dbi key)
  takes : ∀ key val, val ∈ store db.dbi key → db.Takes key val

theorem listed_empty (v8 : V8) (db : Db) : Listed v8 db fun _ _ => [] where
  key _ _ member := absurd member List.not_mem_nil
  val _ _ member := absurd member List.not_mem_nil
  finite := ⟨[], fun _ _ => iff_of_false List.not_mem_nil List.not_mem_nil⟩
  sorted _ := List.Pairwise.nil
  takes _ _ member := absurd member List.not_mem_nil

namespace Contents

theorem ascending (contents : Contents db store) : Ascending db.comparePairs contents.pairs :=
  contents.ordered

theorem unique (contents contents' : Contents db store) : contents = contents' := by
  have same : contents.pairs = contents'.pairs := by
    apply contents.ascending.unique contents'.ascending
    rintro ⟨key, val⟩
    exact (contents.mem_pairs key val).trans (contents'.mem_pairs key val).symm
  cases contents
  cases contents'
  congr

/-- The pairs of a key are its duplicates. -/
theorem filter_key (contents : Contents db store)
    (sorted : ∀ key, Ascending db.valType.compare (store db.dbi key)) (key : Bytes) :
    contents.pairs.filter (fun pair => pair.1 = key) = (store db.dbi key).map (key, ·) := by
  have ascending : Ascending db.comparePairs (contents.pairs.filter fun pair => pair.1 = key) :=
    contents.ascending.filter _
  apply ascending.unique
  · apply List.pairwise_map.mpr
    apply (sorted key).imp
    intro left right below
    rw [Db.comparePairs, DataType.compare_self]
    exact below
  · rintro ⟨found, val⟩
    simp only [List.mem_filter, List.mem_map, decide_eq_true_eq, contents.mem_pairs]
    constructor
    · rintro ⟨member, rfl⟩
      exact ⟨val, member, rfl⟩
    · rintro ⟨_, member, ⟨⟩⟩
      exact ⟨member, rfl⟩

end Contents

namespace Listed

theorem exists_contents (listed : Listed v8 db store) : Nonempty (Contents db store) := by
  obtain ⟨pairs, mem_pairs⟩ := listed.finite
  have apart : TellsApart db.comparePairs pairs := by
    rintro ⟨key, val⟩ member ⟨key', val'⟩ member' same
    obtain ⟨sameKey, sameVal⟩ := Ordering.then_eq_eq.mp same
    obtain ⟨datum, rfl⟩ := listed.key _ _ ((mem_pairs key val).mp member)
    obtain ⟨datum', rfl⟩ := listed.key _ _ ((mem_pairs key' val').mp member')
    obtain ⟨value, rfl⟩ := listed.val _ _ ((mem_pairs _ val).mp member)
    obtain ⟨value', rfl⟩ := listed.val _ _ ((mem_pairs _ val').mp member')
    exact Prod.ext (DataType.eq_of_compare datum.sized datum'.sized sameKey)
      (DataType.eq_of_compare value.sized value'.sized sameVal)
  obtain ⟨sorted, ascending, mem_sorted⟩ := exists_ascending apart
  exact ⟨⟨sorted, fun key val => (mem_sorted (key, val)).trans (mem_pairs key val), ascending⟩⟩

/-- Only the pairs of the one database count. -/
theorem of_eq (listed : Listed v8 db store) (same : next db.dbi = store db.dbi) :
    Listed v8 db next where
  key := by
    rw [same]
    exact listed.key
  val := by
    rw [same]
    exact listed.val
  finite := by
    rw [same]
    exact listed.finite
  sorted := by
    rw [same]
    exact listed.sorted
  takes := by
    rw [same]
    exact listed.takes

/-- Other values for one key. -/
theorem set (listed : Listed v8 db store) {key : Bytes} {vals : List Bytes}
    (stored : Stored v8 db (store.set db key vals)) (ascending : Ascending db.valType.compare vals)
    (takes : ∀ val ∈ vals, db.Takes key val) : Listed v8 db (store.set db key vals) := by
  have at_key : store.set db key vals db.dbi key = vals := by
    simp only [Store.set, Function.update_self]
  have elsewhere {found : Bytes} (ne : found ≠ key) :
      store.set db key vals db.dbi found = store db.dbi found := by
    simp only [Store.set, Function.update_self, Function.update_of_ne ne]
  refine ⟨stored, ?_, ?_, ?_⟩
  · obtain ⟨pairs, mem_pairs⟩ := listed.finite
    refine ⟨vals.map (key, ·) ++ pairs.filter fun pair => pair.1 ≠ key, ?_⟩
    intro found val
    rw [List.mem_append, List.mem_filter, mem_pairs]
    rcases eq_or_ne found key with rfl | ne
    · rw [at_key]
      simp
    · rw [elsewhere ne]
      simp [ne, ne.symm]
  · intro found
    rcases eq_or_ne found key with rfl | ne
    · rwa [at_key]
    · rw [elsewhere ne]
      exact listed.sorted found
  · intro found
    rcases eq_or_ne found key with rfl | ne
    · rwa [at_key]
    · rw [elsewhere ne]
      exact listed.takes found

end Listed

private theorem insertDup_ascending {type : DataType} {vals : List Bytes}
    (ascending : Ascending type.compare vals) (val : Bytes) :
    Ascending type.compare (insertDup type val vals) := by
  induction vals with
  | nil => exact List.pairwise_singleton _ _
  | cons first rest ih =>
    obtain ⟨least, later⟩ := List.pairwise_cons.mp ascending
    unfold insertDup
    cases order : type.compare val first with
    | lt =>
      refine List.pairwise_cons.mpr ⟨?_, ascending⟩
      intro found member
      rcases List.mem_cons.mp member with rfl | among
      · exact order
      · exact Std.TransCmp.lt_trans order (least found among)
    | eq => exact ascending
    | gt =>
      dsimp only
      split_ifs
      · exact ih later
      refine List.pairwise_cons.mpr ⟨?_, ih later⟩
      intro found member
      rcases mem_insertDup member with rfl | among
      · exact Std.OrientedCmp.lt_of_gt order
      · exact least found among

/-- A deletion leaves the values of its key that it does not delete, and all others. -/
theorem Store.del_sublist {key : Bytes} {val : Option Bytes}
    (deleted : store.del db key val = some next) :
    ∃ kept, kept.Sublist (store db.dbi key) ∧ next = store.set db key kept := by
  obtain ⟨-, rest⟩ := Option.ite_none_right_eq_some.mp deleted
  refine ⟨_, ?_, (Option.some.inj rest).symm⟩
  split
  · split_ifs
    · exact List.filter_sublist
    · exact List.nil_sublist _
  · exact List.nil_sublist _

theorem Store.set_other {key : Bytes} {vals : List Bytes} (apart : other.dbi ≠ db.dbi) :
    store.set other key vals db.dbi = store db.dbi := by
  rw [Store.set, Function.update_of_ne (Ne.symm apart)]

namespace Listed

variable (listed : Listed v8 db store) (agrees : other.dbi = db.dbi → other = db)

include listed agrees

theorem put (key : Datum v8 other.keyType) (val : Datum v8 other.valType)
    (sized : other.Takes key.bytes val.bytes) :
    Listed v8 db (store.put other key.bytes val.bytes) := by
  have stored := listed.toStored.put agrees key val
  by_cases same : other.dbi = db.dbi
  · obtain rfl := agrees same
    apply listed.set stored
    · split_ifs
      · exact insertDup_ascending (listed.sorted _) _
      · exact List.pairwise_singleton _ _
    · intro found member
      split_ifs at member
      · rcases mem_insertDup member with rfl | among
        · exact sized
        · exact listed.takes _ found among
      · rwa [List.mem_singleton.mp member]
  · exact listed.of_eq (Store.set_other same)

theorem del {key : Bytes} {val : Option Bytes} (deleted : store.del other key val = some next) :
    Listed v8 db next := by
  have stored := listed.toStored.del agrees deleted
  obtain ⟨kept, among, rfl⟩ := Store.del_sublist deleted
  by_cases same : other.dbi = db.dbi
  · obtain rfl := agrees same
    exact listed.set stored ((listed.sorted key).sublist among)
      fun found member => listed.takes key found (among.subset member)
  · exact listed.of_eq (Store.set_other same)

end Listed

namespace Session

private theorem listed_apply {call : Session} (agrees : call.Agrees db) (sized : call.Sized v8)
    (entry : Entry) (asked : call.asked? v8 = some entry) (store : Store)
    (listed : Listed v8 db store) : Listed v8 db (entry.apply store) := by
  obtain ⟨other, own, key, val, rfl | rfl⟩ := asked?_cases asked
  · exact listed.put (agrees other own) key val (sized other _ _ asked)
  · rw [Entry.apply, Entry.write]
    cases deleted : store.del other key.bytes (some val.bytes) with
    | none => exact listed
    | some next => exact listed.del (agrees other own) deleted

theorem listed_of_run {calls : List Session} {state : Native × Versions Store}
    (initial : Listed v8 db store) (agrees : ∀ call ∈ calls, call.Agrees db ∧ call.Sized v8)
    (run : Runs (Tracked v8) (.opened store, .opened store) calls state) :
    state.2.All (Listed v8 db) := by
  refine run.preserves (fun calls state => (∀ call ∈ calls, call.Agrees db ∧ call.Sized v8) →
    state.2.All (Listed v8 db)) (fun _ => Versions.opened_all initial) ?_ agrees
  rintro calls state call next ih ⟨-, recorded⟩ agrees
  rw [recorded]
  apply (ih fun other member => agrees other (List.mem_append_left _ member)).record
  obtain ⟨own, sized⟩ := agrees call (List.mem_append_right _ (List.mem_singleton_self call))
  exact event_keeps (listed_apply own sized) _

end Session

/-- `seek` with a key stops at its first duplicate. -/
theorem seek_first {contents : Contents db store} (listed : Listed v8 db store)
    {stray : Cursor.Stray contents.pairs.length} (place : Cursor.Place contents.pairs.length)
    {raw : Value} {key : Datum v8 db.keyType} (checked : db.keyType.check v8 raw = .ok key)
    (some : key.bytes ≠ []) :
    ∃ next, Cursor.seek contents stray v8 none raw none place = (.ok next.index?.isSome, next) ∧
      next.index?.map (fun index => (contents.pairs.get index).2) = (store db.dbi key.bytes).head? := by
  obtain ⟨next, moved, stopped⟩ := @Cursor.cursorOp_eq db store contents stray (.set key.bytes)
    (fun needs => absurd needs Bool.false_ne_true) (fun empty => some (Option.some.inj empty))
    (by rintro ⟨⟩) place
  refine ⟨next, ?_, ?_⟩
  · simp only [Cursor.seek, Cursor.lookFor, checked]
    exact moved
  · have sought : next.index? =
        Position.seek fun index => decide ((contents.pairs.get index).1 = key.bytes) := by
      rw [stopped]
      simp only [Cursor.destination, Cursor.key_eq_iff listed.toStored]
    have found := Position.seek_get contents.pairs fun pair => decide (pair.1 = key.bytes)
    rw [← sought, ← List.head?_filter, contents.filter_key listed.sorted, List.head?_map] at found
    have values := congrArg (Option.map Prod.snd) found
    rw [Option.map_map, Option.map_map] at values
    simpa only [Function.comp_def, Option.map_id'] using values

theorem dbGet_live {native : Native} {handle : ℕ} {writes : Bool} {view : Store}
    (live : native.versions.views handle = .live writes view) {raw : Value}
    {key : Datum v8 db.keyType} (checked : db.keyType.check v8 raw = .ok key)
    (sized : key.bytes ≠ []) :
    (dbGet silent v8 db raw (some handle) native).1 = .ok (view db.dbi key.bytes).head? := by
  have reads : (native.versions.views handle).reads? = some view := by rw [live, View.reads?]
  rw [dbGet, DataType.sanitize_of_check checked, ← looked_of_ne sized]
  exact get_explicit reads db key

end NodeKv.Lmdb
