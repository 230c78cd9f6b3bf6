import NodeKv.Proofs.Lmdb.Views

/-! # What databases contain

Whatever a session writes to a database has gone through the constructors of its types. So if a
database has contained only such keys and values at first, every state of it that can be read does.
-/

namespace NodeKv.Lmdb

open Machine

variable {v8 : V8} {db : Db} {store : Store}

/-- All keys and values of a database are made by the constructors of its types. -/
structure Stored (v8 : V8) (db : Db) (store : Store) : Prop where
  key : ∀ key val, val ∈ store db.dbi key → ∃ datum : Datum v8 db.keyType, key = datum.bytes
  val : ∀ key val, val ∈ store db.dbi key → ∃ datum : Datum v8 db.valType, val = datum.bytes

theorem mem_insertDup {type : DataType} {val found : Bytes} {vals : List Bytes}
    (member : found ∈ insertDup type val vals) : found = val ∨ found ∈ vals := by
  induction vals with
  | nil => exact .inl (List.mem_singleton.mp member)
  | cons first rest ih =>
    unfold insertDup at member
    split at member
    · exact List.mem_cons.mp member
    · exact .inr member
    · split_ifs at member with empty
      · exact (ih member).imp_right (List.mem_cons_of_mem _)
      · rcases List.mem_cons.mp member with rfl | later
        · exact .inr (List.mem_cons_self ..)
        · exact (ih later).imp_right (List.mem_cons_of_mem _)

/-- A deletion leaves some of the values of its key, and all others. -/
theorem Store.del_cases {key : Bytes} {val : Option Bytes} {next : Store}
    (deleted : store.del db key val = some next) :
    ∃ kept, (∀ found ∈ kept, found ∈ store db.dbi key) ∧ next = store.set db key kept := by
  obtain ⟨-, rest⟩ := Option.ite_none_right_eq_some.mp deleted
  refine ⟨_, ?_, (Option.some.inj rest).symm⟩
  intro found member
  split at member
  · split_ifs at member
    · exact List.mem_of_mem_filter member
    · exact absurd member List.not_mem_nil
  · exact absurd member List.not_mem_nil

theorem Store.mem_set {key found other : Bytes} {vals : List Bytes}
    (member : found ∈ store.set db key vals db.dbi other) :
    other = key ∧ found ∈ vals ∨ found ∈ store db.dbi other := by
  simp only [Store.set, Function.update_self] at member
  by_cases same : other = key
  · subst same
    rw [Function.update_self] at member
    exact .inl ⟨rfl, member⟩
  · rw [Function.update_of_ne same] at member
    exact .inr member

namespace Stored

/-- Only the pairs of the one database count. -/
theorem of_pairs (stored : Stored v8 db store) {next : Store}
    (kept : ∀ key val, val ∈ next db.dbi key → val ∈ store db.dbi key ∨
      (∃ datum : Datum v8 db.keyType, key = datum.bytes) ∧
        ∃ datum : Datum v8 db.valType, val = datum.bytes) : Stored v8 db next where
  key := by
    intro key val member
    rcases kept key val member with old | ⟨made, -⟩
    · exact stored.key key val old
    · exact made
  val := by
    intro key val member
    rcases kept key val member with old | ⟨-, made⟩
    · exact stored.val key val old
    · exact made

variable {other : Db} (stored : Stored v8 db store) (agrees : other.dbi = db.dbi → other = db)

include stored agrees

theorem put (key : Datum v8 other.keyType) (val : Datum v8 other.valType) :
    Stored v8 db (store.put other key.bytes val.bytes) := by
  apply stored.of_pairs
  intro found value member
  by_cases same : other.dbi = db.dbi
  · obtain rfl := agrees same
    rcases Store.mem_set member with ⟨rfl, among⟩ | old
    · split_ifs at among
      · rcases mem_insertDup among with rfl | old
        · exact .inr ⟨⟨key, rfl⟩, ⟨val, rfl⟩⟩
        · exact .inl old
      · exact .inr ⟨⟨key, rfl⟩, ⟨val, List.mem_singleton.mp among⟩⟩
    · exact .inl old
  · rw [Store.put, Store.set, Function.update_of_ne (Ne.symm same)] at member
    exact .inl member

theorem del {key : Bytes} {val : Option Bytes} {next : Store}
    (deleted : store.del other key val = some next) : Stored v8 db next := by
  obtain ⟨kept, among, rfl⟩ := Store.del_cases deleted
  apply stored.of_pairs
  intro found value member
  by_cases same : other.dbi = db.dbi
  · obtain rfl := agrees same
    rcases Store.mem_set member with ⟨rfl, left⟩ | old
    · exact .inl (among value left)
    · exact .inl old
  · rw [Store.set, Function.update_of_ne (Ne.symm same)] at member
    exact .inl member

end Stored

namespace Session

/-- The database of a call. -/
def db? : Session → Option Db
  | get db _ _ => some db
  | put db _ _ _ => some db
  | del db _ _ _ => some db
  | _ => none

/-- The call does not use the handle of a database with other types. -/
def Agrees (db : Db) (call : Session) : Prop :=
  ∀ other, call.db? = some other → other.dbi = db.dbi → other = db

private theorem written_keeps {property : Store → Prop} {entry : Entry}
    (kept : ∀ store, property store → property (entry.apply store)) (txn : Option ℕ) :
    (written txn entry).Keeps property := by
  cases txn <;> exact kept

/-- What a call asks LMDB to write. -/
def asked? (v8 : V8) : Session → Option Entry
  | put db key val _ => (Write.put key val).asked? v8 db
  | del db key _ val => (Write.del key val).asked? v8 db
  | _ => none

/-- What LMDB writes has the types of the database. -/
theorem asked?_cases {call : Session} {entry : Entry} (asked : call.asked? v8 = some entry) :
    ∃ other, call.db? = some other ∧
      ∃ (key : Datum v8 other.keyType) (val : Datum v8 other.valType),
        entry = .put other key.bytes val.bytes ∨ entry = .del other key.bytes (some val.bytes) := by
  cases call with
  | put other rawKey rawVal txn =>
    simp only [asked?, Write.asked?] at asked
    split at asked
    · next key val _ _ => exact ⟨other, rfl, key, val, .inl (Option.some.inj asked).symm⟩
    · cases asked
  | del other rawKey txn rawVal =>
    simp only [asked?, Write.asked?] at asked
    split at asked
    · next key val _ _ => exact ⟨other, rfl, key, val, .inr (Option.some.inj asked).symm⟩
    · cases asked
  | get other key txn => cases asked
  | beginTxn readonly => cases asked
  | commit handle => cases asked
  | abort handle => cases asked
  | reset handle => cases asked
  | renew handle => cases asked

/-- A property of states that every write of a session keeps. -/
theorem event_keeps {property : Store → Prop} {call : Session}
    (kept : ∀ entry, call.asked? v8 = some entry →
      ∀ store, property store → property (entry.apply store)) (returned : Bool) :
    (call.event v8 returned).Keeps property := by
  cases returned with
  | false => cases call <;> exact trivial
  | true =>
    cases call with
    | put other key val txn =>
      simp only [event]
      split
      · next keyed valued =>
        exact written_keeps (kept _ (by simp only [asked?, Write.asked?, keyed, valued])) txn
      · exact trivial
    | del other key txn val =>
      simp only [event]
      split
      · next keyed valued =>
        exact written_keeps (kept _ (by simp only [asked?, Write.asked?, keyed, valued])) txn
      · exact trivial
    | get other key txn => exact trivial
    | beginTxn readonly => exact trivial
    | commit handle => exact trivial
    | abort handle => exact trivial
    | reset handle => exact trivial
    | renew handle => exact trivial

private theorem stored_apply {call : Session} (agrees : call.Agrees db) (entry : Entry)
    (asked : call.asked? v8 = some entry) (store : Store) (stored : Stored v8 db store) :
    Stored v8 db (entry.apply store) := by
  obtain ⟨other, own, key, val, rfl | rfl⟩ := asked?_cases asked
  · exact stored.put (agrees other own) key val
  · rw [Entry.apply, Entry.write]
    cases deleted : store.del other key.bytes (some val.bytes) with
    | none => exact stored
    | some next => exact stored.del (agrees other own) deleted

/-- Along every session on databases of agreeing types. -/
theorem stored_of_run {calls : List Session} {state : Native × Versions Store}
    (initial : Stored v8 db store) (agrees : ∀ call ∈ calls, call.Agrees db)
    (run : Runs (Tracked v8) (.opened store, .opened store) calls state) :
    state.2.All (Stored v8 db) := by
  refine run.preserves (fun calls state => (∀ call ∈ calls, call.Agrees db) →
    state.2.All (Stored v8 db)) (fun _ => Versions.opened_all initial) ?_ agrees
  rintro calls state call next ih ⟨-, recorded⟩ agrees
  rw [recorded]
  apply (ih fun other member => agrees other (List.mem_append_left _ member)).record
  exact event_keeps
    (stored_apply (agrees call (List.mem_append_right _ (List.mem_singleton_self call)))) _

end Session

end NodeKv.Lmdb
