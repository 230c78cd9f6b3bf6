import NodeKv.Proofs.Compare
import NodeKv.Proofs.Lmdb.Scope

/-! # Deleting a key, and deleting one of its values

`Db.del` and `Db.delDup` are the same native call. The value that `del` is not given goes through
the sanitizer of the value type all the same, which throws for every type but strings; for strings
it is the text `undefined`, which a database without duplicates ignores and one with duplicates
takes for the one value to delete. LMDB refuses an empty key, and an empty value where the values of
the key are in a page of their own.
-/

namespace NodeKv.Lmdb

open Machine

/-- What the script engine makes of an argument that is not there. -/
structure StandardUndefined (v8 : V8) : Prop where
  text : v8.toText .undefined = "undefined"
  number : v8.parseInt .undefined = .nan

/-- Only the sanitizer of strings lets a missing value through. -/
theorem check_undefined {v8 : V8} (standard : StandardUndefined v8) {type : DataType}
    {val : Datum v8 type} (accepted : type.check v8 .undefined = .ok val) : type = .string := by
  have sanitized := DataType.sanitize_of_check accepted
  cases type with
  | string => rfl
  | binary => cases sanitized
  | hex =>
    have refused : DataType.isHex "undefined".toList = false := by decide
    rw [DataType.sanitize, standard.text, refused] at sanitized
    cases sanitized
  | int32 => simp [DataType.sanitize, standard.number] at sanitized
  | uint32 => simp [DataType.sanitize, standard.number] at sanitized
  | int64 =>
    have refused : DataType.isDecimal "undefined".toList = false := by decide
    rw [DataType.sanitize, standard.text, refused] at sanitized
    cases sanitized

/-- The bytes that stand for a missing value in a database of strings. -/
def missingValue : Bytes := "undefined".toUTF8.toList ++ [0]

private theorem bytes_undefined {v8 : V8} (standard : StandardUndefined v8) {type : DataType}
    {val : Datum v8 type} (accepted : type.check v8 .undefined = .ok val) :
    val.bytes = missingValue := by
  obtain rfl := check_undefined standard accepted
  have sanitized : Except.ok .undefined = Except.ok val.value := DataType.sanitize_of_check accepted
  have encoded := val.encode_value
  rw [← Except.ok.inj sanitized, DataType.encode, standard.text] at encoded
  exact (Option.some.inj encoded).symm

/-- The values that a delete leaves under its key. -/
def remaining (db : Db) (val : Bytes) (vals : List Bytes) : List Bytes :=
  if db.allowDup then vals.filter (db.valType.compare val · ≠ .eq) else []

theorem Store.del_eq (store : Store) (db : Db) (key val : Bytes) :
    store.del db key (some val) =
      if (remaining db val (store db.dbi key)).length < (store db.dbi key).length then
        some (store.set db key (remaining db val (store db.dbi key)))
      else none := rfl

@[simp] theorem Store.set_self (store : Store) (db : Db) (key : Bytes) (vals : List Bytes) :
    store.set db key vals db.dbi key = vals := by
  simp [Store.set]

theorem Store.set_same (store : Store) (db : Db) (key : Bytes) :
    store.set db key (store db.dbi key) = store := by
  simp [Store.set]

/-- A delete that finds nothing leaves what there was. -/
theorem remaining_eq {db : Db} {val : Bytes} {vals : List Bytes}
    (missing : ¬(remaining db val vals).length < vals.length) : remaining db val vals = vals := by
  unfold remaining at missing ⊢
  split_ifs at missing ⊢ with dup
  · rw [List.length_filter_lt_length_iff_exists] at missing
    push Not at missing
    exact List.filter_eq_self.mpr missing
  · have none : vals.length = 0 := by simpa using missing
    exact (List.eq_nil_of_length_eq_zero none).symm

/-- LMDB accepts every call but a delete whose sizes it refuses. -/
def sizeCheck (refused : Bool) (native : Native) : Returns := fun call =>
  if refused = true ∧ call = native.calls + 1 then some .badValsize else none

section Del

variable {v8 : V8} {db : Db} {native : Native} {rawKey rawVal : Value}
  {key : Datum v8 db.keyType} {val : Datum v8 db.valType}

private theorem dbDel_eq (returns : Returns) (keyed : db.keyType.check v8 rawKey = .ok key)
    (valued : db.valType.check v8 rawVal = .ok val) (native : Native) :
    dbDel returns v8 db rawKey none rawVal native =
      match writeScope returns .undefined (.del db key.bytes (some val.bytes)) native with
      | none => (.never, native)
      | some (rc, next) => ((Write.del rawKey rawVal).reply rc, next) := by
  have given : (Write.del rawKey rawVal).asked? v8 db =
      some (.del db key.bytes (some val.bytes)) := by
    simp only [Write.asked?, keyed, valued]
  rcases (Write.del rawKey rawVal).perform_cases returns v8 db native with
    ⟨rejected, -⟩ | ⟨entry, asked, performed⟩
  · cases given.symm.trans rejected
  · obtain rfl := Option.some.inj (given.symm.trans asked)
    exact performed

private theorem del_refused (keyed : db.keyType.check v8 rawKey = .ok key)
    (valued : db.valType.check v8 rawVal = .ok val) (unlocked : native.locked = false) :
    (dbDel (sizeCheck true native) v8 db rawKey none rawVal native).1 =
      .throws (.mdb .badValsize) := by
  have began : sizeCheck true native native.calls = none := by simp [sizeCheck]
  have wrote : sizeCheck true native (native.calls + 1) = some .badValsize := by simp [sizeCheck]
  rw [dbDel_eq _ keyed valued]
  rcases writeScope_cases unlocked (.del db key.bytes (some val.bytes)) with
    ⟨rc, next, ran, -, -, early, -⟩ | ⟨store, next, -, -, none, -⟩
  · rw [ran]
    rcases early began with failed | ⟨none, -⟩
    · obtain rfl := Option.some.inj (wrote.symm.trans failed)
      rfl
    · exact nomatch wrote.symm.trans none
  · exact nomatch wrote.symm.trans none

private theorem del_accepted (keyed : db.keyType.check v8 rawKey = .ok key)
    (valued : db.valType.check v8 rawVal = .ok val) (unlocked : native.locked = false) :
    (dbDel (sizeCheck false native) v8 db rawKey none rawVal native).1 =
        .ok (decide ((remaining db val.bytes (native.committed db.dbi key.bytes)).length <
          (native.committed db.dbi key.bytes).length)) ∧
      (dbDel (sizeCheck false native) v8 db rawKey none rawVal native).2.committed =
        native.committed.set db key.bytes
          (remaining db val.bytes (native.committed db.dbi key.bytes)) := by
  have silent : ∀ call, sizeCheck false native call = none := by simp [sizeCheck]
  rw [dbDel_eq _ keyed valued]
  rcases writeScope_cases unlocked (.del db key.bytes (some val.bytes)) with
    ⟨rc, next, ran, committed, -, early, -⟩ | ⟨store, next, ran, -, -, written, ended⟩
  · rw [ran]
    rcases early (silent _) with failed | ⟨-, missing, rfl⟩
    · exact nomatch (silent _).symm.trans failed
    · rw [Entry.write, Store.del_eq] at missing
      have none : ¬(remaining db val.bytes (native.committed db.dbi key.bytes)).length <
          (native.committed db.dbi key.bytes).length :=
        fun found => nomatch (if_pos found).symm.trans missing
      refine ⟨?_, ?_⟩
      · rw [decide_eq_false none]
        rfl
      · rw [remaining_eq none, Store.set_same]
        exact committed
  · rw [ran]
    rw [Entry.write, Store.del_eq] at written
    rw [if_pos (silent _)] at ended
    split_ifs at written with found
    refine ⟨?_, ?_⟩
    · rw [decide_eq_true found]
      rfl
    · rw [← Option.some.inj written] at ended
      exact (Prod.mk.inj ended).1

end Del

/-- A delete has left these values under the key, has changed nothing else, and has reported
whether it found something. -/
def Removes (db : Db) (key : Bytes) (kept : List Bytes) (found : Prop) [Decidable found]
    (prior : Native) (ran : Result Bool × Native) : Prop :=
  ran.1 = .ok (decide found) ∧ ran.2.committed = prior.committed.set db key kept

section Removes

variable {db : Db} {val : Bytes} {vals : List Bytes}

private theorem remaining_eq_nil_iff : remaining db val vals = [] ↔
    (db.allowDup = true → ∀ found ∈ vals, db.valType.compare val found = .eq) := by
  unfold remaining
  split_ifs with dup
  · simp [dup, List.filter_eq_nil_iff]
  · simp [dup]

/-- Among values of their width, the one that compares equal is the value itself. -/
theorem remaining_of_sized (dup : db.allowDup = true) (sized : db.valType.Sized val)
    (stored : ∀ found ∈ vals, db.valType.Sized found) :
    remaining db val vals = vals.filter (· ≠ val) := by
  rw [remaining, if_pos dup]
  refine List.filter_congr ?_
  intro found member
  refine decide_eq_decide.mpr (not_congr ⟨?_, ?_⟩)
  · intro same
    exact (DataType.eq_of_compare sized (stored found member) same).symm
  · rintro rfl
    exact DataType.compare_self _ _

end Removes

section Calls

variable {v8 : V8} {db : Db} {native : Native} {rawKey rawVal : Value}
  {key : Datum v8 db.keyType} {val : Datum v8 db.valType}

private theorem removes_iff (keyed : db.keyType.check v8 rawKey = .ok key)
    (valued : db.valType.check v8 rawVal = .ok val) (unlocked : native.locked = false)
    (refused : Bool) {kept : List Bytes} {found : Prop} [Decidable found]
    (finds : remaining db val.bytes (native.committed db.dbi key.bytes) = kept →
      ((remaining db val.bytes (native.committed db.dbi key.bytes)).length <
        (native.committed db.dbi key.bytes).length ↔ found)) :
    Removes db key.bytes kept found native
        (dbDel (sizeCheck refused native) v8 db rawKey none rawVal native) ↔
      refused = false ∧ remaining db val.bytes (native.committed db.dbi key.bytes) = kept := by
  cases refused with
  | true =>
    constructor
    · rintro ⟨reply, -⟩
      exact nomatch (del_refused keyed valued unlocked).symm.trans reply
    · exact fun ⟨accepted, _⟩ => nomatch accepted
  | false =>
    obtain ⟨reply, committed⟩ := del_accepted keyed valued unlocked
    rw [Removes, reply, committed]
    constructor
    · rintro ⟨-, same⟩
      have here := congrFun (congrFun same db.dbi) key.bytes
      rw [Store.set_self, Store.set_self] at here
      exact ⟨rfl, here⟩
    · rintro ⟨-, same⟩
      exact ⟨congrArg Result.ok (decide_eq_decide.mpr (finds same)), by rw [same]⟩

/-- `del` without a value. -/
theorem del_undefined_removes_iff (standard : StandardUndefined v8)
    (keyed : db.keyType.check v8 rawKey = .ok key) (unlocked : native.locked = false) :
    Removes db key.bytes [] (native.committed db.dbi key.bytes ≠ []) native
        (dbDel (sizeCheck key.bytes.isEmpty native) v8 db rawKey none .undefined native) ↔
      key.bytes ≠ [] ∧ db.valType = .string ∧ (db.allowDup = true →
        ∀ found ∈ native.committed db.dbi key.bytes,
          db.valType.compare missingValue found = .eq) := by
  rcases db.valType.check_cases v8 .undefined with ⟨error, rejected, -⟩ | ⟨val, -, valued⟩
  · constructor
    · rintro ⟨reply, -⟩
      rw [dbDel, DataType.sanitize_of_check keyed, rejected] at reply
      cases reply
    · rintro ⟨-, text, -⟩
      rw [text] at rejected
      cases rejected
  · rw [removes_iff keyed valued unlocked, remaining_eq_nil_iff, bytes_undefined standard valued,
      List.isEmpty_eq_false_iff]
    · constructor
      · rintro ⟨some, only⟩
        exact ⟨some, check_undefined standard valued, only⟩
      · rintro ⟨some, -, only⟩
        exact ⟨some, only⟩
    · intro nothing
      rw [nothing, List.length_nil, List.length_pos_iff]

/-- `delDup`, among values of the type. -/
theorem delDup_removes_iff (keyed : db.keyType.check v8 rawKey = .ok key)
    (valued : db.valType.check v8 rawVal = .ok val) (unlocked : native.locked = false)
    (dup : db.allowDup = true)
    (stored : ∀ found ∈ native.committed db.dbi key.bytes, db.valType.Sized found)
    (refused : Bool) :
    Removes db key.bytes ((native.committed db.dbi key.bytes).filter (· ≠ val.bytes))
        (val.bytes ∈ native.committed db.dbi key.bytes) native
        (dbDelDup (sizeCheck refused native) v8 db rawKey rawVal none native) ↔ refused = false := by
  have kept := remaining_of_sized dup val.sized stored
  rw [dbDelDup, removes_iff keyed valued unlocked]
  · exact and_iff_left kept
  · intro _
    rw [kept, List.length_filter_lt_length_iff_exists]
    simp

end Calls

/-- The values of the key are in a page of their own: so if there are several, and it may be so if there
were. LMDB looks for no empty value in such a page. -/
def Paged (vals : List Bytes) (paged : Bool) : Prop :=
  (1 < vals.length → paged = true) ∧ (vals = [] → paged = false)

/-- `del` without a value is right exactly for a key that has bytes, in a database of strings, and
if the database has duplicates only for a key under which there is nothing but the text
`undefined`. `delDup` of a value that has bytes is right exactly for a key that has bytes; an empty
value must not be looked for in a page either. -/
theorem del_removes_iff {v8 : V8} (standard : StandardUndefined v8) {db : Db} {rawKey : Value}
    {key : Datum v8 db.keyType} (keyed : db.keyType.check v8 rawKey = .ok key) (native : Native)
    (unlocked : native.locked = false) :
    let vals := native.committed db.dbi key.bytes
    (Removes db key.bytes [] (vals ≠ []) native
        (dbDel (sizeCheck key.bytes.isEmpty native) v8 db rawKey none .undefined native) ↔
      key.bytes ≠ [] ∧ db.valType = .string ∧
        (db.allowDup = true → ∀ found ∈ vals, db.valType.compare missingValue found = .eq)) ∧
      ∀ rawVal, ∀ val : Datum v8 db.valType, db.valType.check v8 rawVal = .ok val →
        db.allowDup = true → (∀ found ∈ vals, db.valType.Sized found) →
        (val.bytes ≠ [] →
          (Removes db key.bytes (vals.filter (· ≠ val.bytes)) (val.bytes ∈ vals) native
            (dbDelDup (sizeCheck key.bytes.isEmpty native) v8 db rawKey rawVal none native) ↔
            key.bytes ≠ [])) ∧
        (val.bytes = [] → ∀ paged, Paged vals paged →
          (Removes db key.bytes (vals.filter (· ≠ val.bytes)) (val.bytes ∈ vals) native
            (dbDelDup (sizeCheck (key.bytes.isEmpty || paged) native) v8 db rawKey rawVal none native) ↔
            key.bytes ≠ [] ∧ paged = false)) := by
  refine ⟨del_undefined_removes_iff standard keyed unlocked, ?_⟩
  intro rawVal val valued dup stored
  constructor
  · intro _
    rw [delDup_removes_iff keyed valued unlocked dup stored, List.isEmpty_eq_false_iff]
  · intro _ paged _
    rw [delDup_removes_iff keyed valued unlocked dup stored, Bool.or_eq_false_iff,
      List.isEmpty_eq_false_iff]

/-- A database of texts without duplicates. -/
def texts : Db := ⟨0, .int32, .string, false⟩

/-- A database of numbers with duplicates. -/
def manyNumbers : Db := ⟨0, .int32, .int32, true⟩

/-- One key with one text, and one with two numbers. -/
theorem del_removes_text :
    Removes texts [1, 0, 0, 0] [] ([[120, 0]] ≠ ([] : List Bytes)) (.opened fun _ _ => [[120, 0]])
      (dbDel (sizeCheck false (.opened fun _ _ => [[120, 0]])) V8.basic texts (.number (.finite 1))
        none .undefined (.opened fun _ _ => [[120, 0]])) ∧
    Removes manyNumbers [1, 0, 0, 0] [[8, 0, 0, 0]] ([7, 0, 0, 0] ∈ [[7, 0, 0, 0], [8, 0, 0, 0]])
      (.opened fun _ _ => [[7, 0, 0, 0], [8, 0, 0, 0]])
      (dbDelDup (sizeCheck false (.opened fun _ _ => [[7, 0, 0, 0], [8, 0, 0, 0]])) V8.basic manyNumbers
        (.number (.finite 1)) (.number (.finite 7)) none
        (.opened fun _ _ => [[7, 0, 0, 0], [8, 0, 0, 0]])) := by
  have one : DataType.int32.check V8.basic (.number (.finite 1)) =
      .ok ⟨.number (.finite 1), .number (.finite 1), rfl⟩ := rfl
  have seven : DataType.int32.check V8.basic (.number (.finite 7)) =
      .ok ⟨.number (.finite 7), .number (.finite 7), rfl⟩ := rfl
  have standard : StandardUndefined V8.basic := ⟨rfl, rfl⟩
  have keyed : texts.keyType.check V8.basic (.number (.finite 1)) = .ok _ := one
  have keyed' : manyNumbers.keyType.check V8.basic (.number (.finite 1)) = .ok _ := one
  have removed := (del_removes_iff standard keyed (.opened fun _ _ => [[120, 0]]) rfl).1
  have wide : ∀ found ∈ [[7, 0, 0, 0], ([8, 0, 0, 0] : Bytes)], manyNumbers.valType.Sized found := by
    intro found member width four
    obtain rfl : 4 = width := Option.some.inj four
    revert found
    decide
  have duplicates := (del_removes_iff standard keyed'
    (.opened fun _ _ => [[7, 0, 0, 0], [8, 0, 0, 0]]) rfl).2 _ _ seven rfl wide
  exact ⟨removed.mpr ⟨nofun, rfl, nofun⟩, (duplicates.1 nofun).mpr nofun⟩

/-- The call of the repository's own test: a database of numbers. -/
theorem del_of_number_throws :
    (dbDel silent V8.basic ⟨0, .int32, .int32, false⟩ (.number (.finite 1)) none .undefined
      (.opened fun _ _ => [[1, 0, 0, 0]])).1 = .throws (.invalidData "int32") := rfl

end NodeKv.Lmdb
