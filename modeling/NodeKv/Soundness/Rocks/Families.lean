import Mathlib.Data.List.Nodup
import Mathlib.Data.List.TakeWhile
import NodeKv.Machine.Runs
import NodeKv.Machine.Utf8
import NodeKv.Model.Rocks.Families

/-! # Which column family a database is bound to

Registration keeps the descriptors of the databases in order behind the one of the default family,
so the index that a database keeps is that of its own descriptor, and `init` gives it the handle
resolved from there. That handle stands for the first family of its name. Script names are
distinct, but what counts is their bytes up to a NUL, and the default family is in the list too. So
the binding is right exactly if no name is `default` or has a NUL in it.
-/

namespace NodeKv.Rocks

open Machine

/-- The descriptor a database has registered. -/
def Db.descriptor (db : Db) : Family :=
  ⟨nativeName db.name, .ofType db.schema.keyType⟩

/-- The descriptors are those of the databases, behind the one of the default family. -/
structure Registered (env : Env) : Prop where
  desc : env.desc = ⟨defaultName, .bytewise⟩ :: env.dbs.map Db.descriptor
  indexed : ∀ index db, env.dbs[index]? = some db → db.cfidx = index + 1
  names : (env.dbs.map Db.name).Nodup

theorem Registered.new : Registered Env.new := by
  constructor
  · rfl
  · exact nofun
  · exact List.nodup_nil

theorem Registered.add {env next : Env} {db : Db} {name : String} {schema : Level.Schema}
    (registered : Registered env) (fresh : name ∉ env.dbs.map Db.name)
    (made : dbCtor name schema env = (db, next)) :
    Registered { next with dbs := next.dbs ++ [db] } := by
  obtain ⟨rfl, rfl⟩ := Prod.mk.inj made
  constructor
  · simp [registered.desc, Db.descriptor]
  · intro index db found
    simp only [List.getElem?_append] at found
    split_ifs at found with old
    · exact registered.indexed index db found
    · have last : index = env.dbs.length := by
        have within := (List.getElem?_eq_some_iff.mp found).1
        simp only [List.length_singleton] at within
        omega
      rw [last, Nat.sub_self] at found
      obtain rfl := Option.some.inj found
      simp [registered.desc, last]
  · rw [List.map_append, List.nodup_append]
    refine ⟨registered.names, List.nodup_cons.mpr ⟨List.not_mem_nil, List.nodup_nil⟩, ?_⟩
    intro other member name' new same
    obtain rfl : other = name := same.trans (List.mem_singleton.mp new)
    exact fresh member

theorem registerDb_registered (opt : DbOptions) : Prog.Preserves Registered (registerDb opt) := by
  intro env registered
  unfold registerDb
  split
  · exact registered
  · next name _ =>
    split_ifs with known
    · exact registered
    · split
      · next keyType valType _ _ =>
        refine registered.add ?_ rfl
        intro member
        exact known (by simp [hasName, member])
      · exact registered

section Named

variable {desc : List Family} {family first : Family} {name : Bytes}

private theorem firstNamed_isSome (member : family ∈ desc) :
    (firstNamed family.name desc).isSome := by
  rw [firstNamed, List.find?_isSome]
  exact ⟨family, member, decide_eq_true rfl⟩

private theorem name_of_firstNamed (found : firstNamed name desc = some first) :
    first.name = name := by
  rw [firstNamed] at found
  have named := List.find?_some found
  exact of_decide_eq_true named

/-- A descriptor is the first of its name if it is the only one. -/
theorem firstNamed_of_nodup (distinct : (desc.map Family.name).Nodup) (member : family ∈ desc) :
    firstNamed family.name desc = some family := by
  obtain ⟨first, found⟩ := Option.isSome_iff_exists.mp (firstNamed_isSome member)
  rw [found, List.inj_on_of_nodup_map distinct (List.mem_of_find?_eq_some found) member
    (name_of_firstNamed found)]

end Named

section Open

variable {env : Env} {db : Db}

theorem Registered.descriptor_mem (registered : Registered env) (member : db ∈ env.dbs) :
    db.descriptor ∈ env.desc := by
  rw [registered.desc]
  exact List.mem_cons_of_mem _ (List.mem_map_of_mem member)

/-- A database is given the first family of its name. -/
theorem Registered.cf_init (registered : Registered env) (member : db ∈ env.dbs) :
    (db.init (openFamilies env.desc)).cf = firstNamed (nativeName db.name) env.desc := by
  obtain ⟨index, found⟩ := List.getElem?_of_mem member
  have there : env.desc[db.cfidx]? = some db.descriptor := by
    rw [registered.indexed index db found, registered.desc, List.getElem?_cons_succ,
      List.getElem?_map, found, Option.map_some]
  obtain ⟨first, resolved⟩ :=
    Option.isSome_iff_exists.mp (firstNamed_isSome (registered.descriptor_mem member))
  rw [Db.init, openFamilies, List.getElem?_map, there, Option.map_some, resolved, Option.getD_some]
  exact resolved.symm

/-- Whatever family it is, it has the name that was passed on. -/
theorem Registered.family_init (registered : Registered env) (member : db ∈ env.dbs) :
    (db.init (openFamilies env.desc)).cf.map Family.name = some (nativeName db.name) := by
  obtain ⟨first, resolved⟩ :=
    Option.isSome_iff_exists.mp (firstNamed_isSome (registered.descriptor_mem member))
  rw [registered.cf_init member]
  exact (congrArg (Option.map Family.name) resolved).trans
    (congrArg some (name_of_firstNamed resolved))

/-- A name that RocksDB gets as it is, and that is not the one of the default family. -/
def Proper (name : String) : Prop := name ≠ "default" ∧ 0 ∉ name.toUTF8.toList

/-- Proper names give distinct descriptors. -/
theorem Registered.nodup (registered : Registered env) (proper : ∀ db ∈ env.dbs, Proper db.name) :
    (env.desc.map Family.name).Nodup := by
  have same : env.desc.map Family.name =
      ("default" :: env.dbs.map Db.name).map fun name => name.toUTF8.toList := by
    rw [registered.desc]
    simp only [List.map_cons, List.map_map]
    congr 1
    refine List.map_congr_left ?_
    intro db member
    exact (nativeName_eq_iff db.name).mpr (proper db member).2
  rw [same]
  refine List.Nodup.map toUTF8_toList_injective (List.nodup_cons.mpr ⟨?_, registered.names⟩)
  intro member
  obtain ⟨db, registered, named⟩ := List.mem_map.mp member
  exact (proper db registered).1 named

theorem Registered.cf_of_proper (registered : Registered env)
    (proper : ∀ db ∈ env.dbs, Proper db.name) (member : db ∈ env.dbs) :
    (db.init (openFamilies env.desc)).cf = some db.descriptor := by
  rw [registered.cf_init member]
  exact firstNamed_of_nodup (registered.nodup proper) (registered.descriptor_mem member)

end Open

section Contents

variable {db other : Db} {family : Family}

theorem Db.read_write_self (bound : db.cf = some family) (contents : Contents)
    (record : Level.Record) : db.read (db.write contents record) = record.apply (db.read contents) := by
  simp [Db.read, Db.write, bound]

theorem Db.read_write_of_ne (apart : other.cf.map Family.name ≠ db.cf.map Family.name)
    (contents : Contents) (record : Level.Record) :
    db.read (other.write contents record) = db.read contents := by
  cases there : other.cf with
  | none => simp [Db.write, there]
  | some family' =>
    cases here : db.cf with
    | none => simp [Db.read, here]
    | some family =>
      have ne : family.name ≠ family'.name := by
        rw [there, here] at apart
        exact fun same => apart (congrArg some same.symm)
      simp [Db.read, Db.write, there, here, ne]

/-- Writes through several databases, in order. -/
def writeAll (writes : List (Db × Level.Record)) (contents : Contents) : Contents :=
  writes.foldl (fun contents write => write.1.write contents write.2) contents

end Contents

/-- How the databases of an opened environment should be bound. -/
structure Bound (env : Env) : Prop where
  /-- To the family of its own name, ordered by its own key type. -/
  own : ∀ db ∈ env.dbs, ∃ family, db.cf = some family ∧ family.name = db.name.toUTF8.toList ∧
    ∀ left right, family.comparator.compare left right = db.schema.keyType.compare left right
  apart : ∀ db ∈ env.dbs, ∀ other ∈ env.dbs, other ≠ db →
    other.cf.map Family.name ≠ db.cf.map Family.name
  hidden : ∀ db ∈ env.dbs, db.cf.map Family.name ≠ some defaultName
  /-- What a database reads depends on the writes through itself alone. -/
  isolated : ∀ writes : List (Db × Level.Record), (∀ write ∈ writes, write.1 ∈ env.dbs) →
    ∀ contents, ∀ db ∈ env.dbs, db.read (writeAll writes contents) =
      applyAll (db.read contents) ((writes.filter (·.1 = db)).map Prod.snd)

/-- Each database writes into a store of its own, if no two share a family. -/
theorem isolated_of_apart {dbs : List Db}
    (own : ∀ db ∈ dbs, db.cf.isSome)
    (apart : ∀ db ∈ dbs, ∀ other ∈ dbs, other ≠ db →
      other.cf.map Family.name ≠ db.cf.map Family.name)
    (writes : List (Db × Level.Record)) (through : ∀ write ∈ writes, write.1 ∈ dbs)
    (contents : Contents) {db : Db} (member : db ∈ dbs) :
    db.read (writeAll writes contents) =
      applyAll (db.read contents) ((writes.filter (·.1 = db)).map Prod.snd) := by
  induction writes generalizing contents with
  | nil => rfl
  | cons write rest ih =>
    have later := ih (fun write member => through write (List.mem_cons_of_mem _ member))
      (write.1.write contents write.2)
    have onward : writeAll (write :: rest) contents = writeAll rest (write.1.write contents write.2) :=
      rfl
    rw [onward, later]
    by_cases self : write.1 = db
    · obtain ⟨family, bound⟩ := Option.isSome_iff_exists.mp (own db member)
      rw [List.filter_cons, if_pos (decide_eq_true self), self, Db.read_write_self bound]
      rfl
    · have passed : ¬decide (write.1 = db) = true := fun same => self (of_decide_eq_true same)
      rw [List.filter_cons, if_neg passed,
        Db.read_write_of_ne (apart db member _ (through write (List.mem_cons_self ..)) self)]

private theorem compare_descriptor (db : Db) (left right : Bytes) :
    db.descriptor.comparator.compare left right = db.schema.keyType.compare left right := by
  exact Comparator.compare_ofType db.schema.keyType left right

/-- Proper names are enough for a right binding. -/
theorem Registered.bound {env : Env} (registered : Registered env)
    (proper : ∀ db ∈ env.dbs, Proper db.name) :
    Bound { env with
      handles := openFamilies env.desc, dbs := env.dbs.map (Db.init (openFamilies env.desc)) } := by
  have own : ∀ db ∈ env.dbs.map (Db.init (openFamilies env.desc)),
      db.cf = some db.descriptor ∧ Proper db.name := by
    intro db member
    obtain ⟨before, listed, rfl⟩ := List.mem_map.mp member
    exact ⟨registered.cf_of_proper proper listed, proper before listed⟩
  have family : ∀ db ∈ env.dbs.map (Db.init (openFamilies env.desc)),
      db.cf.map Family.name = some db.name.toUTF8.toList := by
    intro db member
    obtain ⟨bound, named⟩ := own db member
    rw [bound, Option.map_some]
    exact congrArg some ((nativeName_eq_iff db.name).mpr named.2)
  have names : ((env.dbs.map (Db.init (openFamilies env.desc))).map Db.name).Nodup := by
    rw [List.map_map]
    exact registered.names
  have apart : ∀ db ∈ env.dbs.map (Db.init (openFamilies env.desc)),
      ∀ other ∈ env.dbs.map (Db.init (openFamilies env.desc)), other ≠ db →
        other.cf.map Family.name ≠ db.cf.map Family.name := by
    intro db member other member' ne same
    rw [family db member, family other member'] at same
    exact ne (List.inj_on_of_nodup_map names member' member
      (toUTF8_toList_injective (Option.some.inj same)))
  constructor
  · intro db member
    obtain ⟨bound, named⟩ := own db member
    exact ⟨db.descriptor, bound, (nativeName_eq_iff db.name).mpr named.2, compare_descriptor db⟩
  · exact apart
  · intro db member same
    rw [family db member] at same
    exact (own db member).2.1 (toUTF8_toList_injective (Option.some.inj same))
  · intro writes through contents db member
    refine isolated_of_apart ?_ apart writes through contents member
    intro db member
    rw [(own db member).1, Option.isSome_some]

/-- Whatever was registered before an environment was opened, its databases are bound as they
should be exactly if every name is proper. -/
theorem families_bound_iff {calls : List DbOptions} {env opened : Env}
    (run : Runs (Prog.Steps registerDb) Env.new calls env)
    (opens : openEnv none env = .returned opened) :
    Bound opened ↔ ∀ db ∈ opened.dbs, Proper db.name := by
  have registered : Registered env := by
    refine run.preserves (fun _ env => Registered env) Registered.new ?_
    intro calls env opt next registered stepped
    exact (registerDb_registered opt env registered).state? stepped
  obtain rfl := Outcome.returned.inj opens
  constructor
  · intro bound db member
    obtain ⟨before, listed, rfl⟩ := List.mem_map.mp member
    obtain ⟨family, cf, named, -⟩ := bound.own _ member
    have given := registered.family_init listed
    rw [cf, Option.map_some, Option.some.injEq, named] at given
    refine ⟨?_, (nativeName_eq_iff before.name).mp given.symm⟩
    rintro same
    refine bound.hidden _ member ?_
    rw [cf, Option.map_some, named, same]
    rfl
  · intro proper
    refine registered.bound ?_
    intro db member
    exact proper (db.init (openFamilies env.desc)) (List.mem_map_of_mem member)

/-- Two databases, each with a family of its own. -/
theorem families_bound_for_two : ∃ env opened,
    Runs (Prog.Steps registerDb) Env.new
      [⟨some "a", some .int32, some .string⟩, ⟨some "b", some .string, some .string⟩] env ∧
    openEnv none env = .returned opened ∧ Bound opened := by
  have performed : Prog.perform registerDb
      [⟨some "a", some .int32, some .string⟩, ⟨some "b", some .string, some .string⟩] Env.new =
      some ⟨[⟨defaultName, .bytewise⟩, ⟨nativeName "a", .number ⟨4, true⟩⟩, ⟨nativeName "b", .bytewise⟩], [],
        [⟨"a", ⟨.int32, .string⟩, 1, none⟩, ⟨"b", ⟨.string, .string⟩, 2, none⟩]⟩ := by
    decide +kernel
  have run := Prog.perform_runs (fun _ _ _ ended => ended) (.nil : Runs _ _ _ _) performed
  refine ⟨_, _, run, rfl, (families_bound_iff run rfl).mpr ?_⟩
  have proper : Proper "a" ∧ Proper "b" := by
    unfold Proper
    decide +kernel
  intro db member
  rcases List.mem_pair.mp member with rfl | rfl
  · exact proper.1
  · exact proper.2

/-- A database with numbers for keys that is called `default` has the default family, which is
ordered bytewise. -/
theorem default_name_misbound : ∃ env opened,
    Runs (Prog.Steps registerDb) Env.new [⟨some "default", some .int32, some .int32⟩] env ∧
    openEnv none env = .returned opened ∧
    opened.dbs = [⟨"default", ⟨.int32, .int32⟩, 1, some ⟨defaultName, .bytewise⟩⟩] ∧
    ¬Bound opened := by
  have performed : Prog.perform registerDb [⟨some "default", some .int32, some .int32⟩] Env.new =
      some ⟨[⟨defaultName, .bytewise⟩, ⟨nativeName "default", .number ⟨4, true⟩⟩], [],
        [⟨"default", ⟨.int32, .int32⟩, 1, none⟩]⟩ := by
    decide +kernel
  have run := Prog.perform_runs (fun _ _ _ ended => ended) (.nil : Runs _ _ _ _) performed
  have bound : List.map (Db.init (openFamilies
      [⟨defaultName, .bytewise⟩, ⟨nativeName "default", .number ⟨4, true⟩⟩]))
      [⟨"default", ⟨.int32, .int32⟩, 1, none⟩] =
      [⟨"default", ⟨.int32, .int32⟩, 1, some ⟨defaultName, .bytewise⟩⟩] := by
    decide +kernel
  refine ⟨_, _, run, rfl, bound, ?_⟩
  intro right
  exact right.hidden _ (by rw [bound]; exact List.mem_singleton_self _) rfl

end NodeKv.Rocks
