import Mathlib.Data.Set.List
import NodeKv.Machine.Iterator
import NodeKv.Soundness.Order.Texts

/-! # Looking for a value in order

Cursors look for a key, or for a duplicate of a key, among entries that are in the order of the
stored bytes. For types whose bytes are in the order of a spelling, they find what the spelling says:
the value that is spelled alike, or the least one that is not below.
-/

namespace NodeKv

open Machine

section Search

variable {v8 : V8} {type : DataType} {spelling : Datum v8 type → String}

/-- What is found is the value among some that is spelled like another one. -/
structure FindsAlike (spelling : Datum v8 type → String) (present : Datum v8 type → Prop)
    (target : Datum v8 type) (found : Option Bytes) : Prop where
  found_iff : found.isSome = true ↔ ∃ datum, present datum ∧ spelling datum = spelling target
  alike : ∀ bytes, found = some bytes → bytes = target.bytes

/-- What is found is the least value among some that is not below another one. -/
structure FindsLeast (spelling : Datum v8 type → String) (present : Datum v8 type → Prop)
    (target : Datum v8 type) (found : Option Bytes) : Prop where
  found_iff : found.isSome = true ↔
    ∃ datum, present datum ∧ compareOn codePoints (spelling datum) (spelling target) ≠ .lt
  least : ∀ bytes, found = some bytes → ∃ datum, bytes = datum.bytes ∧ present datum ∧
    compareOn codePoints (spelling datum) (spelling target) ≠ .lt ∧
    ∀ other, present other → compareOn codePoints (spelling other) (spelling target) ≠ .lt →
      (compareOn codePoints (spelling datum) (spelling other)).isLE = true

/-- Values of a type that are in the order of the type are in the order of their spelling. -/
theorem Spells.exists_data (spells : Spells v8 type spelling) (order : Ordering → Prop)
    {items : List Bytes} (made : ∀ item ∈ items, ∃ datum : Datum v8 type, item = datum.bytes)
    (ordered : items.Pairwise fun left right => order (type.compare left right)) :
    ∃ data : List (Datum v8 type), items = data.map Datum.bytes ∧
      data.Pairwise fun left right =>
        order (compareOn codePoints (spelling left) (spelling right)) := by
  have all : ∀ item ∈ items, item ∈ Set.range (Datum.bytes : Datum v8 type → Bytes) := by
    intro item member
    obtain ⟨datum, same⟩ := made item member
    exact ⟨datum, same.symm⟩
  obtain ⟨data, rfl⟩ := (Set.range_list_map Datum.bytes).ge all
  refine ⟨data, rfl, ?_⟩
  apply (List.pairwise_map.mp ordered).imp
  intro left right holds
  rwa [spells.compare_bytes] at holds

variable {entries : List (Bytes × Bytes)} {item : Bytes × Bytes → Bytes}
  {among : Bytes × Bytes → Prop}

/-- The items that a cursor goes by are values of a type, in the order of the type. -/
structure Searched (v8 : V8) (type : DataType) (entries : List (Bytes × Bytes))
    (item : Bytes × Bytes → Bytes) (among : Bytes × Bytes → Prop) : Prop where
  made : ∀ entry ∈ entries, among entry → ∃ datum : Datum v8 type, item entry = datum.bytes
  ordered : entries.Pairwise fun left right =>
    among left → among right → (type.compare (item left) (item right)).isLE = true

namespace Searched

variable (searched : Searched v8 type entries item among) (spells : Spells v8 type spelling)
  {kind : Fin entries.length → Bool}

include searched spells

theorem alike (target : Datum v8 type)
    (kinds : ∀ index, kind index = true ↔ among (entries.get index) ∧
      type.compare (item (entries.get index)) target.bytes = .eq) :
    FindsAlike spelling (fun datum => ∃ entry ∈ entries, among entry ∧ item entry = datum.bytes)
      target ((Position.seek kind).map fun index => item (entries.get index)) := by
  have same {index : Fin entries.length} (hit : kind index = true) :
      among (entries.get index) ∧ item (entries.get index) = target.bytes := by
    obtain ⟨inside, equal⟩ := (kinds index).mp hit
    obtain ⟨datum, made⟩ := searched.made _ (entries.get_mem index) inside
    rw [made] at equal ⊢
    exact ⟨inside, DataType.eq_of_compare datum.sized target.sized equal⟩
  constructor
  · rw [Option.isSome_map, Position.seek_isSome_iff]
    constructor
    · rintro ⟨index, hit⟩
      exact ⟨target, ⟨_, entries.get_mem index, same hit⟩, rfl⟩
    · rintro ⟨datum, ⟨entry, member, inside, made⟩, spelled⟩
      obtain ⟨index, rfl⟩ := List.get_of_mem member
      refine ⟨index, (kinds index).mpr ⟨inside, ?_⟩⟩
      rw [made, (spells.bytes_eq_iff datum target).mpr spelled, DataType.compare_self]
  · intro bytes found
    obtain ⟨index, stopped, rfl⟩ := Option.map_eq_some_iff.mp found
    exact (same (Position.seek_spec stopped).1).2

theorem least (target : Datum v8 type)
    (kinds : ∀ index, kind index = true ↔ among (entries.get index) ∧
      (type.compare (item (entries.get index)) target.bytes).isGE = true) :
    FindsLeast spelling (fun datum => ∃ entry ∈ entries, among entry ∧ item entry = datum.bytes)
      target ((Position.seek kind).map fun index => item (entries.get index)) := by
  have hit_iff {index : Fin entries.length} {datum : Datum v8 type}
      (made : item (entries.get index) = datum.bytes) : kind index = true ↔
        among (entries.get index) ∧ compareOn codePoints (spelling datum) (spelling target) ≠ .lt := by
    rw [kinds, made, spells.compare_bytes, Ordering.isGE_iff_ne_lt]
  have made {index : Fin entries.length} (hit : kind index = true) :
      ∃ datum : Datum v8 type, item (entries.get index) = datum.bytes :=
    searched.made _ (entries.get_mem index) ((kinds index).mp hit).1
  constructor
  · rw [Option.isSome_map, Position.seek_isSome_iff]
    constructor
    · rintro ⟨index, hit⟩
      obtain ⟨datum, made⟩ := made hit
      obtain ⟨inside, high⟩ := (hit_iff made).mp hit
      exact ⟨datum, ⟨_, entries.get_mem index, inside, made⟩, high⟩
    · rintro ⟨datum, ⟨entry, member, inside, made⟩, high⟩
      obtain ⟨index, rfl⟩ := List.get_of_mem member
      exact ⟨index, (hit_iff made).mpr ⟨inside, high⟩⟩
  · intro bytes found
    obtain ⟨index, stopped, rfl⟩ := Option.map_eq_some_iff.mp found
    obtain ⟨hit, missed⟩ := Position.seek_spec stopped
    obtain ⟨datum, made⟩ := made hit
    obtain ⟨inside, high⟩ := (hit_iff made).mp hit
    refine ⟨datum, made, ⟨_, entries.get_mem index, inside, made⟩, high, ?_⟩
    rintro other ⟨entry, member, within, same⟩ above
    obtain ⟨place, rfl⟩ := List.get_of_mem member
    -- An entry before the one that was found is below the target.
    rcases lt_trichotomy place index with before | rfl | behind
    · exact absurd ((hit_iff same).mpr ⟨within, above⟩) (Bool.eq_false_iff.mp (missed place before))
    · rw [← spells.compare_bytes, ← made, ← same, DataType.compare_self]
      rfl
    · have order := List.pairwise_iff_getElem.mp searched.ordered index.val place.val index.isLt
        place.isLt behind inside within
      simp only [List.get_eq_getElem] at made same
      rwa [made, same, spells.compare_bytes] at order

end Searched

end Search

end NodeKv
