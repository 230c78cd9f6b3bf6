import NodeKv.Soundness.Level.Order
import NodeKv.Soundness.Lmdb.Order

/-! # Keys that are texts or hexadecimal values

The order of texts and of hexadecimal values, and what it means for cursors: in every engine they
pass the keys in this order, and find a key, or a duplicate in LMDB, by it.
-/

namespace NodeKv

open Machine

/-- How a text is stored. -/
def textBytes (text : String) : Bytes := text.toUTF8.toList ++ [0]

section Strings

variable {v8 : V8} {type : DataType} (texts : type = .string)

include texts

theorem Datum.bytes_eq_textBytes (datum : Datum v8 type) : datum.bytes = textBytes datum.text := by
  subst texts
  rfl

private theorem spells_text : Spells v8 type Datum.text := by
  subst texts
  exact string_spells

/-- Keys in the order of their texts. -/
theorem exists_texts (order : Ordering → Prop) {keys : List Bytes}
    (spelled : ∃ data : List (Datum v8 type), keys = data.map Datum.bytes ∧
      data.Pairwise fun left right => order (compareOn codePoints left.text right.text)) :
    ∃ texts : List String, keys = texts.map textBytes ∧
      texts.Pairwise fun left right => order (compareOn codePoints left right) := by
  obtain ⟨data, rfl, ordered⟩ := spelled
  refine ⟨data.map Datum.text, ?_, List.pairwise_map.mpr ordered⟩
  rw [List.map_map]
  exact List.map_congr_left fun datum _ => datum.bytes_eq_textBytes texts

end Strings

section Accepted

variable {v8 : V8} (keeps : v8.KeepsText) (type : DataType) (text : String)

include keeps

/-- Texts are accepted as they are. -/
theorem check_text (texts : type = .string) :
    ∃ datum : Datum v8 type, type.check v8 (.text text) = .ok datum ∧ datum.text = text := by
  subst texts
  exact ⟨⟨.text text, .text text, rfl⟩, rfl, keeps text⟩

/-- So are texts that spell a hexadecimal value. -/
theorem check_hex (hex : type = .hex) (spelled : DataType.isHex text.toList = true) :
    ∃ datum : Datum v8 type, type.check v8 (.text text) = .ok datum ∧ datum.value = .text text := by
  subst hex
  have accepted : DataType.hex.sanitize v8 (.text text) = .ok (.text text) := by
    simp only [DataType.sanitize, keeps text, spelled, if_true]
  rcases DataType.hex.check_cases v8 (.text text) with ⟨error, rejected, -⟩ | ⟨datum, same, checked⟩
  · cases rejected.symm.trans accepted
  · exact ⟨datum, checked, Except.ok.inj (same.symm.trans accepted)⟩

end Accepted

namespace Lmdb

/-- A store with one pair. -/
def Store.only (db : Db) (key val : Bytes) : Store :=
  fun dbi found => if dbi = db.dbi ∧ found = key then [val] else []

theorem Store.mem_only {db : Db} {key val found other : Bytes} :
    other ∈ Store.only db key val db.dbi found ↔ found = key ∧ other = val := by
  unfold Store.only
  split_ifs with here
  · rw [List.mem_singleton, and_iff_right here.2]
  · exact iff_of_false List.not_mem_nil fun same => here ⟨rfl, same.1⟩

def Contents.only (db : Db) (key val : Bytes) : Contents db (.only db key val) where
  pairs := [(key, val)]
  mem_pairs := fun found other => by
    rw [List.mem_singleton, Prod.mk.injEq, Store.mem_only]
  ordered := List.pairwise_singleton _ _

theorem Readable.only {v8 : V8} {db : Db} (key : Datum v8 db.keyType) (val : Datum v8 db.valType) :
    Readable v8 db (.only db key.bytes val.bytes) := by
  have stored : Stored v8 db (.only db key.bytes val.bytes) := by
    constructor
    · intro found other member
      exact ⟨key, (Store.mem_only.mp member).1⟩
    · intro found other member
      exact ⟨val, (Store.mem_only.mp member).2⟩
  exact .committed stored (List.forall_mem_nil _) .nil

end Lmdb

section Hex

variable {v8 : V8} {type : DataType} (hex : type = .hex)

include hex

private theorem spells_canonical : Spells v8 type fun datum => Hex.canonical datum.text := by
  subst hex
  exact hex_spells

end Hex

/-- The sanitizer lets a hexadecimal value through as it is. -/
theorem hex_text_of_sanitize {v8 : V8} {raw value : Value}
    (accepted : DataType.hex.sanitize v8 raw = .ok value) : v8.toText value = v8.toText raw := by
  simp only [DataType.sanitize] at accepted
  split_ifs at accepted
  rw [Except.ok.inj accepted]

end NodeKv
