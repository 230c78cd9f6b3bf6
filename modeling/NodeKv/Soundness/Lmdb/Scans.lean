import Mathlib.Data.List.TakeWhile
import NodeKv.Soundness.Lmdb.Listing

/-! # Loops over keys and duplicates

A loop that goes on with `next` until it is told that there is nothing more comes to every pair from
its start on; one that goes on with `nextDup` comes to the duplicates of one key. Both come to each
pair once, and in order.
-/

namespace NodeKv.Lmdb

open Machine

variable {v8 : V8} {db : Db} {store : Store}

namespace Cursor

section Loop

variable (contents : Contents db store) (stray : Stray contents.pairs.length)

/-- `for (; found; found = cursor.onward())`, for a number of passes: the pairs that it comes to, and
how the last movement has ended. -/
def scan (onward : Movement) : ℕ → Result Bool × Place contents.pairs.length →
    List (Bytes × Bytes) × Result Bool
  | 0, moved => ([], moved.1)
  | passes + 1, (.ok true, .on index) =>
    let rest := scan onward passes (cursorOp contents stray none onward (.on index))
    (contents.pairs.get index :: rest.1, rest.2)
  | _ + 1, moved => ([], moved.1)

variable {contents} {stray}

private theorem scan_none (onward : Movement) (passes : ℕ) :
    scan contents stray onward passes (moved none) = ([], .ok false) := by
  cases passes <;> rfl

private theorem scan_some (onward : Movement) (passes : ℕ) (index : Fin contents.pairs.length) :
    scan contents stray onward (passes + 1) (moved (some index)) =
      let rest := scan contents stray onward passes (cursorOp contents stray none onward (.on index))
      (contents.pairs.get index :: rest.1, rest.2) := rfl

/-- With `next`, the loop comes to all that is ahead. -/
theorem scan_next {passes : ℕ} (index : Fin contents.pairs.length)
    (enough : contents.pairs.length < index + passes) :
    scan contents stray .next passes (moved (some index)) = (contents.pairs.drop index, .ok false) := by
  induction passes generalizing index with
  | zero => omega
  | succ passes ih =>
    have onward : cursorOp contents stray none .next (.on index) = moved (Position.next index) :=
      cursorOp_moved .next (fun needs => absurd needs Bool.false_ne_true) (by decide) (by decide)
        (.on index)
    rw [List.drop_eq_getElem_cons index.isLt, scan_some, onward]
    by_cases more : index.val + 1 < contents.pairs.length
    · have next : Position.next index = some ⟨index + 1, more⟩ := dif_pos more
      rw [next, ih ⟨index + 1, more⟩ (by simp only; omega)]
      rfl
    · have next : Position.next index = none := dif_neg more
      rw [next, scan_none, List.drop_of_length_le (by omega)]
      rfl

/-- With `nextDup`, it comes to what is ahead with the same key. -/
theorem scan_nextDup (stored : Stored v8 db store) {key : Datum v8 db.keyType} {passes : ℕ}
    (index : Fin contents.pairs.length) (here : (contents.pairs.get index).1 = key.bytes)
    (enough : contents.pairs.length < index + passes) :
    scan contents stray .nextDup passes (moved (some index)) =
      ((contents.pairs.drop index).takeWhile fun pair => pair.1 = key.bytes, .ok false) := by
  induction passes generalizing index with
  | zero => omega
  | succ passes ih =>
    have onward : cursorOp contents stray none .nextDup (.on index) =
        moved ((Position.next index).filter fun next =>
          decide ((contents.pairs.get next).1 = key.bytes)) := by
      rw [cursorOp_moved .nextDup (fun needs => absurd needs Bool.false_ne_true) (by decide)
        (by decide)]
      simp only [destination, here]
      congr 2
      funext next
      rw [decide_eq_decide, DataType.compare_swap, Ordering.swap_eq_eq]
      exact key_eq_iff stored key next
    rw [List.drop_eq_getElem_cons index.isLt, List.takeWhile_cons_of_pos (by simpa using here),
      scan_some, onward]
    by_cases more : index.val + 1 < contents.pairs.length
    · have next : Position.next index = some ⟨index + 1, more⟩ := dif_pos more
      rw [next]
      by_cases same : (contents.pairs.get ⟨index + 1, more⟩).1 = key.bytes
      · rw [Option.filter_some_pos (by simpa using same), ih ⟨index + 1, more⟩ same (by simp only; omega)]
        rfl
      · rw [Option.filter_some_neg (by simpa using same), scan_none, List.drop_eq_getElem_cons more,
          List.takeWhile_cons_of_neg (by simpa using same)]
        rfl
    · have next : Position.next index = none := dif_neg more
      rw [next, Option.filter_none, scan_none, List.drop_of_length_le (by omega)]
      rfl

/-- From the first pair of a kind on. -/
theorem scan_from {passes : ℕ} (enough : contents.pairs.length < passes)
    (wanted : Bytes × Bytes → Bool) :
    scan contents stray .next passes
        (moved (Position.seek fun index => wanted (contents.pairs.get index))) =
      (contents.pairs.dropWhile (!wanted ·), .ok false) := by
  cases found : Position.seek fun index => wanted (contents.pairs.get index) with
  | none =>
    have unwanted : ∀ pair ∈ contents.pairs, (!wanted pair) = true := by
      intro pair member
      obtain ⟨index, rfl⟩ := List.get_of_mem member
      have missed := Position.seek_isSome_iff.not.mp (by rw [found]; exact Bool.false_ne_true)
      simpa using not_exists.mp missed index
    rw [scan_none, List.dropWhile_eq_nil_iff.mpr unwanted]
  | some index => rw [scan_next index (by omega), Position.drop_seek found]

private theorem key_le {left right : Bytes × Bytes} (less : db.comparePairs left right = .lt) :
    (db.keyType.compare left.1 right.1).isLE = true := by
  rcases Ordering.then_eq_lt.mp less with below | ⟨same, -⟩
  · rw [below]
    rfl
  · rw [same]
    rfl

/-- From a key on, there are the pairs of it and of all keys above it. -/
theorem scan_keys {passes : ℕ} (enough : contents.pairs.length < passes) (key : Bytes) :
    scan contents stray .next passes (moved (Position.seek fun index =>
        (db.keyType.compare (contents.pairs.get index).1 key).isGE)) =
      (contents.pairs.filter fun pair => (db.keyType.compare pair.1 key).isGE, .ok false) := by
  rw [scan_from enough fun pair => (db.keyType.compare pair.1 key).isGE, dropWhile_eq_filter]
  apply contents.ordered.imp
  intro left right less above
  exact Std.TransCmp.isGE_trans (Std.OrientedCmp.isGE_iff_isLE.mpr (key_le less)) above

section Dups

variable (stored : Stored v8 db store) {key : Datum v8 db.keyType} {wanted : Bytes → Bool}
  (upward : ∀ left right, db.valType.compare left right = .lt → wanted left = true → wanted right = true)

include stored

private theorem key_eq_of_le {pair : Bytes × Bytes} (member : pair ∈ contents.pairs)
    (above : (db.keyType.compare key.bytes pair.1).isLE = true)
    (below : (db.keyType.compare pair.1 key.bytes).isLE = true) : pair.1 = key.bytes := by
  obtain ⟨index, rfl⟩ := List.get_of_mem member
  exact (key_eq_iff stored key index).mp (Std.OrientedCmp.isLE_antisymm below above)

include upward

/-- Behind a wanted duplicate, the wanted pairs are the ones with its key. -/
theorem filter_behind {here : Bytes × Bytes} {rest : List (Bytes × Bytes)}
    (among : (here :: rest).Sublist contents.pairs) (same : here.1 = key.bytes)
    (found : wanted here.2 = true) :
    (here :: rest).takeWhile (fun pair => pair.1 = key.bytes) =
      (here :: rest).filter fun pair => pair.1 = key.bytes && wanted pair.2 := by
  have ordered := contents.ordered.sublist among
  have first := (List.pairwise_cons.mp ordered).1
  have keys : (here :: rest).takeWhile (fun pair => pair.1 = key.bytes) =
      (here :: rest).filter fun pair => pair.1 = key.bytes := by
    apply takeWhile_eq_filter
    refine ordered.imp_of_mem ?_
    intro left right member _ less equal
    simp only [decide_eq_true_eq] at equal ⊢
    rcases List.mem_cons.mp member with rfl | later
    · exact same
    · apply key_eq_of_le stored (among.subset member)
      · rw [← same]
        exact key_le (first left later)
      · rw [← equal]
        exact key_le less
  rw [keys]
  apply List.filter_congr
  intro pair member
  by_cases equal : pair.1 = key.bytes
  · have kept : wanted pair.2 = true := by
      rcases List.mem_cons.mp member with rfl | later
      · exact found
      · have less := first pair later
        rw [Db.comparePairs, same, equal, DataType.compare_self] at less
        exact upward here.2 pair.2 less found
    simp [equal, kept]
  · simp [equal]

/-- From a duplicate on, there are the duplicates of the same key that are not below it. -/
theorem scan_dups {passes : ℕ} (enough : contents.pairs.length < passes) :
    scan contents stray .nextDup passes (moved (Position.seek fun index =>
        (contents.pairs.get index).1 = key.bytes && wanted (contents.pairs.get index).2)) =
      (contents.pairs.filter fun pair => pair.1 = key.bytes && wanted pair.2, .ok false) := by
  cases found : Position.seek fun index : Fin contents.pairs.length =>
      (contents.pairs.get index).1 = key.bytes && wanted (contents.pairs.get index).2 with
  | none =>
    have missed := Position.seek_isSome_iff.not.mp (by rw [found]; exact Bool.false_ne_true)
    rw [scan_none, eq_comm, Prod.mk.injEq]
    refine ⟨List.filter_eq_nil_iff.mpr ?_, rfl⟩
    intro pair member here
    obtain ⟨index, rfl⟩ := List.get_of_mem member
    exact missed ⟨index, here⟩
  | some index =>
    obtain ⟨here, earlier⟩ := Position.seek_spec found
    simp only [Bool.and_eq_true, decide_eq_true_eq] at here
    rw [scan_nextDup stored index here.1 (by omega), Prod.mk.injEq]
    refine ⟨?_, rfl⟩
    have before : (contents.pairs.take index).filter
        (fun pair => pair.1 = key.bytes && wanted pair.2) = [] := by
      refine List.filter_eq_nil_iff.mpr ?_
      intro pair member
      obtain ⟨other, inside, rfl⟩ := List.mem_take_iff_getElem.mp member
      exact Bool.eq_false_iff.mp (earlier ⟨other, by omega⟩ (show other < index.val by omega))
    conv_rhs => rw [← List.take_append_drop index contents.pairs, List.filter_append, before]
    have among : (contents.pairs[index.val] :: contents.pairs.drop (index + 1)).Sublist contents.pairs := by
      rw [← List.drop_eq_getElem_cons index.isLt]
      exact List.drop_sublist ..
    rw [List.nil_append, List.drop_eq_getElem_cons index.isLt]
    exact filter_behind stored upward among here.1 here.2

end Dups

variable (stray) in
/-- The duplicates that the loop comes to, in terms of the store. -/
theorem scan_vals (listed : Listed v8 db store) (key : Datum v8 db.keyType) (wanted : Bytes → Bool)
    (upward : ∀ left right, db.valType.compare left right = .lt → wanted left = true → wanted right = true)
    {passes : ℕ} (enough : contents.pairs.length < passes) :
    scan contents stray .nextDup passes (moved (Position.seek fun index =>
        (contents.pairs.get index).1 = key.bytes && wanted (contents.pairs.get index).2)) =
      (((store db.dbi key.bytes).filter wanted).map (key.bytes, ·), .ok false) := by
  rw [scan_dups listed.toStored upward enough, ← List.filter_filter, List.filter_comm,
    contents.filter_key listed.sorted, List.filter_map]
  rfl

/-- What loops from a key on come to, in a database that a transaction sees. -/
structure Scanned (v8 : V8) (contents : Contents db store) (stray : Stray contents.pairs.length)
    (passes : ℕ) (place : Place contents.pairs.length) (raw : Value) (key : Datum v8 db.keyType) :
    Prop where
  keys : ∃ visited,
    scan contents stray .next passes (gte contents stray v8 none raw none place) = (visited, .ok false) ∧
    Ascending db.comparePairs visited ∧
    ∀ found val, (found, val) ∈ visited ↔
      val ∈ store db.dbi found ∧ (db.keyType.compare found key.bytes).isGE = true
  dups : db.allowDup = true →
    scan contents stray .nextDup passes (seek contents stray v8 none raw none place) =
      ((store db.dbi key.bytes).map (key.bytes, ·), .ok false)
  dupsFrom : db.allowDup = true → ∀ rawVal val, db.valType.check v8 rawVal = .ok val → val.bytes ≠ [] →
    scan contents stray .nextDup passes (gte contents stray v8 none raw (some rawVal) place) =
      (((store db.dbi key.bytes).filter fun dup => (db.valType.compare dup val.bytes).isGE).map
        (key.bytes, ·), .ok false)

variable (stray) in
private theorem scanned (listed : Listed v8 db store) {passes : ℕ}
    (enough : contents.pairs.length < passes)
    (place : Place contents.pairs.length) {raw : Value} {key : Datum v8 db.keyType}
    (checked : db.keyType.check v8 raw = .ok key) (sized : key.bytes ≠ []) :
    Scanned v8 contents stray passes place raw key := by
  have taken : some key.bytes ≠ some [] := fun empty => sized (Option.some.inj empty)
  constructor
  · refine ⟨contents.pairs.filter fun pair => (db.keyType.compare pair.1 key.bytes).isGE, ?_,
      contents.ascending.filter _, ?_⟩
    · simp only [gte, lookFor, checked]
      rw [cursorOp_moved (.setRange key.bytes) (fun needs => absurd needs Bool.false_ne_true) taken
        (by rintro ⟨⟩)]
      exact scan_keys enough key.bytes
    · intro found val
      rw [List.mem_filter, contents.mem_pairs]
  · intro _
    simp only [seek, lookFor, checked]
    rw [cursorOp_moved (.set key.bytes) (fun needs => absurd needs Bool.false_ne_true) taken
      (by rintro ⟨⟩)]
    have visited := scan_vals stray listed key (fun _ => true) (fun _ _ _ _ => rfl) enough
    simp only [Bool.and_true, List.filter_true] at visited
    simp only [destination, key_eq_iff listed.toStored]
    exact visited
  · intro dups rawVal val valued whole
    simp only [gte, lookFor, checked, valued]
    rw [cursorOp_moved (.getBothRange key.bytes val.bytes) (fun _ => dups) taken
      (fun empty => whole (Option.some.inj empty))]
    have upward : ∀ left right : Bytes, db.valType.compare left right = .lt →
        (db.valType.compare left val.bytes).isGE = true →
        (db.valType.compare right val.bytes).isGE = true := by
      intro left right less above
      have below : (db.valType.compare right left).isGE = true := by
        rw [DataType.compare_swap, less]
        rfl
      exact Std.TransCmp.isGE_trans below above
    simp only [destination, key_eq_iff listed.toStored]
    exact scan_vals stray listed key _ upward enough

end Loop

end Cursor

end NodeKv.Lmdb
