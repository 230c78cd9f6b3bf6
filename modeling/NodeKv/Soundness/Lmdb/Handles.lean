import NodeKv.Model.Lmdb.Handles

/-! # Liveness of transaction and cursor handles

A `Txn` object forgets its pointer whenever LMDB frees the transaction, so every live transaction
is owned by exactly one object and is ended exactly once. A `Cursor` object forgets its pointer only
in its own `close`. The end of a write transaction frees the cursor behind its back, and the object
goes on to pass the pointer: a movement or a `del` uses a freed cursor, `close` and the destructor
free it again. The methods of a closed cursor, and a cursor opened on a closed transaction, pass
NULL. A script that closes its cursors before it ends their write transaction, and then leaves them
alone, is safe.
-/

namespace NodeKv.Lmdb.Handles

open Machine

namespace State

/-- The `_txn` of an object. -/
def txnPointer (state : State) (object : ℕ) : Option ℕ := (state.txns object).bind TxnObject.txn

/-- The `_cursor` of an object. -/
def cursorPointer (state : State) (object : ℕ) : Option ℕ :=
  (state.cursors object).bind CursorObject.cursor

/-- Some `Txn` object that has not been finalized has the transaction open. -/
def Open (state : State) (txn : ℕ) : Prop := ∃ object, state.txnPointer object = some txn

/-- The object has not been closed, and it was opened in a read-only transaction or in one that is
still open. -/
def Usable (state : State) (object : ℕ) : Prop :=
  ∃ cursor, state.cursorPointer object = some cursor ∧
    (state.mdb.readonly (state.mdb.owner cursor) = true ∨ state.Open (state.mdb.owner cursor))

end State

/-- The actions of a careful script: cursors are opened on open transactions, are not used once
closed, and are closed before their write transaction ends. -/
def Careful (state : State) : Action → Prop
  | .openCursor txn => state.txnPointer txn ≠ none
  | .move _ cursor => state.Usable cursor
  | .key cursor => state.Usable cursor
  | .val cursor => state.Usable cursor
  | .del cursor => state.Usable cursor
  | .close cursor => state.Usable cursor
  | .finalizeCursor cursor => state.cursorPointer cursor = none ∨ state.Usable cursor
  | _ => True

/-- Every pointer passed to LMDB so far was live. -/
def Mdb.Clean (mdb : Mdb) : Prop := ∀ call ∈ mdb.calls, call.2 = true

section Calls

variable {mdb : Mdb}

theorem Mdb.clean_concat {call : Call} {live : Bool} :
    Mdb.Clean { mdb with calls := mdb.calls ++ [(call, live)] } ↔ mdb.Clean ∧ live = true := by
  simp [Mdb.Clean, or_imp, forall_and]

private theorem any_live {heap : Heap} {pointer : Option ℕ} :
    pointer.any (decide <| heap.Live ·) = true ↔ ∃ id, pointer = some id ∧ heap.Live id := by
  cases pointer <;> simp

theorem Mdb.clean_passTxn {fn : TxnFn} {pointer : Option ℕ} :
    (mdb.passTxn fn pointer).Clean ↔ mdb.Clean ∧ ∃ txn, pointer = some txn ∧ mdb.txns.Live txn :=
  clean_concat.trans (and_congr_right' any_live)

theorem Mdb.clean_passCursor {fn : CursorFn} {pointer : Option ℕ} :
    (mdb.passCursor fn pointer).Clean ↔
      mdb.Clean ∧ ∃ cursor, pointer = some cursor ∧ mdb.cursors.Live cursor :=
  clean_concat.trans (and_congr_right' any_live)

theorem Mdb.clean_beginTxn {readonly : Bool} : (mdb.beginTxn readonly).Clean ↔ mdb.Clean := Iff.rfl

theorem Mdb.clean_closeCursor {pointer : Option ℕ} :
    (mdb.closeCursor pointer).Clean ↔
      mdb.Clean ∧ ∃ cursor, pointer = some cursor ∧ mdb.cursors.Live cursor :=
  clean_passCursor

variable {fn : TxnFn} {txn : ℕ}

theorem Mdb.clean_endTxn : (mdb.endTxn fn txn).Clean ↔ mdb.Clean ∧ mdb.txns.Live txn := by
  have passed : (mdb.endTxn fn txn).Clean ↔ (mdb.passTxn fn (some txn)).Clean := Iff.rfl
  rw [passed, clean_passTxn]
  simp

@[simp] theorem Mdb.endTxn_txns : (mdb.endTxn fn txn).txns = mdb.txns.free [txn] := by
  unfold endTxn
  split_ifs <;> rfl

@[simp] theorem Mdb.endTxn_readonly : (mdb.endTxn fn txn).readonly = mdb.readonly := by
  unfold endTxn
  split_ifs <;> rfl

@[simp] theorem Mdb.endTxn_owner : (mdb.endTxn fn txn).owner = mdb.owner := by
  unfold endTxn
  split_ifs <;> rfl

theorem Mdb.endTxn_created : (mdb.endTxn fn txn).cursors.created = mdb.cursors.created := by
  unfold endTxn
  split_ifs <;> rfl

/-- The cursors that a transaction leaves when it ends. -/
theorem Mdb.live_endTxn {cursor : ℕ} : (mdb.endTxn fn txn).cursors.Live cursor ↔
    mdb.cursors.Live cursor ∧ (mdb.readonly txn = true ∨ mdb.owner cursor ≠ txn) := by
  unfold endTxn
  split_ifs with readonly
  · simp [readonly]
  · simp [readonly, Heap.live_free, Heap.mem_liveOf]
    tauto

theorem Mdb.endTxn_sound (sound : mdb.cursors.Sound) : (mdb.endTxn fn txn).cursors.Sound := by
  unfold endTxn
  split_ifs
  · exact sound
  · exact sound.free (Heap.nodup_liveOf ..) fun cursor mem => (Heap.mem_liveOf.mp mem).1

end Calls

/-- How the objects and LMDB agree while no dangling pointer has been passed. -/
structure Sound (state : State) : Prop where
  txns : state.mdb.txns.Owned state.txnPointer
  cursorHeap : state.mdb.cursors.Sound
  /-- The cursor behind an object is live exactly while its transaction has not freed it. -/
  cursors : ∀ object cursor, state.cursorPointer object = some cursor →
    cursor < state.mdb.cursors.created ∧
    state.mdb.owner cursor < state.mdb.txns.created ∧
    (state.mdb.cursors.Live cursor ↔ state.mdb.readonly (state.mdb.owner cursor) = true ∨
      state.mdb.txns.Live (state.mdb.owner cursor))
  alone : ∀ object other cursor, state.cursorPointer object = some cursor →
    state.cursorPointer other = some cursor → other = object
  newTxn : ∀ object, state.txnCount ≤ object → state.txns object = none
  newCursor : ∀ object, state.cursorCount ≤ object → state.cursors object = none

private theorem txnPointer_update (state : State) (object : ℕ) (tw : Option TxnObject) :
    (fun other => (Function.update state.txns object tw other).bind TxnObject.txn) =
      Function.update state.txnPointer object (tw.bind TxnObject.txn) := by
  funext other
  by_cases same : other = object
  · subst same
    simp only [Function.update_self]
  · simp only [Function.update_of_ne same, State.txnPointer]

private theorem cursorPointer_update (state : State) (object : ℕ) (cw : Option CursorObject) :
    (fun other => (Function.update state.cursors object cw other).bind CursorObject.cursor) =
      Function.update state.cursorPointer object (cw.bind CursorObject.cursor) := by
  funext other
  by_cases same : other = object
  · subst same
    simp only [Function.update_self]
  · simp only [Function.update_of_ne same, State.cursorPointer]

namespace Sound

variable {state : State}

private theorem usable_iff (sound : Sound state) {object : ℕ} :
    state.Usable object ↔
      ∃ cursor, state.cursorPointer object = some cursor ∧ state.mdb.cursors.Live cursor := by
  refine exists_congr fun cursor => and_congr_right fun held => ?_
  rw [(sound.cursors object cursor held).2.2, sound.txns.live_iff]
  rfl

theorem passed (sound : Sound state) (calls : List (Call × Bool)) :
    Sound { state with mdb := { state.mdb with calls := calls } } :=
  { sound with }

/-- An object without a transaction begins one. -/
theorem beginTxn (sound : Sound state) {object count : ℕ} (idle : state.txnPointer object = none)
    (below : object < count) (grown : state.txnCount ≤ count) (readonly readonly' : Bool) :
    Sound { state with
      mdb := state.mdb.beginTxn readonly
      txns := Function.update state.txns object (some ⟨readonly', some state.mdb.txns.created⟩)
      txnCount := count } := by
  refine { sound with txns := ?_, cursors := ?_, newTxn := ?_ }
  · exact (sound.txns.alloc idle).congr (txnPointer_update state object _)
  · intro object cursor held
    obtain ⟨known, owner, live⟩ := sound.cursors object cursor held
    refine ⟨known, Nat.lt_succ_of_lt owner, live.trans ?_⟩
    simp only [Mdb.beginTxn, sound.txns.live_alloc, owner.ne, or_false, ne_eq, not_false_eq_true,
      Function.update_of_ne]
  · intro other (above : count ≤ other)
    have ne : other ≠ object := by omega
    simp only [Function.update_of_ne ne]
    exact sound.newTxn other (grown.trans above)

/-- An object ends its transaction and forgets it, or is finalized. -/
theorem endTxn (sound : Sound state) {object txn : ℕ} (held : state.txnPointer object = some txn)
    (fn : TxnFn) {tw : Option TxnObject} (forgotten : tw.bind TxnObject.txn = none) :
    Sound ({ state with mdb := state.mdb.endTxn fn txn }.setTxn object tw) := by
  have known : object < state.txnCount := by
    by_contra above
    rw [State.txnPointer, sound.newTxn object (Nat.le_of_not_lt above)] at held
    exact nomatch held
  refine { sound with txns := ?_, cursorHeap := ?_, cursors := ?_, newTxn := ?_ }
  · have pointers := txnPointer_update state object tw
    rw [forgotten] at pointers
    have heap : (state.mdb.endTxn fn txn).txns = _ := Mdb.endTxn_txns
    exact heap ▸ (sound.txns.free held).congr pointers
  · exact Mdb.endTxn_sound sound.cursorHeap
  · intro object cursor held'
    obtain ⟨known, owner, live⟩ := sound.cursors object cursor held'
    simp only [State.setTxn, Mdb.endTxn_created, Mdb.endTxn_owner, Mdb.endTxn_readonly,
      Mdb.endTxn_txns, Mdb.live_endTxn, Heap.live_free, List.mem_singleton]
    refine ⟨known, owner, ?_⟩
    rw [live]
    -- A read-only transaction leaves its cursors, whichever transaction ends here.
    by_cases same : state.mdb.owner cursor = txn
    · subst same
      tauto
    · tauto
  · intro other (above : state.txnCount ≤ other)
    have ne : other ≠ object := by omega
    simp only [State.setTxn, Function.update_of_ne ne]
    exact sound.newTxn other above

/-- An object that has no transaction is finalized. -/
theorem dropTxn (sound : Sound state) {object : ℕ} (idle : state.txnPointer object = none) :
    Sound (state.setTxn object none) := by
  refine { sound with txns := sound.txns.congr ?_, newTxn := ?_ }
  · refine (txnPointer_update state object none).trans ?_
    rw [Option.bind_none, ← idle, Function.update_eq_self]
  · intro other (above : state.txnCount ≤ other)
    by_cases same : other = object
    · simp [State.setTxn, same]
    · simp only [State.setTxn, Function.update_of_ne same]
      exact sound.newTxn other above

/-- A cursor is opened on an open transaction. -/
theorem openCursor (sound : Sound state) {txn : ℕ} (live : state.mdb.txns.Live txn) :
    Sound { state with
      mdb := state.mdb.openCursor txn
      cursors := Function.update state.cursors state.cursorCount
        (some ⟨some state.mdb.cursors.created⟩)
      cursorCount := state.cursorCount + 1 } := by
  have pointers := cursorPointer_update state state.cursorCount
    (some ⟨some state.mdb.cursors.created⟩)
  refine { sound with
    cursorHeap := sound.cursorHeap.alloc, cursors := ?_, alone := ?_, newCursor := ?_ }
  · intro object cursor held
    rw [Mdb.openCursor, sound.cursorHeap.live_alloc]
    rcases Heap.update_eq_some ((congrFun pointers object).symm.trans held) with ⟨-, new⟩ | ⟨-, held⟩
    · obtain rfl := Option.some.inj new
      simp [Heap.alloc, live, live.1]
    · obtain ⟨known, owner, iff⟩ := sound.cursors object cursor held
      simp only [Function.update_of_ne known.ne, known.ne, or_false]
      exact ⟨Nat.lt_succ_of_lt known, owner, iff⟩
  · intro first second cursor held held'
    rcases Heap.update_eq_some ((congrFun pointers first).symm.trans held) with ⟨same, new⟩ | ⟨-, held⟩ <;>
      rcases Heap.update_eq_some ((congrFun pointers second).symm.trans held') with
        ⟨same', new'⟩ | ⟨-, held'⟩
    · exact same'.trans same.symm
    · exact absurd (Option.some.inj new).symm (sound.cursors second cursor held').1.ne
    · exact absurd (Option.some.inj new').symm (sound.cursors first cursor held).1.ne
    · exact sound.alone first second cursor held held'
  · intro other (above : state.cursorCount + 1 ≤ other)
    have ne : other ≠ state.cursorCount := by omega
    simp only [Function.update_of_ne ne]
    exact sound.newCursor other (by omega)

/-- An object closes its cursor and forgets it, or is finalized. -/
theorem closeCursor (sound : Sound state) {object cursor : ℕ}
    (held : state.cursorPointer object = some cursor) (live : state.mdb.cursors.Live cursor)
    {cw : Option CursorObject} (forgotten : cw.bind CursorObject.cursor = none) :
    Sound ({ state with mdb := state.mdb.closeCursor (some cursor) }.setCursor object cw) := by
  have known : object < state.cursorCount := by
    by_contra above
    rw [State.cursorPointer, sound.newCursor object (Nat.le_of_not_lt above)] at held
    exact nomatch held
  have pointers := cursorPointer_update state object cw
  rw [forgotten] at pointers
  have others : ∀ other found,
      (state.setCursor object cw).cursorPointer other = some found →
        other ≠ object ∧ state.cursorPointer other = some found := by
    intro other found held
    have moved := Heap.update_eq_some ((congrFun pointers other).symm.trans held)
    exact moved.resolve_left nofun
  refine { sound with cursorHeap := ?_, cursors := ?_, alone := ?_, newCursor := ?_ }
  · refine sound.cursorHeap.free (List.nodup_singleton _) ?_
    intro other mem
    exact List.mem_singleton.mp mem ▸ live
  · intro other found after
    obtain ⟨ne, held'⟩ := others other found after
    obtain ⟨known, owner, iff⟩ := sound.cursors other found held'
    refine ⟨known, owner, Iff.trans ?_ iff⟩
    have different : found ≠ cursor := by
      rintro rfl
      exact ne (sound.alone object other found held held')
    exact Heap.live_free.trans (by simp [different])
  · intro first second found held held'
    exact sound.alone first second found (others first found held).2 (others second found held').2
  · intro other (above : state.cursorCount ≤ other)
    have ne : other ≠ object := by omega
    simp only [State.setCursor, Function.update_of_ne ne]
    exact sound.newCursor other above

/-- An object whose cursor has been closed is finalized. -/
theorem dropCursor (sound : Sound state) {object : ℕ} (idle : state.cursorPointer object = none) :
    Sound (state.setCursor object none) := by
  have same : (state.setCursor object none).cursorPointer = state.cursorPointer := by
    refine (cursorPointer_update state object none).trans ?_
    rw [Option.bind_none, ← idle, Function.update_eq_self]
  refine { sound with cursors := same ▸ sound.cursors, alone := same ▸ sound.alone, newCursor := ?_ }
  intro other (above : state.cursorCount ≤ other)
  by_cases same : other = object
  · simp [State.setCursor, same]
  · simp only [State.setCursor, Function.update_of_ne same]
    exact sound.newCursor other above

end Sound

theorem start_sound : Sound .start where
  txns := ⟨Heap.empty_sound, nofun, nofun, fun _ live => absurd live Heap.not_live_empty⟩
  cursorHeap := Heap.empty_sound
  cursors := nofun
  alone := nofun
  newTxn := fun _ _ => rfl
  newCursor := fun _ _ => rfl

/-- What an action does, if it is careful and if it is not. -/
structure Verdict (state : State) (careful : Prop) (next : State) : Prop where
  sound : careful → Sound next
  clean : next.mdb.Clean ↔ state.mdb.Clean ∧ careful

section Actions

variable {state : State} {object : ℕ}

theorem Verdict.same (sound : Sound state) : Verdict state True state :=
  ⟨fun _ => sound, by simp⟩

private theorem txnPointer_of_some {tw : TxnObject} (found : state.txns object = some tw) :
    state.txnPointer object = tw.txn := by
  rw [State.txnPointer, found, Option.bind_some]

private theorem cursorPointer_of_some {cw : CursorObject} (found : state.cursors object = some cw) :
    state.cursorPointer object = cw.cursor := by
  rw [State.cursorPointer, found, Option.bind_some]

/-- A pointer that a `Txn` object has is passed. -/
theorem Verdict.passTxn (sound : Sound state) {txn : ℕ}
    (held : state.txnPointer object = some txn) (fn : TxnFn) :
    Verdict state True { state with mdb := state.mdb.passTxn fn (some txn) } := by
  refine ⟨fun _ => sound.passed _, ?_⟩
  simp [Mdb.clean_passTxn, sound.txns.live object txn held]

theorem Verdict.endTxn (sound : Sound state) {txn : ℕ}
    (held : state.txnPointer object = some txn) (fn : TxnFn) {tw : Option TxnObject}
    (forgotten : tw.bind TxnObject.txn = none) :
    Verdict state True ({ state with mdb := state.mdb.endTxn fn txn }.setTxn object tw) := by
  refine ⟨fun _ => sound.endTxn held fn forgotten, ?_⟩
  exact Mdb.clean_endTxn.trans (by simp [sound.txns.live object txn held])

/-- The pointer of a `Cursor` object is passed, whatever it is. -/
theorem Verdict.passCursor (sound : Sound state) {cw : CursorObject}
    (found : state.cursors object = some cw) (fn : CursorFn) :
    Verdict state (state.Usable object)
      { state with mdb := state.mdb.passCursor fn cw.cursor } := by
  refine ⟨fun _ => sound.passed _, ?_⟩
  rw [Mdb.clean_passCursor, sound.usable_iff, cursorPointer_of_some found]

private theorem txnCtor_verdict (sound : Sound state) (rc : Option Rc) (readonly : Bool) :
    Verdict state True (txnCtor rc readonly state).2 := by
  cases rc with
  | some rc => exact .same sound
  | none =>
    have idle : state.txnPointer state.txnCount = none := by
      rw [State.txnPointer, sound.newTxn _ le_rfl, Option.bind_none]
    refine ⟨fun _ => sound.beginTxn idle (Nat.lt_succ_self _) (Nat.le_succ _) _ _, ?_⟩
    exact Mdb.clean_beginTxn.trans (by simp)

section Txns

variable {tw : TxnObject} (found : state.txns object = some tw)
include found

private theorem txnCommit_verdict (sound : Sound state) (rc : Option Rc) :
    Verdict state True (txnCommit rc object tw state).2 := by
  have pointer := txnPointer_of_some found
  unfold txnCommit
  cases held : tw.txn with
  | none => exact .same sound
  | some txn => exact .endTxn sound (pointer.trans held) .commit rfl

private theorem txnAbort_verdict (sound : Sound state) :
    Verdict state True (txnAbort object tw state).2 := by
  have pointer := txnPointer_of_some found
  unfold txnAbort
  cases held : tw.txn with
  | none => exact .same sound
  | some txn => exact .endTxn sound (pointer.trans held) .abort rfl

private theorem txnReset_verdict (sound : Sound state) : Verdict state True
    (txnReset tw state).2 := by
  have pointer := txnPointer_of_some found
  unfold txnReset
  cases held : tw.txn with
  | none => exact .same sound
  | some txn =>
    cases tw.readonly with
    | false => exact .same sound
    | true => exact .passTxn sound (pointer.trans held) .reset

private theorem txnRenew_verdict (sound : Sound state) (rc : Option Rc) :
    Verdict state True (txnRenew rc object tw state).2 := by
  have pointer := txnPointer_of_some found
  unfold txnRenew
  cases tw.readonly with
  | true =>
    cases held : tw.txn with
    | none => exact .same sound
    | some txn => exact .passTxn sound (pointer.trans held) .renew
  | false =>
    cases held : tw.txn with
    | some txn => exact .same sound
    | none =>
      cases rc with
      | some rc => exact .same sound
      | none =>
        have known : object < state.txnCount := by
          by_contra above
          exact nomatch (sound.newTxn object (Nat.le_of_not_lt above)).symm.trans found
        refine ⟨fun _ => sound.beginTxn (pointer.trans held) known le_rfl _ _, ?_⟩
        exact Mdb.clean_beginTxn.trans (by simp)

private theorem txnDtor_verdict (sound : Sound state) : Verdict state True
    (txnDtor object tw state) := by
  have pointer := txnPointer_of_some found
  unfold txnDtor
  cases held : tw.txn with
  | none => exact ⟨fun _ => sound.dropTxn (pointer.trans held), by simp [State.setTxn]⟩
  | some txn => exact .endTxn sound (pointer.trans held) .abort rfl

private theorem cursorCtor_verdict (sound : Sound state) (rc : Option Rc) :
    Verdict state (state.txnPointer object ≠ none) (cursorCtor rc tw state).2 := by
  have pointer := txnPointer_of_some found
  unfold cursorCtor
  cases held : tw.txn with
  | none =>
    rw [pointer, held]
    refine ⟨fun opened => absurd rfl opened, ?_⟩
    simp [Mdb.clean_passTxn]
  | some txn =>
    have live := sound.txns.live object txn (pointer.trans held)
    have passed := Verdict.passTxn sound (pointer.trans held) .cursorOpen
    have opened : state.txnPointer object ≠ none := by simp [pointer, held]
    cases rc with
    | some rc => exact ⟨fun _ => passed.sound trivial, passed.clean.trans (by simp [opened])⟩
    | none =>
      exact ⟨fun _ => (passed.sound trivial).openCursor live, passed.clean.trans (by simp [opened])⟩

end Txns

section Cursors

variable {cw : CursorObject} (found : state.cursors object = some cw)
include found

private theorem cursorClose_verdict (sound : Sound state) :
    Verdict state (state.Usable object) (cursorClose object cw state).2 := by
  have pointer := cursorPointer_of_some found
  constructor
  · intro usable
    obtain ⟨cursor, held, live⟩ := sound.usable_iff.mp usable
    rw [cursorClose, ← pointer, held]
    exact sound.closeCursor held live rfl
  · rw [sound.usable_iff, pointer]
    exact Mdb.clean_closeCursor

private theorem cursorDtor_verdict (sound : Sound state) :
    Verdict state (state.cursorPointer object = none ∨ state.Usable object)
      (cursorDtor object cw state) := by
  have pointer := cursorPointer_of_some found
  unfold cursorDtor
  rw [sound.usable_iff, pointer]
  cases held : cw.cursor with
  | none => exact ⟨fun _ => sound.dropCursor (pointer.trans held), by simp [State.setCursor]⟩
  | some cursor =>
    constructor
    · rintro (closed | ⟨_, same, live⟩)
      · exact nomatch closed
      · obtain rfl := Option.some.inj same
        exact sound.closeCursor (pointer.trans held) live rfl
    · exact Mdb.clean_closeCursor.trans (by simp)

end Cursors

private theorem acted_on {α : Type*} {found : Option α} {method : α → Result Reply × State}
    {result : Result Reply} {next : State} (acted : found.map method = some (result, next)) :
    ∃ wrapper, found = some wrapper ∧ next = (method wrapper).2 := by
  obtain ⟨wrapper, found, ended⟩ := Option.map_eq_some_iff.mp acted
  exact ⟨wrapper, found, (congrArg Prod.snd ended).symm⟩

/-- After a careful action everything is in order; any other action passes a pointer that is not
live. -/
theorem Step.verdict (sound : Sound state) {action : Action} {next : State}
    (step : Step state action next) : Verdict state (Careful state action) next := by
  obtain ⟨rc, result, acted⟩ := step
  cases action with
  | beginTxn readonly =>
    obtain rfl : next = (txnCtor rc readonly state).2 :=
      (congrArg Prod.snd (Option.some.inj acted)).symm
    exact txnCtor_verdict sound rc readonly
  | commit txn =>
    obtain ⟨tw, found, rfl⟩ := acted_on acted
    exact txnCommit_verdict found sound rc
  | abort txn =>
    obtain ⟨tw, found, rfl⟩ := acted_on acted
    exact txnAbort_verdict found sound
  | reset txn =>
    obtain ⟨tw, found, rfl⟩ := acted_on acted
    exact txnReset_verdict found sound
  | renew txn =>
    obtain ⟨tw, found, rfl⟩ := acted_on acted
    exact txnRenew_verdict found sound rc
  | finalizeTxn txn =>
    obtain ⟨tw, found, rfl⟩ := acted_on acted
    exact txnDtor_verdict found sound
  | openCursor txn =>
    obtain ⟨tw, found, rfl⟩ := acted_on acted
    exact cursorCtor_verdict found sound rc
  | move move cursor =>
    obtain ⟨cw, found, rfl⟩ := acted_on acted
    exact .passCursor sound found _
  | key cursor =>
    obtain ⟨cw, found, rfl⟩ := acted_on acted
    exact .passCursor sound found _
  | val cursor =>
    obtain ⟨cw, found, rfl⟩ := acted_on acted
    exact .passCursor sound found _
  | del cursor =>
    obtain ⟨cw, found, rfl⟩ := acted_on acted
    exact .passCursor sound found _
  | close cursor =>
    obtain ⟨cw, found, rfl⟩ := acted_on acted
    exact cursorClose_verdict found sound
  | finalizeCursor cursor =>
    obtain ⟨cw, found, rfl⟩ := acted_on acted
    exact cursorDtor_verdict found sound

end Actions

/-- What is asked of the wrappers. -/
structure Safe (state : State) : Prop where
  /-- Every pointer passed to LMDB was created by it and not freed yet. -/
  passed : ∀ call ∈ state.mdb.calls, call.2 = true
  txnsOnce : state.mdb.txns.freed.Nodup
  cursorsOnce : state.mdb.cursors.freed.Nodup
  /-- A transaction is still open in one object, or it has been ended exactly once. -/
  ended : ∀ txn, txn < state.mdb.txns.created →
    (∃! object, state.txnPointer object = some txn) ∧ state.mdb.txns.freed.count txn = 0 ∨
      ¬state.Open txn ∧ state.mdb.txns.freed.count txn = 1

theorem Sound.safe {state : State} (sound : Sound state) (clean : state.mdb.Clean) :
    Safe state := by
  refine ⟨clean, sound.txns.nodup, sound.cursorHeap.nodup, ?_⟩
  intro txn known
  by_cases freed : txn ∈ state.mdb.txns.freed
  · have dead : ¬state.mdb.txns.Live txn := fun live => live.2 freed
    exact .inr ⟨fun opened => dead (sound.txns.live_iff.mpr opened),
      List.count_eq_one_of_mem sound.txns.nodup freed⟩
  · obtain ⟨object, held⟩ := sound.txns.kept txn ⟨known, freed⟩
    exact .inl ⟨⟨object, held, fun other held' => sound.txns.alone object other txn held held'⟩,
      List.count_eq_zero_of_not_mem freed⟩

/-- As long as a script is careful its handles are safe, and the first careless call is not. -/
theorem handles_live_while_careful {actions : List Action} {state : State}
    (run : Runs (Guarded Careful Step) .start actions state) :
    Safe state ∧ ∀ action next, Step state action next → (Safe next ↔ Careful state action) := by
  have kept : Sound state ∧ state.mdb.Clean := by
    refine run.preserves (fun _ state => Sound state ∧ state.mdb.Clean) ⟨start_sound, nofun⟩ ?_
    rintro _ state action next ⟨sound, clean⟩ ⟨careful, step⟩
    have verdict := step.verdict sound
    exact ⟨verdict.sound careful, verdict.clean.mpr ⟨clean, careful⟩⟩
  obtain ⟨sound, clean⟩ := kept
  refine ⟨sound.safe clean, ?_⟩
  intro action next step
  have verdict := step.verdict sound
  constructor
  · intro safe
    exact (verdict.clean.mp safe.passed).2
  · intro careful
    exact (verdict.sound careful).safe (verdict.clean.mpr ⟨clean, careful⟩)

/-- A cursor of a write transaction, used and closed before the commit. -/
theorem handles_live_in_order : ∃ state,
    Runs (Guarded Careful Step) .start
      [.beginTxn false, .openCursor 0, .move .first 0, .close 0, .commit 0] state ∧
    Safe state ∧ ∀ action next, Step state action next → (Safe next ↔ Careful state action) := by
  have run : Runs (Guarded Careful Step) .start
      [.beginTxn false, .openCursor 0, .move .first 0, .close 0, .commit 0] _ :=
    .snoc (.snoc (.snoc (.snoc (.snoc .nil ⟨trivial, none, _, rfl⟩)
      ⟨nofun, none, _, rfl⟩) ⟨⟨0, rfl, .inr ⟨0, rfl⟩⟩, none, _, rfl⟩)
      ⟨⟨0, rfl, .inr ⟨0, rfl⟩⟩, none, _, rfl⟩) ⟨trivial, none, _, rfl⟩
  exact ⟨_, run, handles_live_while_careful run⟩

/-- A cursor that is left open when its write transaction commits: the next movement uses freed
memory, and the close frees it again. -/
theorem cursor_dangles_after_commit : ∃ state,
    Runs Step .start [.beginTxn false, .openCursor 0, .commit 0, .move .next 0, .close 0] state ∧
    (Call.cursor (.get .next) (some 0), false) ∈ state.mdb.calls ∧
    ¬state.mdb.cursors.freed.Nodup := by
  have run : Runs Step .start
      [.beginTxn false, .openCursor 0, .commit 0, .move .next 0, .close 0] _ :=
    .snoc (.snoc (.snoc (.snoc (.snoc .nil ⟨none, _, rfl⟩) ⟨none, _, rfl⟩) ⟨none, _, rfl⟩)
      ⟨none, _, rfl⟩) ⟨none, _, rfl⟩
  exact ⟨_, run, by decide, by decide⟩

end NodeKv.Lmdb.Handles
