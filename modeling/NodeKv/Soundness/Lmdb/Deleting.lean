import Mathlib.Data.List.Chain
import NodeKv.Machine.Places
import NodeKv.Proofs.Lmdb.Deleting

/-! # Deleting while going over a database

For every sequence of calls, a cursor of a database without duplicates answers as a place among the
pairs would, and deletes the pair that it would show. So a loop that deletes some of the pairs it
comes to is understood by following the place: forwards every pair is visited once, if nothing is read
between a deletion and the next step; backwards this does not matter, but a loop that deletes
everything ends with a step that reads outside of the tree.
-/

namespace NodeKv.Lmdb.Deleting

open Machine

section Runs

variable {σ τ : Type*}

/-- Calls one after the other, with all answers. Nothing is said of what is behind an answer that is
not known: a `del` may have deleted any pair. -/
def performAll (step : σ → Call → Answer Reply × σ) : List Call → σ → List (Answer Reply) × Option σ
  | [], state => ([], some state)
  | call :: rest, state =>
    let (answer, next) := step state call
    if answer = .unknown then ([.unknown], none)
    else
      let (answers, last) := performAll step rest next
      (answer :: answers, last)

/-- Go on with a call that has been answered. -/
def andThen (performed : Answer Reply × σ) (next : σ → Answer Reply × σ) : Answer Reply × σ :=
  match performed with
  | (.ok _, state) => next state
  | failed => failed

@[simp] theorem andThen_ok (reply : Reply) (state : σ) (next : σ → Answer Reply × σ) :
    andThen (.ok reply, state) next = next state := rfl

@[simp] theorem andThen_throws (error : Error) (state : σ) (next : σ → Answer Reply × σ) :
    andThen (.throws error, state) next = (.throws error, state) := rfl

/-- What is done with a pair: it may be deleted, and something may be read after that. -/
def treat (step : σ → Call → Answer Reply × σ) (rereads : Bool) (test : Pair → Bool) (pair : Pair)
    (state : σ) : Answer Reply × σ :=
  if test pair then
    andThen (step state .del) fun state => if rereads then step state .read else (.ok .done, state)
  else (.ok .done, state)

/-- A loop from where a movement has led, for some passes: read the pair, treat it and move on, until
a movement finds nothing. The pairs that were visited, the last answer and the state. -/
def sweep (step : σ → Call → Answer Reply × σ) (onward : Op) (rereads : Bool) (test : Pair → Bool) :
    ℕ → Answer Reply × σ → List Pair × Answer Reply × σ
  | 0, performed => ([], performed)
  | passes + 1, (answer, state) =>
    if answer = .ok (.found true) then
      match step state .read with
      | (.ok (.pair (some pair)), state) =>
        let (visited, ended) := sweep step onward rereads test passes
          (andThen (treat step rereads test pair state) fun state => step state (.move onward))
        (pair :: visited, ended)
      | performed => ([], performed)
    else ([], answer, state)

/-- Two machines that answer calls alike. -/
def Follows (related : σ → τ → Prop) (step : σ → Call → Answer Reply × σ)
    (step' : τ → Call → Answer Reply × τ) : Prop :=
  ∀ state state' call, related state state' →
    (step state call).1 = (step' state' call).1 ∧ related (step state call).2 (step' state' call).2

variable {related : σ → τ → Prop} {step : σ → Call → Answer Reply × σ}
  {step' : τ → Call → Answer Reply × τ} {state : σ} {state' : τ}

private theorem performAll_follows (follows : Follows related step step')
    (states : related state state')
    (calls : List Call) :
    (performAll step calls state).1 = (performAll step' calls state').1 ∧
      Option.Rel related (performAll step calls state).2 (performAll step' calls state').2 := by
  induction calls generalizing state state' with
  | nil => exact ⟨rfl, .some states⟩
  | cons call rest ih =>
    obtain ⟨answer, next⟩ := follows state state' call states
    simp only [performAll, ← answer]
    split_ifs with lost
    · exact ⟨rfl, .none⟩
    · obtain ⟨answers, last⟩ := ih next
      exact ⟨congrArg (List.cons _) answers, last⟩

private theorem andThen_follows {performed : Answer Reply × σ} {performed' : Answer Reply × τ}
    (answer : performed.1 = performed'.1) (states : related performed.2 performed'.2)
    {next : σ → Answer Reply × σ} {next' : τ → Answer Reply × τ}
    (follows : ∀ state state', related state state' →
      (next state).1 = (next' state').1 ∧ related (next state).2 (next' state').2) :
    (andThen performed next).1 = (andThen performed' next').1 ∧
      related (andThen performed next).2 (andThen performed' next').2 := by
  obtain ⟨given, state⟩ := performed
  obtain ⟨given', state'⟩ := performed'
  obtain rfl : given = given' := answer
  cases given with
  | ok val => exact follows state state' states
  | throws error => exact ⟨rfl, states⟩
  | unknown => exact ⟨rfl, states⟩

private theorem treat_follows (follows : Follows related step step') (states : related state state')
    (rereads : Bool) (test : Pair → Bool) (pair : Pair) :
    (treat step rereads test pair state).1 = (treat step' rereads test pair state').1 ∧
      related (treat step rereads test pair state).2 (treat step' rereads test pair state').2 := by
  unfold treat
  split_ifs with deletes reads
  · obtain ⟨answer, next⟩ := follows state state' .del states
    exact andThen_follows answer next fun state state' states => follows state state' .read states
  · obtain ⟨answer, next⟩ := follows state state' .del states
    exact andThen_follows answer next fun state state' states => ⟨rfl, states⟩
  · exact ⟨rfl, states⟩

private theorem sweep_follows (follows : Follows related step step') (onward : Op) (rereads : Bool)
    (test : Pair → Bool) (passes : ℕ) {performed : Answer Reply × σ} {performed' : Answer Reply × τ}
    (answer : performed.1 = performed'.1) (states : related performed.2 performed'.2) :
    (sweep step onward rereads test passes performed).1 =
        (sweep step' onward rereads test passes performed').1 ∧
      (sweep step onward rereads test passes performed).2.1 =
        (sweep step' onward rereads test passes performed').2.1 ∧
      related (sweep step onward rereads test passes performed).2.2
        (sweep step' onward rereads test passes performed').2.2 := by
  induction passes generalizing performed performed' with
  | zero => exact ⟨rfl, answer, states⟩
  | succ passes ih =>
    obtain ⟨given, state⟩ := performed
    obtain ⟨given', state'⟩ := performed'
    obtain rfl : given = given' := answer
    unfold sweep
    split_ifs with more
    · obtain ⟨shown, settled⟩ := follows state state' .read states
      generalize step state .read = read at shown settled
      generalize step' state' .read = read' at shown settled
      obtain ⟨given, state⟩ := read
      obtain ⟨given', state'⟩ := read'
      obtain rfl : given = given' := shown
      -- only a pair goes on, everything else ends the loop as it is
      rcases given with ((found | (_ | pair) | _) | error | _)
      · exact ⟨rfl, rfl, settled⟩
      · exact ⟨rfl, rfl, settled⟩
      · obtain ⟨treated, next⟩ := treat_follows follows settled rereads test pair
        obtain ⟨moved, next⟩ := andThen_follows treated next fun state state' states =>
          follows state state' (.move onward) states
        obtain ⟨visited, ended, last⟩ := ih moved next
        exact ⟨congrArg _ visited, ended, last⟩
      · exact ⟨rfl, rfl, settled⟩
      · exact ⟨rfl, rfl, settled⟩
      · exact ⟨rfl, rfl, settled⟩
    · exact ⟨rfl, rfl, states⟩

end Runs

/-! ## Loops in terms of places -/

section Loops

variable (db : Db) (rereads : Bool) (test : Pair → Bool)

/-- The pairs that a loop forwards visits; `skips` says that the next one is passed over. -/
def visits : Bool → List Pair → List Pair
  | _, [] => []
  | true, _ :: rest => visits false rest
  | false, pair :: rest => pair :: visits (rereads && test pair) rest

/-- The pairs that a loop forwards leaves. -/
def keeps : Bool → List Pair → List Pair
  | _, [] => []
  | true, pair :: rest => pair :: keeps false rest
  | false, pair :: rest => if test pair then keeps rereads rest else pair :: keeps false rest

variable {db rereads test}

private theorem visits_of_not_rereads (pairs : List Pair) :
    visits false test false pairs = pairs := by
  induction pairs with
  | nil => rfl
  | cons pair rest ih => rw [visits, Bool.false_and, ih]

private theorem keeps_of_not_rereads (pairs : List Pair) :
    keeps false test false pairs = pairs.filter (!test ·) := by
  induction pairs with
  | nil => rfl
  | cons pair rest ih =>
    rw [keeps, List.filter_cons, ih]
    cases test pair <;> rfl

/-- Nothing that should be deleted is passed over exactly if no two neighbours should be deleted. -/
theorem keeps_eq_filter_iff (skips : Bool) (pairs : List Pair) :
    keeps true test skips pairs = pairs.filter (!test ·) ↔
      (skips = true → ∀ pair ∈ pairs.head?, test pair = false) ∧
        pairs.IsChain fun pair next => test pair = true → test next = false := by
  induction pairs generalizing skips with
  | nil => cases skips <;> simp [keeps]
  | cons pair rest ih =>
    rw [List.isChain_cons]
    cases skips with
    | true =>
      rw [keeps]
      cases holds : test pair with
      | false => simp [holds, ih]
      | true =>
        refine iff_of_false ?_ (by simp [holds])
        intro same
        have member : pair ∈ (pair :: rest).filter (!test ·) := by simp [← same]
        simp [holds] at member
    | false =>
      rw [keeps]
      cases holds : test pair <;> simp [holds, ih]

/-- A movement that has found nothing ends the loop. -/
theorem sweep_ended {σ : Type*} {step : σ → Call → Answer Reply × σ} {onward : Op} {passes : ℕ}
    {answer : Answer Reply} {state : σ} (ended : answer ≠ .ok (.found true)) :
    sweep step onward rereads test passes (answer, state) = ([], answer, state) := by
  cases passes with
  | zero => rfl
  | succ passes => rw [sweep, if_neg ended]

/-- One pass of a loop that is on a pair. -/
theorem sweep_at (onward : Op) (passes : ℕ) (before : List Pair) (pair : Pair) (after : List Pair) :
    sweep (Spot.perform db false) onward rereads test (passes + 1)
        (.ok (.found true), .at ⟨before, some pair, after⟩) =
      (pair :: (sweep (Spot.perform db false) onward rereads test passes
        (andThen (treat (Spot.perform db false) rereads test pair (.at ⟨before, some pair, after⟩))
          fun spot => spot.perform db false (.move onward))).1,
      (sweep (Spot.perform db false) onward rereads test passes
        (andThen (treat (Spot.perform db false) rereads test pair (.at ⟨before, some pair, after⟩))
          fun spot => spot.perform db false (.move onward))).2) := rfl

/-- How a loop ends that has deleted everything, or not. -/
def lastAnswer (left : List Pair) (answer : Answer Reply) : Answer Reply :=
  if left = [] then answer else .ok (.found false)

private theorem treat_kept {pair : Pair} (kept : test pair = false) (spot : Spot) :
    treat (Spot.perform db false) rereads test pair spot = (.ok .done, spot) := by
  rw [treat, kept]
  rfl

/-- The only pair is deleted; a cursor is not placed any more then. -/
theorem treat_only {pair : Pair} (deleted : test pair = true) :
    treat (Spot.perform db false) rereads test pair (.at ⟨[], some pair, []⟩) =
      (if rereads then .throws (.mdb .einval) else .ok .done, .emptied) := by
  rw [treat, deleted]
  cases rereads <;> rfl

/-- A pair is deleted that is not the only one. -/
theorem treat_deleted {pair : Pair} {before after : List Pair} (deleted : test pair = true)
    (left : before ++ after ≠ []) : ∃ reply,
    treat (Spot.perform db false) rereads test pair (.at ⟨before, some pair, after⟩) = (.ok reply,
      .at (if rereads then (⟨before, none, after⟩ : Zipper Pair).settle else ⟨before, none, after⟩)) := by
  have delete : Spot.perform db false (.at ⟨before, some pair, after⟩) .del =
      (.ok .done, .at ⟨before, none, after⟩) := by
    simp [Spot.perform, Spot.delete, Zipper.settle, Zipper.remove, Zipper.items, left]
  rw [treat, deleted, if_pos rfl, delete]
  cases rereads with
  | false => exact ⟨.done, rfl⟩
  | true => exact ⟨_, rfl⟩

section Forward

/-- What is known of the loop from the next pair on. -/
def Forwards (db : Db) (rereads : Bool) (test : Pair → Bool) (passes : ℕ) (before pairs : List Pair)
    (performed : Answer Reply × Spot) : Prop :=
  ∃ spot, sweep (Spot.perform db false) .next rereads test passes performed =
      (visits rereads test false pairs,
        lastAnswer (before ++ keeps rereads test false pairs)
          (if rereads then .throws (.mdb .einval) else .ok (.found false)), spot) ∧
    spot.pairs = before ++ keeps rereads test false pairs

/-- The loop goes on from a place. -/
theorem forwards_next {passes : ℕ} (before : List Pair) (here : Option Pair) {after : List Pair}
    (onward : ∀ before pair rest, after = pair :: rest → Forwards db rereads test passes before
      (pair :: rest) (.ok (.found true), .at ⟨before, some pair, rest⟩))
    (left : before ++ here.toList ++ after ≠ []) :
    Forwards db rereads test passes (before ++ here.toList) after
      (Spot.perform db false (.at ⟨before, here, after⟩) (.move .next)) := by
  cases after with
  | cons pair rest => exact onward (before ++ here.toList) pair rest rfl
  | nil =>
    rw [List.append_nil] at left
    have ended : Spot.perform db false (.at ⟨before, here, []⟩) (.move .next) =
        (.ok (.found false), .at ⟨before, here, []⟩) := by cases here <;> rfl
    refine ⟨.at ⟨before, here, []⟩, ?_, ?_⟩
    · rw [ended, sweep_ended (by simp)]
      simp [visits, keeps, lastAnswer, left]
    · simp [Spot.pairs, Zipper.items, keeps]

/-- The only pair is deleted: the loop is at its end, or the read of an empty database throws. -/
private theorem forward_only {pair : Pair} (holds : test pair = true) (passes : ℕ) :
    Forwards db rereads test (passes + 1) [] [pair] (.ok (.found true), .at ⟨[], some pair, []⟩) := by
  unfold Forwards
  rw [sweep_at]
  refine ⟨.emptied, ?_, ?_⟩
  · rw [treat_only holds]
    cases rereads with
    | true =>
      rw [if_pos rfl, andThen_throws, sweep_ended (by simp)]
      simp [visits, keeps, holds, lastAnswer]
    | false =>
      have ended : Spot.perform db false .emptied (.move .next) = (.ok (.found false), .emptied) :=
        rfl
      rw [if_neg Bool.false_ne_true, andThen_ok, ended, sweep_ended (by simp)]
      simp [visits, keeps, holds, lastAnswer]
  · simp [Spot.pairs, keeps, holds]

private theorem forward_at (passes : ℕ) (before : List Pair) (pair : Pair) (after : List Pair)
    (enough : after.length < passes) :
    Forwards db rereads test passes before (pair :: after)
      (.ok (.found true), .at ⟨before, some pair, after⟩) := by
  induction passes generalizing before pair after with
  | zero => omega
  | succ passes ih =>
    have onward : ∀ pairs : List Pair, pairs.length ≤ after.length →
        ∀ before pair rest, pairs = pair :: rest → Forwards db rereads test passes before
          (pair :: rest) (.ok (.found true), .at ⟨before, some pair, rest⟩) := by
      rintro pairs shorter before pair rest rfl
      refine ih before pair rest ?_
      rw [List.length_cons] at shorter
      omega
    cases holds : test pair with
    | false =>
      obtain ⟨spot, swept, pairs⟩ := forwards_next before (some pair) (onward after le_rfl) (by simp)
      unfold Forwards
      rw [sweep_at]
      refine ⟨spot, ?_, ?_⟩
      · rw [treat_kept holds, andThen_ok, swept]
        simp [visits, keeps, holds]
      · rw [pairs]
        simp [keeps, holds]
    | true =>
      by_cases left : before ++ after = []
      · obtain ⟨rfl, rfl⟩ := List.append_eq_nil_iff.mp left
        exact forward_only holds passes
      · obtain ⟨reply, treated⟩ : ∃ reply, treat (Spot.perform db false) rereads test pair
            (.at ⟨before, some pair, after⟩) = (.ok reply, _) := treat_deleted holds left
        unfold Forwards
        rw [sweep_at, treated, andThen_ok]
        cases rereads with
        | false =>
          obtain ⟨spot, swept, pairs⟩ := forwards_next before none (onward after le_rfl) (by simpa using left)
          refine ⟨spot, ?_, ?_⟩
          · rw [if_neg Bool.false_ne_true, swept]
            simp [visits, keeps, holds]
          · rw [pairs]
            simp [keeps, holds]
        | true =>
          -- the read closes the gap, and the next step passes over the pair behind it
          cases after with
          | nil =>
            obtain ⟨spot, swept, pairs⟩ := forwards_next before none (onward [] le_rfl) (by simpa using left)
            refine ⟨spot, ?_, ?_⟩
            · rw [if_pos rfl]
              simp only [Zipper.settle]
              rw [swept]
              simp [visits, keeps, holds]
            · rw [pairs]
              simp [keeps, holds]
          | cons other rest =>
            obtain ⟨spot, swept, pairs⟩ :=
              forwards_next before (some other) (onward rest (by simp)) (by simp)
            refine ⟨spot, ?_, ?_⟩
            · rw [if_pos rfl]
              simp only [Zipper.settle]
              rw [swept]
              simp [visits, keeps, holds]
            · rw [pairs]
              simp [keeps, holds]

end Forward

section Backward

/-- What is known of a loop backwards. -/
def Backwards (db : Db) (rereads : Bool) (test : Pair → Bool) (passes : ℕ) (pairs after : List Pair)
    (performed : Answer Reply × Spot) : Prop :=
  ∃ spot, sweep (Spot.perform db false) .prev rereads test passes performed =
      (pairs.reverse,
        lastAnswer (pairs.filter (!test ·) ++ after)
          (if rereads then .throws (.mdb .einval) else .unknown), spot) ∧
    spot.pairs = pairs.filter (!test ·) ++ after

/-- A step backwards is the same from a gap and from the pair behind it. -/
theorem prev_concat (front : List Pair) (pair : Pair) (here : Option Pair) (after : List Pair) :
    Spot.perform db false (.at ⟨front ++ [pair], here, after⟩) (.move .prev) =
      (.ok (.found true), .at ⟨front, some pair, here.toList ++ after⟩) := by
  simp [Spot.perform, Spot.goTo, Zipper.prev?]

private theorem backwards_prev {passes : ℕ} {before : List Pair} (here : Option Pair)
    (after : List Pair)
    (onward : ∀ front pair after, before = front ++ [pair] → Backwards db rereads test passes
      (front ++ [pair]) after (.ok (.found true), .at ⟨front, some pair, after⟩))
    (left : before ++ here.toList ++ after ≠ []) :
    Backwards db rereads test passes before (here.toList ++ after)
      (Spot.perform db false (.at ⟨before, here, after⟩) (.move .prev)) := by
  rcases List.eq_nil_or_concat before with rfl | ⟨front, pair, rfl⟩
  · have ended : Spot.perform db false (.at ⟨[], here, after⟩) (.move .prev) =
        (.ok (.found false), .at (⟨[], here, after⟩ : Zipper Pair).settle) := rfl
    refine ⟨.at (⟨[], here, after⟩ : Zipper Pair).settle, ?_, ?_⟩
    · rw [ended, sweep_ended (by simp)]
      have some : here.toList ++ after ≠ [] := by simpa using left
      simp [lastAnswer, some]
    · rw [Spot.pairs, Zipper.items_settle]
      rfl
  · rw [List.concat_eq_append, prev_concat]
    exact onward front pair _ (List.concat_eq_append ..)

/-- Whether a gap was closed or not, the same pairs are before it and behind it. -/
theorem gap_or_settled (closed : Bool) (before after : List Pair) : ∃ here rest,
    (if closed then (⟨before, none, after⟩ : Zipper Pair).settle else ⟨before, none, after⟩) =
      ⟨before, here, rest⟩ ∧ here.toList ++ rest = after := by
  cases closed with
  | false => exact ⟨none, after, rfl, rfl⟩
  | true =>
    cases after with
    | nil => exact ⟨none, [], rfl, rfl⟩
    | cons pair rest => exact ⟨some pair, rest, rfl, rfl⟩

private theorem backward_at (passes : ℕ) (before : List Pair) (pair : Pair) (after : List Pair)
    (enough : before.length < passes) :
    Backwards db rereads test passes (before ++ [pair]) after
      (.ok (.found true), .at ⟨before, some pair, after⟩) := by
  induction passes generalizing before pair after with
  | zero => omega
  | succ passes ih =>
    have onward : ∀ front pair after, before = front ++ [pair] → Backwards db rereads test passes
        (front ++ [pair]) after (.ok (.found true), .at ⟨front, some pair, after⟩) := by
      rintro front pair after rfl
      refine ih front pair after ?_
      rw [List.length_append, List.length_singleton] at enough
      omega
    unfold Backwards
    rw [sweep_at]
    cases holds : test pair with
    | false =>
      obtain ⟨spot, swept, pairs⟩ := backwards_prev (some pair) after onward (by simp)
      refine ⟨spot, ?_, ?_⟩
      · rw [treat_kept holds, andThen_ok, swept]
        simp [holds, List.filter_append]
      · rw [pairs]
        simp [holds, List.filter_append]
    | true =>
      by_cases left : before ++ after = []
      · obtain ⟨rfl, rfl⟩ := List.append_eq_nil_iff.mp left
        refine ⟨.emptied, ?_, ?_⟩
        · rw [treat_only holds]
          cases rereads with
          | true =>
            rw [if_pos rfl, andThen_throws, sweep_ended (by simp)]
            simp [holds, lastAnswer]
          | false =>
            have undefined : Spot.perform db false .emptied (.move .prev) = (.unknown, .emptied) := rfl
            rw [if_neg Bool.false_ne_true, andThen_ok, undefined, sweep_ended (by simp)]
            simp [holds, lastAnswer]
        · simp [Spot.pairs, holds]
      · obtain ⟨reply, treated⟩ : ∃ reply, treat (Spot.perform db false) rereads test pair
            (.at ⟨before, some pair, after⟩) = (.ok reply, _) := treat_deleted holds left
        obtain ⟨here, rest, place, same⟩ := gap_or_settled rereads before after
        subst same
        rw [treated, andThen_ok, place]
        obtain ⟨spot, swept, pairs⟩ := backwards_prev here rest onward (by simpa using left)
        refine ⟨spot, ?_, ?_⟩
        · rw [swept]
          simp [holds, List.filter_append]
        · rw [pairs]
          simp [holds, List.filter_append]

end Backward

end Loops

section Main

variable {db : Db} {store : Store}

/-- A cursor of a transaction stands at a place, and has left other databases alone. -/
def At (store : Store) (readonly : Bool) (state : State db) (spot : Spot) : Prop :=
  Stands state.pairs state.cursor spot ∧ state.readonly = readonly ∧
    ∀ dbi, dbi ≠ db.dbi → state.store dbi = store dbi

theorem perform_follows (store : Store) (readonly : Bool) :
    Follows (At store readonly) (perform : State db → _) (Spot.perform db readonly) := by
  rintro state spot call ⟨stands, rfl, others⟩
  have alike := perform_alike stands call
  exact ⟨alike.answer, alike.stands, alike.readonly,
    fun dbi ne => (alike.others dbi ne).trans (others dbi ne)⟩

theorem opened_at (readonly : Bool) (contents : Contents db store)
    (plain : db.allowDup = false) (single : ∀ key, (store db.dbi key).length ≤ 1) :
    At store readonly (.opened readonly contents plain single) (.fresh contents.pairs) :=
  ⟨.fresh _ _, rfl, fun _ _ => rfl⟩

/-- A store with these pairs only. -/
def storeOf (db : Db) (pairs : List Pair) : Store := fun dbi key =>
  if dbi = db.dbi then (pairs.filter (·.1 == key)).map Prod.snd else []

theorem mem_storeOf (db : Db) (pairs : List Pair) (key val : Bytes) :
    (key, val) ∈ pairs ↔ val ∈ storeOf db pairs db.dbi key := by
  rw [storeOf, if_pos rfl]
  constructor
  · intro member
    exact List.mem_map.mpr ⟨(key, val), List.mem_filter.mpr ⟨member, beq_self_eq_true key⟩, rfl⟩
  · intro member
    obtain ⟨⟨other, _⟩, found, rfl⟩ := List.mem_map.mp member
    obtain ⟨stored, same⟩ := List.mem_filter.mp found
    obtain rfl : other = key := eq_of_beq same
    exact stored

private theorem storeOf_single (db : Db) {pairs : List Pair} (distinct : (pairs.map Prod.fst).Nodup)
    (key : Bytes) : (storeOf db pairs db.dbi key).length ≤ 1 := by
  rw [storeOf, if_pos rfl, List.length_map, ← List.countP_eq_length_filter]
  have count := List.nodup_iff_count_le_one.mp distinct key
  rw [List.count, List.countP_map] at count
  exact count

/-- Three pairs in a database of binary keys. -/
def threeDb : Db := ⟨2, .binary, .binary, false⟩

def threePairs : List Pair := [([1], [10]), ([2], [20]), ([3], [30])]

def threeContents : Contents threeDb (storeOf threeDb threePairs) where
  pairs := threePairs
  mem_pairs := mem_storeOf threeDb threePairs
  ordered := by decide

private theorem threeContents_single (key : Bytes) :
    (storeOf threeDb threePairs threeDb.dbi key).length ≤ 1 :=
  storeOf_single threeDb (by decide) key

/-- The loop from the first pair on, or from the first one that is not below a key. -/
def startOf : Option Bytes → Op
  | none => .first
  | some key => .setRange key

/-- The pairs that are before the start of the loop. -/
def isBefore (db : Db) (start : Option Bytes) (pair : Pair) : Bool :=
  start.any fun key => !(db.keyType.compare pair.1 key).isGE

/-- The loop starts at the first pair that is not before its start, or comes to none. -/
theorem start_found (pairs : List Pair) {start : Option Bytes} (sized : start ≠ some [])
    {pair : Pair}
    {rest : List Pair} (onward : pairs.dropWhile (isBefore db start) = pair :: rest) :
    Spot.perform db false (.fresh pairs) (.move (startOf start)) =
      (.ok (.found true), .at ⟨pairs.takeWhile (isBefore db start), some pair, rest⟩) := by
  cases start with
  | none =>
    cases pairs with
    | nil => cases onward
    | cons first others =>
      obtain ⟨rfl, rfl⟩ := List.cons.inj onward
      rfl
  | some key =>
    have nonempty : key ≠ [] := fun empty => sized (congrArg some empty)
    have before : (fun pair : Pair => !(db.keyType.compare pair.1 key).isGE) = isBefore db (some key) :=
      rfl
    simp only [startOf, Spot.perform, Spot.search, if_neg nonempty, Spot.pairs, Zipper.find?, before,
      onward]

private theorem start_none (pairs : List Pair) {start : Option Bytes} (sized : start ≠ some [])
    (onward : pairs.dropWhile (isBefore db start) = []) :
    ∃ spot, Spot.perform db false (.fresh pairs) (.move (startOf start)) = (.ok (.found false), spot) ∧
      spot.pairs = pairs := by
  cases start with
  | none =>
    cases pairs with
    | nil => exact ⟨.fresh [], rfl, rfl⟩
    | cons first others => cases onward
  | some key =>
    have nonempty : key ≠ [] := fun empty => sized (congrArg some empty)
    have before : (fun pair : Pair => !(db.keyType.compare pair.1 key).isGE) = isBefore db (some key) :=
      rfl
    have missed : Zipper.find? (fun pair => (db.keyType.compare pair.1 key).isGE) pairs = none := by
      rw [Zipper.find?, before, onward]
    exact Spot.search_missed nonempty missed

/-- A loop forwards, from a new cursor on. -/
theorem forward_from_start (db : Db) (pairs : List Pair) {start : Option Bytes}
    (sized : start ≠ some [])
    (rereads : Bool) (test : Pair → Bool) {passes : ℕ} (enough : pairs.length < passes) :
    ∃ answer spot, sweep (Spot.perform db false) .next rereads test passes
        (Spot.perform db false (.fresh pairs) (.move (startOf start))) =
      (visits rereads test false (pairs.dropWhile (isBefore db start)), answer, spot) ∧
      (rereads = false → answer = .ok (.found false)) ∧
      spot.pairs = pairs.takeWhile (isBefore db start) ++
        keeps rereads test false (pairs.dropWhile (isBefore db start)) := by
  have whole := List.takeWhile_append_dropWhile (p := isBefore db start) (l := pairs)
  cases onward : pairs.dropWhile (isBefore db start) with
  | nil =>
    rw [onward] at whole
    obtain ⟨spot, moved, same⟩ := start_none pairs sized onward
    rw [moved]
    exact ⟨.ok (.found false), spot, sweep_ended (by simp), fun _ => rfl, same.trans whole.symm⟩
  | cons pair rest =>
    have shorter : rest.length < passes := by
      have length := congrArg List.length whole
      rw [onward, List.length_append, List.length_cons] at length
      omega
    obtain ⟨spot, swept, left⟩ : Forwards db rereads test passes _ _ _ :=
      forward_at passes (pairs.takeWhile (isBefore db start)) pair rest shorter
    rw [start_found pairs sized onward]
    refine ⟨_, spot, swept, ?_, left⟩
    rintro rfl
    simp [lastAnswer]

/-- A loop backwards, from a new cursor on. -/
theorem backward_from_last (db : Db) (pairs : List Pair) (rereads : Bool) (test : Pair → Bool)
    {passes : ℕ} (enough : pairs.length < passes) :
    ∃ spot, sweep (Spot.perform db false) .prev rereads test passes
        (Spot.perform db false (.fresh pairs) (.move .last)) =
      (pairs.reverse, if pairs = [] then .ok (.found false) else
        lastAnswer (pairs.filter (!test ·)) (if rereads then .throws (.mdb .einval) else .unknown), spot) ∧
      spot.pairs = pairs.filter (!test ·) := by
  rcases List.eq_nil_or_concat pairs with rfl | ⟨front, pair, rfl⟩
  · exact ⟨.fresh [], sweep_ended (by simp), rfl⟩
  · rw [List.concat_eq_append] at enough ⊢
    have shorter : front.length < passes := by
      rw [List.length_append] at enough
      omega
    obtain ⟨spot, swept, left⟩ : Backwards db rereads test passes _ _ _ :=
      backward_at passes front pair [] shorter
    rw [List.append_nil] at swept left
    have placed : Spot.perform db false (.fresh (front ++ [pair])) (.move .last) =
        (.ok (.found true), .at ⟨front, some pair, []⟩) := by
      simp only [Spot.perform, Spot.pairs, last?_concat]
      rfl
    have some : front ++ [pair] ≠ [] := by simp
    refine ⟨spot, ?_, left⟩
    rw [placed, swept, if_neg some]

end Main

/-! ## The same cursor without deletions -/

section Movements

/-- The movement that the cursor of `NodeKv.Model.Lmdb.Cursor` makes. -/
def Op.movement? : Op → Option Lmdb.Cursor.Movement
  | getCurrent => none
  | first => some .first
  | last => some .last
  | next => some .next
  | prev => some .prev
  | set key => some (.set key)
  | setRange key => some (.setRange key)

/-- A place among the pairs, and the index of a pair. -/
inductive SamePlace (pairs : List Pair) : Spot → Lmdb.Cursor.Place pairs.length → Prop
  | fresh : SamePlace pairs (.fresh pairs) .fresh
  | on {before : List Pair} {pair : Pair} {after : List Pair} {index : Fin pairs.length}
      (whole : pairs = before ++ pair :: after) (same : index.val = before.length) :
      SamePlace pairs (.at ⟨before, some pair, after⟩) (.on index)

theorem SamePlace.pairs {pairs : List Pair} {spot : Spot} {place : Lmdb.Cursor.Place pairs.length}
    (together : SamePlace pairs spot place) : spot.pairs = pairs := by
  cases together with
  | fresh => rfl
  | on whole same => simp [Spot.pairs, Zipper.items, whole]

/-- A movement of the one and of the other. -/
def MovedAlike (pairs : List Pair) (ideal : Answer Reply × Spot)
    (moved : Option Rc × Lmdb.Cursor.Place pairs.length) : Prop :=
  ideal.1 = found moved.1 ∧ (moved.1 = none → SamePlace pairs ideal.2 moved.2)

private theorem found_ne_unknown (code : Option Rc) : found code ≠ .unknown := by
  cases code with
  | none => exact fun same => by cases same
  | some rc =>
    rw [found]
    split_ifs
    · exact fun same => by cases same
    · exact fun same => by cases same

private theorem found_injective : Function.Injective found := by
  intro code code' same
  cases code with
  | none =>
    cases code' with
    | none => rfl
    | some rc =>
      simp only [found] at same
      split_ifs at same
      cases same
  | some rc =>
    cases code' with
    | none =>
      simp only [found] at same
      split_ifs at same
      cases same
    | some rc' =>
      simp only [found] at same
      split_ifs at same with first second second
      · rw [first, second]
      · cases same
        rfl

section

variable {db : Db} {store : Store} (contents : Contents db store)
  (stray : Lmdb.Cursor.Stray contents.pairs.length) {place : Lmdb.Cursor.Place contents.pairs.length}
  {spot spot' : Spot} {movement : Lmdb.Cursor.Movement}

/-- The end of `mdb_cursor_get`. -/
theorem alongside_movedAlike {zipper? : Option (Zipper Pair)}
    (alongside : Alongside contents.pairs zipper? (Lmdb.Cursor.destination contents stray movement place))
    (plain : movement.val? = none) (sized : movement.key? ≠ some [])
    {ideal : Answer Reply × Spot}
    (missed : zipper? = none → ideal.1 = .ok (.found false))
    (reached : ∀ zipper, zipper? = some zipper → ideal = (.ok (.found true), .at zipper)) :
    MovedAlike contents.pairs ideal (Lmdb.Cursor.mdbCursorGet contents stray none movement place) := by
  have needs : movement.needsDups = false := by cases movement <;> first | rfl | cases plain
  simp only [Lmdb.Cursor.mdbCursorGet, needs, Lmdb.Cursor.refusesVal, plain, Bool.false_and, if_neg sized,
    Bool.false_eq_true, reduceCtorEq, decide_false, if_false]
  cases zipper? with
  | none =>
    have lost : Lmdb.Cursor.destination contents stray movement place = none :=
      Option.map_eq_none_iff.mp alongside.index.symm
    rw [lost]
    exact ⟨missed rfl, fun none => by cases none⟩
  | some zipper =>
    obtain ⟨index, there, same⟩ := Option.map_eq_some_iff.mp alongside.index.symm
    obtain ⟨before, here, after⟩ := zipper
    obtain ⟨on, items⟩ := alongside.here _ rfl
    obtain ⟨pair, rfl⟩ := Option.isSome_iff_exists.mp on
    rw [there, reached _ rfl]
    refine ⟨rfl, fun _ => .on ?_ same⟩
    rw [← items]
    simp [Zipper.items]

private theorem goTo_movedAlike {zipper? : Option (Zipper Pair)}
    (alongside : Alongside contents.pairs zipper? (Lmdb.Cursor.destination contents stray movement place))
    (plain : movement.key? = none) :
    MovedAlike contents.pairs (spot.goTo zipper?)
      (Lmdb.Cursor.mdbCursorGet contents stray none movement place) := by
  have plain' : movement.val? = none := by cases movement <;> first | rfl | cases plain
  refine alongside_movedAlike contents stray alongside plain' (by simp [plain]) ?_ ?_
  · rintro rfl
    rfl
  · rintro zipper rfl
    rfl

private theorem search_movedAlike (together : SamePlace contents.pairs spot place) {key : Bytes}
    {wanted : Ordering → Bool} (looks : movement.key? = some key) (plain : movement.val? = none)
    (destination : Lmdb.Cursor.destination contents stray movement place =
      .seek fun index => wanted (db.keyType.compare (contents.pairs.get index).1 key)) :
    MovedAlike contents.pairs (spot.search db key wanted)
      (Lmdb.Cursor.mdbCursorGet contents stray none movement place) := by
  have needs : movement.needsDups = false := by cases movement <;> first | rfl | cases plain
  have pairs := together.pairs
  by_cases empty : key = []
  · rw [Spot.search, if_pos empty]
    rw [empty] at looks
    simp only [Lmdb.Cursor.mdbCursorGet, needs, looks, Bool.false_and, Bool.false_eq_true, if_false, if_true]
    exact ⟨rfl, fun none => by cases none⟩
  · have alongside : Alongside contents.pairs
        (Zipper.find? (fun pair => wanted (db.keyType.compare pair.1 key)) contents.pairs)
        (Lmdb.Cursor.destination contents stray movement place) := by
      rw [destination]
      exact .find contents.pairs _
    refine alongside_movedAlike contents stray alongside plain ?_ ?_ ?_
    · rw [looks]
      exact fun same => empty (Option.some.inj same)
    · intro missed
      rw [← pairs] at missed
      obtain ⟨spot', searched, -⟩ := Spot.search_missed empty missed
      rw [searched]
    · intro zipper reached
      rw [Spot.search, if_neg empty, pairs, reached]

private theorem perform_movedAlike (readonly : Bool)
    (together : SamePlace contents.pairs spot place) {op : Op}
    (moves : op.movement? = some movement) :
    MovedAlike contents.pairs (spot.perform db readonly (.move op))
      (Lmdb.Cursor.mdbCursorGet contents stray none movement place) := by
  cases op with
  | getCurrent => cases moves
  | first =>
    cases moves
    rw [Spot.perform, together.pairs]
    exact goTo_movedAlike contents stray (.first _) rfl
  | last =>
    cases moves
    cases together with
    | fresh => exact goTo_movedAlike contents stray (.last _) rfl
    | on whole same =>
      have pairs := (SamePlace.on whole same).pairs
      simp only [Spot.perform, pairs]
      exact goTo_movedAlike contents stray (.last _) rfl
  | next =>
    cases moves
    cases together with
    | fresh => exact goTo_movedAlike contents stray (.first _) rfl
    | on whole same => exact goTo_movedAlike contents stray (.next whole same) rfl
  | prev =>
    cases moves
    cases together with
    | fresh => exact goTo_movedAlike contents stray (.last _) rfl
    | on whole same => exact goTo_movedAlike contents stray (.prev whole same) rfl
  | set key =>
    cases moves
    exact search_movedAlike contents stray together rfl rfl rfl
  | setRange key =>
    cases moves
    exact search_movedAlike contents stray together rfl rfl rfl

/-- A cursor that has not deleted moves as the cursor of `NodeKv.Model.Lmdb.Cursor` does, from every
place that the two can share: LMDB returns the same code, and a pair that is found is the same. -/
theorem mdbCursorGet_alike {cursor : Cursor} (stands : Stands contents.pairs cursor spot)
    (together : SamePlace contents.pairs spot place) {op : Op} (moves : op.movement? = some movement) :
    let (rc, next) := Lmdb.Cursor.mdbCursorGet contents stray none movement place
    ∃ cursor' spot', mdbCursorGet db contents.pairs cursor op = some (rc, cursor') ∧
      Stands contents.pairs cursor' spot' ∧ (rc = none → SamePlace contents.pairs spot' next) := by
  obtain ⟨answer, placed⟩ := perform_movedAlike contents stray false together moves
  have agrees : Agrees contents.pairs spot (mdbCursorMove db contents.pairs cursor op) _ :=
    move_agrees stands false op
  rcases agrees with ⟨-, unknown⟩ | ⟨rc, cursor', spot', moved, ideal, stands'⟩
  · rw [unknown] at answer
    exact absurd answer.symm (found_ne_unknown _)
  · rw [ideal] at answer placed
    obtain rfl := found_injective answer
    exact ⟨_, spot', by rw [mdbCursorGet, moved]; rfl, stands', placed⟩

end

end Movements

end NodeKv.Lmdb.Deleting
