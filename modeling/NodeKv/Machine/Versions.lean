import Mathlib.Data.List.Infix
import Mathlib.Data.Nat.Notation
import Mathlib.Logic.Function.Basic

/-! # Committed state and transaction views

What a store with explicit transactions owes its readers: one latest committed state, and for each
open transaction a view of its own, taken from the committed state when the transaction began and
changed only by its own writes. A read-only transaction can be suspended, and taken up again on a
new view or on its old one, which the store no longer protects. Transactions are numbered as they
are begun, and keep the kind they were begun as.

The committed state of such a store is what its journal says: the writes of every transaction, in
the order of the commits. A view of it is a version, the state after some of the first transactions;
what was a version stays one when the journal grows.
-/

namespace NodeKv.Machine

variable {σ : Type*}

/-- What a transaction reads from, and whether it writes. -/
inductive View (σ : Type*) where
  | closed
  | suspended (store : σ)
  /-- Taken up again on the state from before, which is no longer protected. -/
  | resumed (store : σ)
  | live (writes : Bool) (store : σ)

structure Versions (σ : Type*) where
  committed : σ
  /-- The kind a transaction was begun as. -/
  writes : ℕ → Bool
  views : ℕ → View σ
  count : ℕ

/-- What happens to such a store. -/
inductive Event (σ : Type*) where
  | nothing
  /-- A write that is committed at once. -/
  | write (change : σ → σ)
  | begin (writes : Bool)
  /-- A write in an open transaction. -/
  | change (handle : ℕ) (change : σ → σ)
  | commit (handle : ℕ)
  | abort (handle : ℕ)
  | suspend (handle : ℕ)
  /-- Back to the state a transaction was suspended with. -/
  | resume (handle : ℕ)
  | renew (handle : ℕ)

namespace View

def change (change : σ → σ) : View σ → View σ
  | live writes store => live writes (change store)
  | view => view

def suspend : View σ → View σ
  | live false store => suspended store
  | resumed store => suspended store
  | view => view

def resume : View σ → View σ
  | suspended store => resumed store
  | view => view

/-- The state that is read from, protected or not. -/
def reads? : View σ → Option σ
  | live _ store => some store
  | resumed store => some store
  | _ => none

/-- The committed state after the transaction has ended in a commit. -/
def publish (committed : σ) : View σ → σ
  | live true store => store
  | _ => committed

/-- The view of a transaction of the given kind. -/
def Fits (writes : Bool) : View σ → Prop
  | closed => True
  | suspended _ => writes = false
  | resumed _ => writes = false
  | live kind _ => kind = writes

variable {writes : Bool} {view : View σ}

theorem Fits.change (fits : view.Fits writes) (change : σ → σ) :
    (view.change change).Fits writes := by
  cases view with
  | closed => exact fits
  | suspended store => exact fits
  | resumed store => exact fits
  | live kind store => exact fits

theorem Fits.suspend (fits : view.Fits writes) : view.suspend.Fits writes := by
  cases view with
  | closed => exact fits
  | suspended store => exact fits
  | resumed store => exact fits
  | live kind store =>
    cases kind with
    | false => exact fits.symm
    | true => exact fits

theorem Fits.resume (fits : view.Fits writes) : view.resume.Fits writes := by
  cases view with
  | closed => exact fits
  | suspended store => exact fits
  | resumed store => exact fits
  | live kind store => exact fits

/-- The view is closed, or of a state with the property. -/
def All (property : σ → Prop) : View σ → Prop
  | closed => True
  | suspended store => property store
  | resumed store => property store
  | live _ store => property store

variable {property : σ → Prop}

theorem All.change (all : view.All property) {change : σ → σ}
    (kept : ∀ store, property store → property (change store)) : (view.change change).All property := by
  cases view with
  | closed => exact all
  | suspended store => exact all
  | resumed store => exact all
  | live kind store => exact kept store all

theorem All.suspend (all : view.All property) : view.suspend.All property := by
  cases view with
  | closed => exact all
  | suspended store => exact all
  | resumed store => exact all
  | live kind store => cases kind <;> exact all

theorem All.resume (all : view.All property) : view.resume.All property := by
  cases view <;> exact all

theorem All.publish {committed : σ} (all : view.All property) (latest : property committed) :
    property (view.publish committed) := by
  cases view with
  | closed => exact latest
  | suspended store => exact latest
  | resumed store => exact latest
  | live kind store =>
    cases kind with
    | false => exact latest
    | true => exact all

end View

/-- What the event writes keeps the property. -/
def Event.Keeps (property : σ → Prop) : Event σ → Prop
  | .write next => ∀ store, property store → property (next store)
  | .change _ next => ∀ store, property store → property (next store)
  | _ => True

namespace Versions

def opened (store : σ) : Versions σ where
  committed := store
  writes := fun _ => true
  views := fun _ => .closed
  count := 0

def setView (versions : Versions σ) (handle : ℕ) (view : View σ) : Versions σ :=
  { versions with views := Function.update versions.views handle view }

def record (versions : Versions σ) : Event σ → Versions σ
  | .nothing => versions
  | .write change => { versions with committed := change versions.committed }
  | .begin writes =>
    { versions with
      writes := Function.update versions.writes versions.count writes
      views := Function.update versions.views versions.count (.live writes versions.committed)
      count := versions.count + 1 }
  | .change handle change => versions.setView handle ((versions.views handle).change change)
  | .commit handle =>
    { versions.setView handle .closed with
      committed := (versions.views handle).publish versions.committed }
  | .abort handle => versions.setView handle .closed
  | .suspend handle => versions.setView handle (versions.views handle).suspend
  | .resume handle => versions.setView handle (versions.views handle).resume
  | .renew handle => versions.setView handle (.live (versions.writes handle) versions.committed)

@[simp] theorem setView_self (versions : Versions σ) (handle : ℕ) :
    versions.setView handle (versions.views handle) = versions := by
  rw [setView, Function.update_eq_self]

/-- Every transaction is of the kind it was begun as. -/
def Fits (versions : Versions σ) : Prop :=
  ∀ handle, (versions.views handle).Fits (versions.writes handle)

variable {versions : Versions σ}

theorem opened_fits (store : σ) : (opened store).Fits := fun _ => trivial

theorem Fits.setView (fits : versions.Fits) {handle : ℕ} {view : View σ}
    (kind : view.Fits (versions.writes handle)) : (versions.setView handle view).Fits := by
  intro other
  simp only [Versions.setView]
  rcases eq_or_ne other handle with rfl | ne
  · rwa [Function.update_self]
  · rw [Function.update_of_ne ne]
    exact fits other

theorem Fits.record (fits : versions.Fits) (event : Event σ) : (versions.record event).Fits := by
  cases event with
  | nothing => exact fits
  | write change => exact fits
  | begin writes =>
    intro other
    simp only [Versions.record]
    rcases eq_or_ne other versions.count with rfl | ne
    · rw [Function.update_self, Function.update_self]
      exact rfl
    · rw [Function.update_of_ne ne, Function.update_of_ne ne]
      exact fits other
  | change handle change => exact fits.setView ((fits handle).change change)
  | commit handle =>
    have closed : (versions.setView handle .closed).Fits := fits.setView trivial
    exact closed
  | abort handle => exact fits.setView trivial
  | suspend handle => exact fits.setView (fits handle).suspend
  | resume handle => exact fits.setView (fits handle).resume
  | renew handle => exact fits.setView rfl

section All

variable {property : σ → Prop}

/-- Every state that is or may be read has the property. -/
structure All (property : σ → Prop) (versions : Versions σ) : Prop where
  committed : property versions.committed
  views : ∀ handle, (versions.views handle).All property

theorem opened_all {store : σ} (initial : property store) : (opened store).All property :=
  ⟨initial, fun _ => trivial⟩

theorem All.setView (all : versions.All property) {handle : ℕ} {view : View σ}
    (seen : view.All property) : (versions.setView handle view).All property := by
  refine ⟨all.committed, ?_⟩
  intro other
  simp only [Versions.setView]
  rcases eq_or_ne other handle with rfl | ne
  · rwa [Function.update_self]
  · rw [Function.update_of_ne ne]
    exact all.views other

theorem All.record (all : versions.All property) {event : Event σ} (kept : event.Keeps property) :
    (versions.record event).All property := by
  cases event with
  | nothing => exact all
  | write change => exact ⟨kept _ all.committed, all.views⟩
  | begin writes =>
    refine ⟨all.committed, ?_⟩
    intro other
    simp only [Versions.record]
    rcases eq_or_ne other versions.count with rfl | ne
    · rw [Function.update_self]
      exact all.committed
    · rw [Function.update_of_ne ne]
      exact all.views other
  | change handle change => exact all.setView ((all.views handle).change kept)
  | commit handle =>
    have closed : (versions.setView handle .closed).All property := all.setView trivial
    exact ⟨(all.views handle).publish all.committed, closed.views⟩
  | abort handle => exact all.setView trivial
  | suspend handle => exact all.setView (all.views handle).suspend
  | resume handle => exact all.setView (all.views handle).resume
  | renew handle => exact all.setView all.committed

end All

end Versions

section Rel

variable {τ : Type*} (related : σ → τ → Prop)

/-- Views of related states. -/
inductive View.Rel : View σ → View τ → Prop
  | closed : View.Rel .closed .closed
  | suspended {store : σ} {other : τ} (states : related store other) :
      View.Rel (.suspended store) (.suspended other)
  | resumed {store : σ} {other : τ} (states : related store other) :
      View.Rel (.resumed store) (.resumed other)
  | live (writes : Bool) {store : σ} {other : τ} (states : related store other) :
      View.Rel (.live writes store) (.live writes other)

/-- The same event on both sides, with changes that keep states related. -/
inductive Event.Rel : Event σ → Event τ → Prop
  | nothing : Event.Rel .nothing .nothing
  | write {change : σ → σ} {change' : τ → τ}
      (kept : ∀ store other, related store other → related (change store) (change' other)) :
      Event.Rel (.write change) (.write change')
  | begin (writes : Bool) : Event.Rel (.begin writes) (.begin writes)
  | change (handle : ℕ) {change : σ → σ} {change' : τ → τ}
      (kept : ∀ store other, related store other → related (change store) (change' other)) :
      Event.Rel (.change handle change) (.change handle change')
  | commit (handle : ℕ) : Event.Rel (.commit handle) (.commit handle)
  | abort (handle : ℕ) : Event.Rel (.abort handle) (.abort handle)
  | suspend (handle : ℕ) : Event.Rel (.suspend handle) (.suspend handle)
  | resume (handle : ℕ) : Event.Rel (.resume handle) (.resume handle)
  | renew (handle : ℕ) : Event.Rel (.renew handle) (.renew handle)

/-- Two stores with the same transactions on related states. -/
structure Versions.Rel (versions : Versions σ) (others : Versions τ) : Prop where
  committed : related versions.committed others.committed
  writes : versions.writes = others.writes
  views : ∀ handle, View.Rel related (versions.views handle) (others.views handle)
  count : versions.count = others.count

variable {related}

namespace View.Rel

variable {view : View σ} {view' : View τ} (rel : View.Rel related view view')

include rel

theorem change {change : σ → σ} {change' : τ → τ}
    (kept : ∀ store other, related store other → related (change store) (change' other)) :
    View.Rel related (view.change change) (view'.change change') := by
  cases rel with
  | closed => exact .closed
  | suspended states => exact .suspended states
  | resumed states => exact .resumed states
  | live writes states => exact .live writes (kept _ _ states)

theorem suspend : View.Rel related view.suspend view'.suspend := by
  cases rel with
  | closed => exact .closed
  | suspended states => exact .suspended states
  | resumed states => exact .suspended states
  | live writes states =>
    cases writes with
    | false => exact .suspended states
    | true => exact .live true states

theorem resume : View.Rel related view.resume view'.resume := by
  cases rel with
  | closed => exact .closed
  | suspended states => exact .resumed states
  | resumed states => exact .resumed states
  | live writes states => exact .live writes states

theorem of_live {writes : Bool} {other : τ} (live : view' = .live writes other) :
    ∃ store, view = .live writes store ∧ related store other := by
  cases rel with
  | closed => cases live
  | suspended states => cases live
  | resumed states => cases live
  | live kind states =>
    obtain ⟨rfl, rfl⟩ := View.live.inj live
    exact ⟨_, rfl, states⟩

theorem publish {committed : σ} {committed' : τ} (latest : related committed committed') :
    related (view.publish committed) (view'.publish committed') := by
  cases rel with
  | closed => exact latest
  | suspended states => exact latest
  | resumed states => exact latest
  | live writes states =>
    cases writes with
    | false => exact latest
    | true => exact states

end View.Rel

namespace Versions.Rel

variable {versions : Versions σ} {others : Versions τ} (rel : Versions.Rel related versions others)

include rel

theorem setView {view : View σ} {view' : View τ} (handle : ℕ) (seen : View.Rel related view view') :
    Versions.Rel related (versions.setView handle view) (others.setView handle view') := by
  refine ⟨rel.committed, rel.writes, ?_, rel.count⟩
  intro other
  simp only [Versions.setView]
  rcases eq_or_ne other handle with rfl | ne
  · rw [Function.update_self, Function.update_self]
    exact seen
  · rw [Function.update_of_ne ne, Function.update_of_ne ne]
    exact rel.views other

/-- Related stores stay related. -/
theorem record {event : Event σ} {event' : Event τ} (events : Event.Rel related event event') :
    Versions.Rel related (versions.record event) (others.record event') := by
  cases events with
  | nothing => exact rel
  | write kept => exact ⟨kept _ _ rel.committed, rel.writes, rel.views, rel.count⟩
  | begin writes =>
    refine ⟨rel.committed, ?_, ?_, congrArg (· + 1) rel.count⟩
    · simp only [Versions.record, rel.writes, rel.count]
    · intro other
      simp only [Versions.record, rel.count]
      rcases eq_or_ne other others.count with rfl | ne
      · rw [Function.update_self, Function.update_self]
        exact .live writes rel.committed
      · rw [Function.update_of_ne ne, Function.update_of_ne ne]
        exact rel.views other
  | change handle kept => exact rel.setView handle ((rel.views handle).change kept)
  | commit handle =>
    have closed := rel.setView handle View.Rel.closed
    exact ⟨(rel.views handle).publish rel.committed, closed.writes, closed.views, closed.count⟩
  | abort handle => exact rel.setView handle .closed
  | suspend handle => exact rel.setView handle (rel.views handle).suspend
  | resume handle => exact rel.setView handle (rel.views handle).resume
  | renew handle =>
    simp only [Versions.record, rel.writes]
    exact rel.setView handle (.live _ rel.committed)

end Versions.Rel

end Rel

section Journal

variable {α : Type*} (apply : σ → α → σ) (initial : σ)

/-- The state after a journal of transactions. -/
def replay (journal : List (List α)) : σ := journal.foldl (List.foldl apply) initial

/-- The state after some of the first transactions of a journal. -/
def IsVersion (journal : List (List α)) (store : σ) : Prop :=
  ∃ done, done <+: journal ∧ store = replay apply initial done

variable {apply initial} {journal longer : List (List α)} {store : σ}

theorem replay_concat (journal : List (List α)) (writes : List α) :
    replay apply initial (journal ++ [writes]) = writes.foldl apply (replay apply initial journal) := by
  rw [replay, List.foldl_append, List.foldl_cons, List.foldl_nil, replay]

theorem IsVersion.latest : IsVersion apply initial journal (replay apply initial journal) :=
  ⟨journal, List.prefix_rfl, rfl⟩

theorem IsVersion.mono (version : IsVersion apply initial journal store)
    (grown : journal <+: longer) : IsVersion apply initial longer store := by
  obtain ⟨done, before, seen⟩ := version
  exact ⟨done, before.trans grown, seen⟩

end Journal

end NodeKv.Machine
