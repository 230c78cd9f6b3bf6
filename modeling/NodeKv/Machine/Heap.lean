import Mathlib.Data.List.Nodup
import Mathlib.Data.List.Range
import Mathlib.Logic.Function.Basic
import Mathlib.Tactic.Tauto

/-! # Numbered resources

A library hands out resources under increasing numbers and frees them when it is told to. Nothing
keeps a client from freeing one twice, so the frees are a list. A heap is sound while every free in
it was of a resource that was live at that time; it is so as long as every live resource has a
single owner, who forgets it when it is freed.
-/

namespace NodeKv.Machine

structure Heap where
  created : ℕ
  /-- The frees asked for, in order. -/
  freed : List ℕ
deriving DecidableEq, Repr

namespace Heap

def empty : Heap := ⟨0, []⟩

/-- Created, and not freed since. -/
def Live (heap : Heap) (id : ℕ) : Prop := id < heap.created ∧ id ∉ heap.freed

instance (heap : Heap) (id : ℕ) : Decidable (heap.Live id) := inferInstanceAs (Decidable (_ ∧ _))

/-- Create a resource, numbered `created`. -/
def alloc (heap : Heap) : Heap := { heap with created := heap.created + 1 }

def free (ids : List ℕ) (heap : Heap) : Heap := { heap with freed := heap.freed ++ ids }

/-- The live resources of a kind. -/
def liveOf (kind : ℕ → Bool) (heap : Heap) : List ℕ :=
  (List.range heap.created).filter fun id => kind id && decide (id ∉ heap.freed)

/-- Every free was of a live resource. -/
structure Sound (heap : Heap) : Prop where
  nodup : heap.freed.Nodup
  known : ∀ id ∈ heap.freed, id < heap.created

variable {heap : Heap} {id : ℕ}

theorem empty_sound : empty.Sound := ⟨List.nodup_nil, nofun⟩

@[simp] theorem not_live_empty : ¬empty.Live id := fun live => Nat.not_lt_zero _ live.1

theorem Sound.alloc (sound : heap.Sound) : heap.alloc.Sound :=
  ⟨sound.nodup, fun id mem => Nat.lt_succ_of_lt (sound.known id mem)⟩

theorem Sound.live_alloc (sound : heap.Sound) :
    heap.alloc.Live id ↔ heap.Live id ∨ id = heap.created := by
  have notFreed : heap.created ∉ heap.freed := fun mem => (sound.known _ mem).false
  constructor
  · rintro ⟨below, live⟩
    rcases Nat.lt_succ_iff_lt_or_eq.mp below with old | new
    · exact .inl ⟨old, live⟩
    · exact .inr new
  · rintro (live | rfl)
    · exact ⟨Nat.lt_succ_of_lt live.1, live.2⟩
    · exact ⟨Nat.lt_succ_self _, notFreed⟩

theorem live_free {ids : List ℕ} : (heap.free ids).Live id ↔ heap.Live id ∧ id ∉ ids := by
  simp [Live, free, and_assoc]

theorem Sound.free (sound : heap.Sound) {ids : List ℕ} (nodup : ids.Nodup)
    (live : ∀ id ∈ ids, heap.Live id) : (heap.free ids).Sound := by
  constructor
  · apply List.Nodup.append sound.nodup nodup
    intro id freed mem
    exact (live id mem).2 freed
  · intro id mem
    rcases List.mem_append.mp mem with freed | mem
    · exact sound.known id freed
    · exact (live id mem).1

theorem mem_liveOf {kind : ℕ → Bool} : id ∈ heap.liveOf kind ↔ heap.Live id ∧ kind id = true := by
  simp only [liveOf, List.mem_filter, List.mem_range, Bool.and_eq_true, decide_eq_true_eq, Live]
  tauto

theorem nodup_liveOf (heap : Heap) (kind : ℕ → Bool) : (heap.liveOf kind).Nodup :=
  List.nodup_range.filter _

/-- Where a pointer is found after one of them has been set. -/
theorem update_eq_some {pointer : ℕ → Option ℕ} {owner other : ℕ} {set : Option ℕ}
    (held : Function.update pointer owner set other = some id) :
    (other = owner ∧ set = some id) ∨ (other ≠ owner ∧ pointer other = some id) := by
  by_cases same : other = owner
  · rw [same, Function.update_self] at held
    exact .inl ⟨same, held⟩
  · rw [Function.update_of_ne same] at held
    exact .inr ⟨same, held⟩

/-- Every live resource has one owner, who holds nothing else. -/
structure Owned (heap : Heap) (pointer : ℕ → Option ℕ) : Prop extends heap.Sound where
  live : ∀ owner id, pointer owner = some id → heap.Live id
  alone : ∀ owner other id, pointer owner = some id → pointer other = some id → other = owner
  kept : ∀ id, heap.Live id → ∃ owner, pointer owner = some id

namespace Owned

variable {pointer : ℕ → Option ℕ}

theorem live_iff (owned : heap.Owned pointer) : heap.Live id ↔ ∃ owner, pointer owner = some id :=
  ⟨owned.kept id, fun ⟨owner, held⟩ => owned.live owner id held⟩

theorem congr (owned : heap.Owned pointer) {pointer' : ℕ → Option ℕ} (same : pointer' = pointer) :
    heap.Owned pointer' := same ▸ owned

/-- An owner without a resource is given a new one. -/
theorem alloc (owned : heap.Owned pointer) {owner : ℕ} (idle : pointer owner = none) :
    heap.alloc.Owned (Function.update pointer owner (some heap.created)) := by
  have unowned : ∀ other, pointer other ≠ some heap.created :=
    fun other held => (owned.live other _ held).1.false
  refine ⟨owned.toSound.alloc, ?_, ?_, ?_⟩
  · intro other id held
    rw [owned.toSound.live_alloc]
    rcases update_eq_some held with ⟨-, new⟩ | ⟨-, held⟩
    · exact .inr (Option.some.inj new).symm
    · exact .inl (owned.live other id held)
  · intro first second id held held'
    rcases update_eq_some held with ⟨same, new⟩ | ⟨-, held⟩ <;>
      rcases update_eq_some held' with ⟨same', new'⟩ | ⟨-, held'⟩
    · exact same'.trans same.symm
    · exact absurd (held'.trans new.symm) (unowned second)
    · exact absurd (held.trans new'.symm) (unowned first)
    · exact owned.alone first second id held held'
  · intro id live
    rcases owned.toSound.live_alloc.mp live with old | rfl
    · obtain ⟨other, held⟩ := owned.kept id old
      have ne : other ≠ owner := by
        rintro rfl
        exact nomatch idle.symm.trans held
      exact ⟨other, by rw [Function.update_of_ne ne, held]⟩
    · exact ⟨owner, Function.update_self ..⟩

/-- An owner frees its resource. -/
theorem free (owned : heap.Owned pointer) {owner : ℕ} (held : pointer owner = some id) :
    (heap.free [id]).Owned (Function.update pointer owner none) := by
  have live := owned.live owner id held
  have others : ∀ other found, Function.update pointer owner none other = some found →
      other ≠ owner ∧ pointer other = some found :=
    fun other found held => (update_eq_some held).resolve_left nofun
  refine ⟨owned.toSound.free (List.nodup_singleton _) ?_, ?_, ?_, ?_⟩
  · intro other mem
    exact List.mem_singleton.mp mem ▸ live
  · intro other found held'
    obtain ⟨ne, held'⟩ := others other found held'
    rw [live_free, List.mem_singleton]
    refine ⟨owned.live other found held', ?_⟩
    rintro rfl
    exact ne (owned.alone owner other found held held')
  · intro first second found held held'
    exact owned.alone first second found (others first found held).2 (others second found held').2
  · intro found live
    rw [live_free, List.mem_singleton] at live
    obtain ⟨other, held'⟩ := owned.kept found live.1
    have ne : other ≠ owner := by
      rintro rfl
      exact live.2 (Option.some.inj (held'.symm.trans held))
    exact ⟨other, by rw [Function.update_of_ne ne, held']⟩

end Owned

end Heap

end NodeKv.Machine
