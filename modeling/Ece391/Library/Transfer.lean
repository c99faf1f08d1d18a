import Mathlib.Algebra.Group.Nat.Defs
import Mathlib.Logic.Relation
import Mathlib.Logic.Function.Basic

namespace Ece391.Library

universe u

/-! # Moving a block of bytes

Addresses count modulo a power of two, so a block is given by offsets from where
it starts.
-/

section Memory

variable {α : Type u} {width : Nat} {source memory : BitVec width → α} {dest address : BitVec width}
  {count i : Nat}

/-- The elements at `dest` replaced by those of a source, by their offset. -/
def transfer (source memory : BitVec width → α) (dest : BitVec width) (count : Nat) :
    BitVec width → α :=
  fun address =>
    if (address - dest).toNat < count then source (address - dest) else memory address

theorem offset_of_add (dest offset : BitVec width) : dest + offset - dest = offset := by
  rw [BitVec.add_comm, BitVec.add_sub_cancel]

theorem add_offset (dest address : BitVec width) : dest + (address - dest) = address := by
  rw [BitVec.add_comm, BitVec.sub_add_cancel]

theorem transfer_zero : transfer source memory dest 0 = memory := by
  funext address
  exact if_neg (Nat.not_lt_zero _)

theorem transfer_inside (inside : i < count) (bounded : count ≤ 2 ^ width) :
    transfer source memory dest count (dest + BitVec.ofNat width i) =
      source (BitVec.ofNat width i) := by
  have offset : (BitVec.ofNat width i).toNat < count := by
    rw [BitVec.toNat_ofNat, Nat.mod_eq_of_lt (Nat.lt_of_lt_of_le inside bounded)]
    exact inside
  rw [transfer, offset_of_add, if_pos offset]

theorem transfer_outside
    (outside : ∀ i < count, address ≠ dest + BitVec.ofNat width i) :
    transfer source memory dest count address = memory address := by
  apply if_neg
  intro inside
  apply outside _ inside
  rw [BitVec.ofNat_toNat, BitVec.setWidth_eq, add_offset]

/-- One more element. -/
theorem transfer_succ (bounded : count < 2 ^ width) :
    Function.update (transfer source memory dest count) (dest + BitVec.ofNat width count)
      (source (BitVec.ofNat width count)) = transfer source memory dest (count + 1) := by
  funext address
  by_cases here : address = dest + BitVec.ofNat width count
  · rw [here, Function.update_self, transfer_inside (Nat.lt_succ_self _) bounded]
  · have other : (address - dest).toNat ≠ count := by
      intro same
      apply here
      rw [← same, BitVec.ofNat_toNat, BitVec.setWidth_eq, add_offset]
    rw [Function.update_of_ne here, transfer, transfer]
    simp only [Nat.lt_succ_iff_lt_or_eq, other, or_false]

end Memory

/-! ## Three phases

Single elements until the destination is aligned, groups of four, and the
single elements that remain.
-/

variable {σ : Type u}

/-- What holds where the phases turn, with the elements moved so far and the
groups that are left. -/
structure Phases (next : σ → σ → Prop) (total : Nat) where
  head : (moved : Nat) → σ → Prop
  body : (moved groups : Nat) → σ → Prop
  tail : (moved : Nat) → σ → Prop
  done : σ → Prop
  head_turn : ∀ {moved state}, head moved state →
    ∃ after, Relation.ReflTransGen next state after ∧
      (done after ∨ body moved ((total - moved) / 4) after ∨ moved < total ∧ head (moved + 1) after)
  body_turn : ∀ {moved groups state}, body moved (groups + 1) state →
    ∃ after, Relation.ReflTransGen next state after ∧ body (moved + 4) groups after
  body_end : ∀ {moved state}, body moved 0 state →
    ∃ after, Relation.ReflTransGen next state after ∧ tail moved after
  tail_turn : ∀ {moved state}, tail moved state →
    ∃ after, Relation.ReflTransGen next state after ∧
      (done after ∨ moved < total ∧ tail (moved + 1) after)

namespace Phases

variable {next : σ → σ → Prop} {total : Nat} (phases : Phases next total)

theorem tail_finishes {moved : Nat} {state : σ} (holds : phases.tail moved state) :
    ∃ after, Relation.ReflTransGen next state after ∧ phases.done after := by
  obtain ⟨after, reached, finished | ⟨more, remaining⟩⟩ := phases.tail_turn holds
  · exact ⟨after, reached, finished⟩
  · obtain ⟨final, finishes, finished⟩ := tail_finishes remaining
    exact ⟨final, reached.trans finishes, finished⟩
termination_by total - moved

theorem body_finishes {moved groups : Nat} {state : σ}
    (holds : phases.body moved groups state) :
    ∃ after, Relation.ReflTransGen next state after ∧ phases.done after := by
  induction groups generalizing moved state with
  | zero =>
      obtain ⟨after, reached, remaining⟩ := phases.body_end holds
      obtain ⟨final, finishes, finished⟩ := phases.tail_finishes remaining
      exact ⟨final, reached.trans finishes, finished⟩
  | succ groups ih =>
      obtain ⟨after, reached, remaining⟩ := phases.body_turn holds
      obtain ⟨final, finishes, finished⟩ := ih remaining
      exact ⟨final, reached.trans finishes, finished⟩

theorem head_finishes {moved : Nat} {state : σ} (holds : phases.head moved state) :
    ∃ after, Relation.ReflTransGen next state after ∧ phases.done after := by
  obtain ⟨after, reached, finished | aligned | ⟨more, remaining⟩⟩ := phases.head_turn holds
  · exact ⟨after, reached, finished⟩
  · obtain ⟨final, finishes, finished⟩ := phases.body_finishes aligned
    exact ⟨final, reached.trans finishes, finished⟩
  · obtain ⟨final, finishes, finished⟩ := head_finishes remaining
    exact ⟨final, reached.trans finishes, finished⟩
termination_by total - moved

end Phases

end Ece391.Library
