import Mathlib.Logic.Nontrivial.Basic

namespace Ece391.Library

universe u v w

/-! # Calls that store through a pointer

A call is given the elements from a pointer on and returns a value and what it
leaves there, or does not return.  Its stores go upwards from the pointer and end
where the first element is not present.
-/

variable {α : Type u} {β : Type v} {ρ : Type w}

abbrev BufferCall (β : Type v) (ρ : Type w) := (Nat → β) → Option (ρ × (Nat → β))

namespace BufferCall

variable (call : BufferCall β ρ) (place : Nat → α) (present own : α → Prop)

/-- The call stores element `i` of some buffer. -/
def StoresAt (i : Nat) : Prop :=
  ∃ buffer value after, call buffer = some (value, after) ∧ after i ≠ buffer i

/-- No element outside of `own` is stored. -/
def KeepsTo : Prop :=
  ∀ i, call.StoresAt i → (∀ j ≤ i, call.StoresAt j → present (place j)) → own (place i)

/-- The call returns `value` whatever the buffer holds. -/
def Returns (value : ρ) : Prop :=
  (∀ i, call.StoresAt i → present (place i)) ∧
    ∀ buffer, ∃ after, call buffer = some (value, after)

/-- The call always stores the same elements, the first `count`, and returns
`value`. -/
def Fills (value : ρ) (count : Nat) : Prop :=
  ∃ stored : Nat → β, ∀ buffer,
    call buffer = some (value, fun i => if i < count then stored i else buffer i)

/-- The call never returns. -/
def Stuck : Prop := ∀ buffer, call buffer = none

variable {call place present own} {value other : ρ} {count i : Nat}

theorem Fills.storesAt_iff [Nontrivial β] (fills : call.Fills value count) :
    call.StoresAt i ↔ i < count := by
  obtain ⟨stored, results⟩ := fills
  constructor
  · intro stores
    obtain ⟨buffer, result, after, returned, changed⟩ := stores
    obtain ⟨_, isAfter⟩ := Prod.mk.inj (Option.some.inj ((results buffer).symm.trans returned))
    by_contra outside
    rw [← isAfter] at changed
    exact changed (if_neg outside)
  · intro inside
    obtain ⟨different, differs⟩ := exists_ne (stored i)
    refine ⟨fun _ => different, value, _, results _, ?_⟩
    dsimp only
    rw [if_pos inside]
    exact Ne.symm differs

theorem Stuck.not_storesAt (stuck : call.Stuck) : ¬ call.StoresAt i := by
  intro stores
  obtain ⟨buffer, value, after, returned, _⟩ := stores
  cases (stuck buffer).symm.trans returned

theorem Stuck.keepsTo (stuck : call.Stuck) : call.KeepsTo place present own :=
  fun _ stores _ => absurd stores stuck.not_storesAt

theorem Stuck.not_returns [Nonempty β] (stuck : call.Stuck) :
    ¬ call.Returns place present value := by
  intro returns
  obtain ⟨element⟩ := ‹Nonempty β›
  obtain ⟨after, returned⟩ := returns.2 fun _ => element
  cases (stuck _).symm.trans returned

/-- When `own` is left only where nothing is present, the first element decides. -/
theorem Fills.keepsTo_iff [Nontrivial β] (fills : call.Fills value count)
    (edge : ∀ i, own (place 0) → (∀ j ≤ i, present (place j)) → own (place i)) :
    call.KeepsTo place present own ↔ count = 0 ∨ (present (place 0) → own (place 0)) := by
  constructor
  · intro keeps
    by_cases nothing : count = 0
    · exact .inl nothing
    · refine .inr fun loaded => ?_
      refine keeps 0 (fills.storesAt_iff.mpr (Nat.pos_of_ne_zero nothing)) ?_
      intro j first _
      rw [Nat.le_zero.mp first]
      exact loaded
  · intro condition i stores reaches
    have inside := fills.storesAt_iff.mp stores
    have before : ∀ j ≤ i, present (place j) := by
      intro j below
      exact reaches j below (fills.storesAt_iff.mpr (Nat.lt_of_le_of_lt below inside))
    rcases condition with nothing | first
    · omega
    · exact edge i (first (before 0 (Nat.zero_le i))) before

theorem Fills.returns_iff [Nontrivial β] (fills : call.Fills value count) :
    call.Returns place present other ↔ value = other ∧ ∀ i < count, present (place i) := by
  constructor
  · intro returns
    obtain ⟨loaded, results⟩ := returns
    refine ⟨?_, fun i inside => loaded i (fills.storesAt_iff.mpr inside)⟩
    obtain ⟨stored, filled⟩ := fills
    obtain ⟨after, returned⟩ := results stored
    exact (Prod.mk.inj (Option.some.inj ((filled stored).symm.trans returned))).1
  · intro condition
    obtain ⟨rfl, loaded⟩ := condition
    refine ⟨fun i stores => loaded i (fills.storesAt_iff.mp stores), fun buffer => ?_⟩
    obtain ⟨stored, filled⟩ := fills
    exact ⟨_, filled buffer⟩

end BufferCall

end Ece391.Library
