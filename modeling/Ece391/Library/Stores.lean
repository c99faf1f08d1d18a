import Mathlib.Logic.Function.Basic
import Ece391.Library.Block

namespace Ece391.Library

universe u

/-! # Stores through an address translation

A loop stores elements at consecutive addresses.  A translation says where an
address lies in memory; the first address that has no place ends the loop.
-/

variable {α : Type u}

/-- What a loop of stores leaves: the memory, the addresses of its stores, and
the one among them that had no place. -/
structure Stores (α : Type u) where
  memory : Nat → α
  addresses : List Nat
  fault : Option Nat

/-- A loop that stores nothing. -/
def Stores.none (memory : Nat → α) : Stores α := ⟨memory, [], .none⟩

def storeThrough (translate : Nat → Option Nat) : Nat → List α → (Nat → α) → Stores α
  | _, [], memory => .none memory
  | start, first :: rest, memory =>
      match translate start with
      | none => ⟨memory, [start], some start⟩
      | some place =>
          let behind := storeThrough translate (start + 1) rest (Function.update memory place first)
          { behind with addresses := start :: behind.addresses }

variable {translate : Nat → Option Nat} {start base room place : Nat} {values : List α}
  {memory : Nat → α}

theorem storeThrough_cons {first : α} {rest : List α} (mapped : translate start = some place) :
    storeThrough translate start (first :: rest) memory =
      let behind := storeThrough translate (start + 1) rest (Function.update memory place first)
      { behind with addresses := start :: behind.addresses } := by
  rw [storeThrough, mapped]

theorem storeThrough_addresses {address : Nat}
    (member : address ∈ (storeThrough translate start values memory).addresses) :
    start ≤ address ∧ address < start + values.length := by
  induction values generalizing start memory with
  | nil => cases member
  | cons first rest ih =>
      simp only [storeThrough] at member
      rw [List.length_cons]
      cases mapped : translate start with
      | none =>
          rw [mapped] at member
          obtain rfl := List.mem_singleton.mp member
          omega
      | some place =>
          rw [mapped] at member
          rcases List.mem_cons.mp member with here | behind
          · omega
          · have bounds := ih behind
            omega

/-- A place that none of the addresses has keeps its element, also when the loop
is cut short. -/
theorem storeThrough_elsewhere
    (apart : ∀ i < values.length, translate (start + i) ≠ some place) :
    (storeThrough translate start values memory).memory place = memory place := by
  induction values generalizing start memory with
  | nil => rfl
  | cons first rest ih =>
      rw [List.length_cons] at apart
      cases mapped : translate start with
      | none => rw [storeThrough, mapped]
      | some here =>
          have different : place ≠ here := by
            intro same
            exact apart 0 (Nat.succ_pos _) (by rw [Nat.add_zero, mapped, same])
          have behind : ∀ i < rest.length, translate (start + 1 + i) ≠ some place := by
            intro i inside
            rw [Nat.add_assoc, Nat.add_comm 1 i]
            exact apart (i + 1) (by omega)
          rw [storeThrough_cons mapped]
          exact (ih behind).trans (Function.update_of_ne different _ _)

theorem storeThrough_fault_none (mapped : ∀ i < values.length, translate (start + i) ≠ none) :
    (storeThrough translate start values memory).fault = none := by
  induction values generalizing start memory with
  | nil => rfl
  | cons first rest ih =>
      rw [List.length_cons] at mapped
      cases here : translate start with
      | none => exact absurd here (mapped 0 (Nat.succ_pos _))
      | some place =>
          rw [storeThrough_cons here]
          apply ih
          intro i inside
          rw [Nat.add_assoc, Nat.add_comm 1 i]
          exact mapped (i + 1) (by omega)

/-- Where the addresses lie side by side in memory, so do the elements. -/
theorem storeThrough_stored
    (mapped : ∀ i < values.length, translate (start + i) = some (base + i)) :
    Stored (storeThrough translate start values memory).memory base values := by
  induction values generalizing start base memory with
  | nil => trivial
  | cons first rest ih =>
      rw [List.length_cons] at mapped
      have here : translate start = some base := mapped 0 (Nat.succ_pos _)
      have next : ∀ i < rest.length, translate (start + 1 + i) = some (base + 1 + i) := by
        intro i inside
        rw [Nat.add_assoc, Nat.add_assoc, Nat.add_comm 1 i]
        exact mapped (i + 1) (by omega)
      rw [storeThrough_cons here]
      constructor
      · -- the stores behind the first leave its place alone
        refine (storeThrough_elsewhere fun i inside => ?_).trans (Function.update_self ..)
        rw [next i inside]
        intro same
        have equal := Option.some.inj same
        omega
      · exact ih next

theorem storeThrough_fault (mapped : ∀ i < room, translate (start + i) ≠ none)
    (absent : translate (start + room) = none) (longer : room < values.length) :
    (storeThrough translate start values memory).fault = some (start + room) := by
  induction values generalizing start room memory with
  | nil => cases longer
  | cons first rest ih =>
      cases room with
      | zero =>
          have here : translate start = none := absent
          rw [storeThrough, here]
          rfl
      | succ room =>
          cases here : translate start with
          | none => exact absurd here (mapped 0 (Nat.succ_pos _))
          | some place =>
              rw [storeThrough_cons here, Nat.add_comm room 1, ← Nat.add_assoc]
              apply ih
              · intro i inside
                rw [Nat.add_assoc, Nat.add_comm 1 i]
                exact mapped (i + 1) (by omega)
              · rw [Nat.add_assoc, Nat.add_comm 1 room]
                exact absent
              · rw [List.length_cons] at longer
                omega

end Ece391.Library
