import Mathlib.Data.List.Basic

namespace Ece391.Library

universe u

/-! # Lists laid out in a memory -/

variable {α : Type u} {memory other : Nat → α} {start : Nat} {list left right : List α}

/-- The elements from `start` on are those of the list. -/
def Stored (memory : Nat → α) : Nat → List α → Prop
  | _, [] => True
  | start, first :: rest => memory start = first ∧ Stored memory (start + 1) rest

theorem stored_append : Stored memory start (left ++ right) ↔
    Stored memory start left ∧ Stored memory (start + left.length) right := by
  induction left generalizing start with
  | nil => simp [Stored]
  | cons first rest ih =>
      have shifted : start + (first :: rest).length = start + 1 + rest.length := by
        rw [List.length_cons]
        omega
      rw [List.cons_append, shifted]
      simp only [Stored, ih, and_assoc]

theorem stored_shift {offset : Nat} : Stored (fun i => memory (start + i)) offset list ↔
    Stored memory (start + offset) list := by
  induction list generalizing offset with
  | nil => rfl
  | cons first rest ih =>
      simp only [Stored]
      rw [ih, Nat.add_assoc]

theorem Stored.congr (stored : Stored memory start list)
    (same : ∀ i, start ≤ i → i < start + list.length → other i = memory i) :
    Stored other start list := by
  induction list generalizing start with
  | nil => trivial
  | cons first rest ih =>
      obtain ⟨here, behind⟩ := stored
      rw [List.length_cons] at same
      constructor
      · rw [same start (Nat.le_refl _) (by omega)]
        exact here
      · apply ih behind
        intro i low high
        exact same i (by omega) (by omega)

theorem stored_iff (default : α) : Stored memory start list ↔
    ∀ i < list.length, memory (start + i) = list.getD i default := by
  induction list generalizing start with
  | nil => simp [Stored]
  | cons first rest ih =>
      rw [Stored, ih]
      constructor
      · intro stored i inside
        cases i with
        | zero => exact stored.1
        | succ i =>
            have next := stored.2 i (Nat.lt_of_succ_lt_succ inside)
            rwa [Nat.add_right_comm, Nat.add_assoc] at next
      · intro stored
        refine ⟨stored 0 (Nat.zero_lt_succ _), fun i inside => ?_⟩
        have next := stored (i + 1) (Nat.succ_lt_succ inside)
        rwa [← Nat.add_assoc, Nat.add_right_comm] at next

end Ece391.Library
