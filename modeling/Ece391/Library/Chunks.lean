import Mathlib.Data.List.Basic

namespace Ece391.Library

universe u

/-! # Contents kept in blocks of one size -/

variable {α : Type u} {block : Nat → List α} {size count position : Nat}

/-- The blocks from the first on, one behind the other. -/
def concat (block : Nat → List α) (count : Nat) : List α :=
  (List.range count).flatMap block

theorem concat_succ : concat block (count + 1) = concat block count ++ block count := by
  simp [concat, List.range_succ]

theorem concat_length (sized : ∀ index, (block index).length = size) :
    (concat block count).length = count * size := by
  induction count with
  | zero => simp [concat]
  | succ count ih => rw [concat_succ, List.length_append, ih, sized, Nat.succ_mul]

/-- A position lies in the block that its quotient names, where its remainder
says. -/
theorem concat_getElem? (sized : ∀ index, (block index).length = size)
    (inside : position < count * size) :
    (concat block count)[position]? = (block (position / size))[position % size]? := by
  have positive : 0 < size := Nat.pos_of_ne_zero fun zero => by
    rw [zero, Nat.mul_zero] at inside
    exact absurd inside (Nat.not_lt_zero position)
  induction count with
  | zero =>
      rw [Nat.zero_mul] at inside
      exact absurd inside (Nat.not_lt_zero position)
  | succ count ih =>
      rw [concat_succ]
      by_cases earlier : position < count * size
      · rw [List.getElem?_append_left (by rwa [concat_length sized]), ih earlier]
      · have reached : count * size ≤ position := Nat.le_of_not_lt earlier
        have quotient : position / size = count :=
          Nat.div_eq_of_lt_le reached inside
        have remainder : position % size = position - count * size := by
          have whole := Nat.div_add_mod position size
          rw [quotient, Nat.mul_comm] at whole
          omega
        rw [List.getElem?_append_right (by rwa [concat_length sized]), concat_length sized, quotient,
          remainder]

end Ece391.Library
