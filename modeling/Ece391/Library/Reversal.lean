import Mathlib.Logic.Function.Basic
import Ece391.Library.Block

namespace Ece391.Library

universe u

/-! # Reversing a stretch of an array in place -/

variable {α : Type u}

/-- `tmp = s[j]; s[j] = s[i]; s[i] = tmp;` -/
def exchange (s : Nat → α) (i j : Nat) : Nat → α :=
  Function.update (Function.update s j (s i)) i (s j)

/-- The elements from `first` up to and with `last` in the other order. -/
def mirrored (s : Nat → α) (first last : Nat) : Nat → α :=
  fun i => if first ≤ i ∧ i ≤ last then s (first + last - i) else s i

variable {s : Nat → α} {first last i start : Nat} {list : List α}

theorem exchange_elsewhere (notFirst : i ≠ first) (notLast : i ≠ last) :
    exchange s first last i = s i := by
  rw [exchange, Function.update_of_ne notFirst, Function.update_of_ne notLast]

theorem mirrored_inside (low : first ≤ i) (high : i ≤ last) :
    mirrored s first last i = s (first + last - i) :=
  if_pos ⟨low, high⟩

theorem mirrored_elsewhere (outside : i < first ∨ last < i) : mirrored s first last i = s i :=
  if_neg (by omega)

theorem mirrored_of_ge (short : last ≤ first) : mirrored s first last = s := by
  funext i
  by_cases inside : first ≤ i ∧ i ≤ last
  · obtain ⟨low, high⟩ := inside
    rw [mirrored_inside low high]
    congr 1
    omega
  · exact if_neg inside

/-- One exchange of the ends, and what is between them remains. -/
theorem mirrored_exchange (more : first < last) :
    mirrored (exchange s first last) (first + 1) (last - 1) = mirrored s first last := by
  funext i
  by_cases between : first + 1 ≤ i ∧ i ≤ last - 1
  · obtain ⟨low, high⟩ := between
    rw [mirrored_inside low high, mirrored_inside (by omega) (by omega),
      exchange_elsewhere (by omega) (by omega)]
    congr 1
    omega
  · rw [mirrored_elsewhere (by omega)]
    by_cases isFirst : i = first
    · subst isFirst
      rw [mirrored_inside (Nat.le_refl _) (Nat.le_of_lt more), Nat.add_sub_cancel_left]
      exact Function.update_self ..
    · by_cases isLast : i = last
      · subst isLast
        rw [mirrored_inside (Nat.le_of_lt more) (Nat.le_refl _), Nat.add_sub_cancel, exchange,
          Function.update_of_ne isFirst]
        exact Function.update_self ..
      · rw [mirrored_elsewhere (by omega)]
        exact exchange_elsewhere isFirst isLast

theorem Stored.mirrored (stored : Stored s start list) (nonempty : list ≠ []) :
    Stored (mirrored s start (start + list.length - 1)) start list.reverse := by
  obtain ⟨default, _, _⟩ := List.exists_cons_of_ne_nil nonempty
  have elements := (stored_iff default).mp stored
  apply (stored_iff default).mpr
  intro i inside
  rw [List.length_reverse] at inside
  have opposite : start + (start + list.length - 1) - (start + i) = start + (list.length - 1 - i) := by
    omega
  rw [mirrored_inside (Nat.le_add_right _ _) (by omega), opposite, elements _ (by omega)]
  simp only [List.getD_eq_getElem?_getD]
  rw [List.getElem?_reverse inside]

end Ece391.Library
