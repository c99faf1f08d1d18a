import Mathlib.Logic.Function.Basic

namespace Ece391.Library

universe u

/-! # A list kept right before a place in memory

The place moves when the list grows or shrinks at its end.
-/

variable {α : Type u} {store other : Nat → α} {stop shift : Nat} {text : List α} {last : α}

/-- The elements of `text` are those of `store` right before `stop`. -/
structure EndsAt (store : Nat → α) (stop : Nat) (text : List α) : Prop where
  room : text.length ≤ stop
  reads : ∀ i < text.length, text[i]? = some (store (stop - text.length + i))

namespace EndsAt

theorem empty (store : Nat → α) (stop : Nat) : EndsAt store stop [] :=
  ⟨Nat.zero_le _, fun _ inside => absurd inside (Nat.not_lt_zero _)⟩

/-- What stands from `stop` on does not matter. -/
theorem congr (ends : EndsAt store stop text) (same : ∀ k < stop, other k = store k) :
    EndsAt other stop text := by
  refine ⟨ends.room, fun i inside => ?_⟩
  have before := ends.room
  rw [same _ (by omega)]
  exact ends.reads i inside

theorem append (ends : EndsAt store stop text) (same : ∀ k < stop, other k = store k)
    (stored : other stop = last) : EndsAt other (stop + 1) (text ++ [last]) := by
  have before := ends.room
  have length : (text ++ [last]).length = text.length + 1 := by simp
  refine ⟨by omega, fun i inside => ?_⟩
  rw [length] at inside ⊢
  have start : stop + 1 - (text.length + 1) = stop - text.length := by omega
  rw [start]
  by_cases earlier : i < text.length
  · rw [List.getElem?_append_left earlier, same _ (by omega)]
    exact ends.reads i earlier
  · obtain rfl : i = text.length := by omega
    have place : stop - text.length + text.length = stop := by omega
    rw [List.getElem?_concat_length, place, stored]

theorem dropLast (ends : EndsAt store stop text) (same : ∀ k < stop - 1, other k = store k) :
    EndsAt other (stop - 1) text.dropLast := by
  have before := ends.room
  refine ⟨by rw [List.length_dropLast]; omega, fun i inside => ?_⟩
  rw [List.length_dropLast] at inside ⊢
  have start : stop - 1 - (text.length - 1) = stop - text.length := by omega
  rw [List.getElem?_dropLast, if_pos inside, start, same _ (by omega)]
  exact ends.reads i (by omega)

/-- The same contents, some places further down. -/
theorem shifted (room : text.length ≤ stop) :
    EndsAt (fun k => store (k + shift)) stop text ↔ EndsAt store (stop + shift) text := by
  have place : ∀ i, stop + shift - text.length + i = stop - text.length + i + shift := by
    intro i
    omega
  constructor
  · intro ends
    exact ⟨by omega, fun i inside => by rw [place]; exact ends.reads i inside⟩
  · intro ends
    exact ⟨room, fun i inside => by rw [← place]; exact ends.reads i inside⟩

end EndsAt

end Ece391.Library
