import Mathlib.Data.Nat.Digits.Lemmas

namespace Ece391.Library

/-! # Numerals in a base, the most significant digit first -/

/-- The digits of a number, with one digit for 0. -/
def numeral (base value : Nat) : List Nat :=
  if value = 0 then [0] else (Nat.digits base value).reverse

/-- The digits as a place value notation. -/
def evaluate (base : Nat) (digits : List Nat) : Nat :=
  digits.foldl (fun value digit => value * base + digit) 0

/-- What makes a list of digits the numeral of a number. -/
structure Canonical (base value : Nat) (digits : List Nat) : Prop where
  digit : ∀ digit ∈ digits, digit < base
  evaluates : evaluate base digits = value
  leading : value ≠ 0 → digits.head? ≠ some 0
  zero : value = 0 → digits = [0]

variable {base value bound : Nat} {digits : List Nat}

theorem evaluate_eq_ofDigits : evaluate base digits = Nat.ofDigits base digits.reverse := by
  induction digits using List.reverseRecOn with
  | nil => rfl
  | append_singleton front last ih =>
      rw [List.reverse_append, List.reverse_singleton, List.singleton_append, Nat.ofDigits_cons,
        ← ih, evaluate, List.foldl_append, List.foldl_cons, List.foldl_nil, Nat.mul_comm base,
        Nat.add_comm]
      rfl

theorem numeral_of_pos (positive : 0 < value) :
    numeral base value = (Nat.digits base value).reverse :=
  if_neg (Nat.ne_of_gt positive)

theorem numeral_canonical (large : 2 ≤ base) : Canonical base value (numeral base value) := by
  by_cases zero : value = 0
  · subst zero
    have single : numeral base 0 = [0] := rfl
    have evaluates : evaluate base [0] = 0 := by simp [evaluate]
    rw [single]
    refine ⟨fun digit member => ?_, evaluates, fun positive => absurd rfl positive, fun _ => rfl⟩
    rw [List.mem_singleton.mp member]
    omega
  · have nonempty : Nat.digits base value ≠ [] := Nat.digits_ne_nil_iff_ne_zero.mpr zero
    rw [numeral_of_pos (Nat.pos_of_ne_zero zero)]
    refine ⟨fun digit member => ?_, ?_, fun _ => ?_, fun isZero => absurd isZero zero⟩
    · exact Nat.digits_lt_base large (List.mem_reverse.mp member)
    · rw [evaluate_eq_ofDigits, List.reverse_reverse, Nat.ofDigits_digits]
    · rw [List.head?_reverse, List.getLast?_eq_some_getLast nonempty]
      intro leading
      exact Nat.getLast_digit_ne_zero base zero (Option.some.inj leading)

theorem numeral_length_le (large : 2 ≤ base) (positive : 0 < bound) (small : value < base ^ bound) :
    (numeral base value).length ≤ bound := by
  by_cases zero : value = 0
  · subst zero
    exact positive
  · rw [numeral_of_pos (Nat.pos_of_ne_zero zero), List.length_reverse,
      Nat.digits_length_le_iff large]
    exact small

/-- Zeros in front leave the value as it is. -/
theorem evaluate_padded (count : Nat) :
    evaluate base (List.replicate count 0 ++ digits) = evaluate base digits := by
  rw [evaluate_eq_ofDigits, evaluate_eq_ofDigits, List.reverse_append, List.reverse_replicate,
    Nat.ofDigits_append_replicate_zero]

end Ece391.Library
