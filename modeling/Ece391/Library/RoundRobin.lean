import Ece391.Library.Transition
import Mathlib.Data.List.Count

namespace Ece391.Library

universe u v

/-! # Taking turns

A search that goes around in a circle from where the last one ended, and how
long an entry waits for it.
-/

namespace RoundRobin

variable {size : Nat} {ready : Nat → Bool} {rounds index found current target : Nat}

/-- The first entry that is ready, from `index` on. -/
def search (size : Nat) (ready : Nat → Bool) : (rounds index : Nat) → Option Nat
  | 0, _ => none
  | rounds + 1, index =>
      if ready index then some index else search size ready rounds ((index + 1) % size)

theorem step_index (index offset : Nat) :
    ((index + 1) % size + offset) % size = (index + (offset + 1)) % size := by
  rw [Nat.mod_add_mod, Nat.add_assoc, Nat.add_comm 1]

/-- What is found lies at the first offset that is ready. -/
theorem search_eq_some (inside : index < size)
    (finds : search size ready rounds index = some found) :
    ∃ offset < rounds, found = (index + offset) % size ∧ ready found = true ∧
      ∀ earlier < offset, ready ((index + earlier) % size) = false := by
  induction rounds generalizing index with
  | zero => cases finds
  | succ rounds ih =>
      rw [search] at finds
      have positive : 0 < size := Nat.lt_of_le_of_lt (Nat.zero_le _) inside
      have here : (index + 0) % size = index := Nat.mod_eq_of_lt inside
      cases isReady : ready index with
      | true =>
          rw [if_pos isReady] at finds
          cases finds
          exact ⟨0, Nat.succ_pos _, here.symm, isReady, nofun⟩
      | false =>
          rw [isReady, if_neg Bool.false_ne_true] at finds
          obtain ⟨offset, below, place, foundReady, before⟩ := ih (Nat.mod_lt _ positive) finds
          rw [step_index] at place
          refine ⟨offset + 1, Nat.succ_lt_succ below, place, foundReady, fun earlier less => ?_⟩
          cases earlier with
          | zero => rwa [here]
          | succ earlier =>
              rw [← step_index]
              exact before earlier (Nat.lt_of_succ_lt_succ less)

theorem search_ne_none {offset : Nat} (inside : index < size) (below : offset < rounds)
    (isReady : ready ((index + offset) % size) = true) :
    search size ready rounds index ≠ none := by
  induction rounds generalizing index offset with
  | zero => cases below
  | succ rounds ih =>
      have positive : 0 < size := Nat.lt_of_le_of_lt (Nat.zero_le _) inside
      rw [search]
      cases first : ready index with
      | true =>
          rw [if_pos rfl]
          exact Option.some_ne_none _
      | false =>
          rw [if_neg Bool.false_ne_true]
          cases offset with
          | zero =>
              rw [Nat.add_zero, Nat.mod_eq_of_lt inside, first] at isReady
              cases isReady
          | succ offset =>
              rw [← step_index] at isReady
              exact ih (Nat.mod_lt _ positive) (Nat.lt_of_succ_lt_succ below) isReady

/-- The entries between the one whose turn it is and the target. -/
def waits (size current target : Nat) : Nat := (target + (size - 1 - current)) % size

theorem waits_lt (positive : 0 < size) (current target : Nat) : waits size current target < size :=
  Nat.mod_lt _ positive

theorem waits_offset (insideCurrent : current < size) (inside : target < size) :
    ((current + 1) % size + waits size current target) % size = target := by
  have total : (current + 1) + (target + (size - 1 - current)) = target + size := by omega
  rw [waits, ← Nat.add_mod, total, Nat.add_mod_right, Nat.mod_eq_of_lt inside]

/-- The next one whose turn it is, as long as the target is ready: it is the target or nearer
to it. -/
theorem search_nearer (insideCurrent : current < size) (inside : target < size)
    (isReady : ready target = true)
    (finds : search size ready size ((current + 1) % size) = some found) :
    found < size ∧ (found ≠ target → waits size found target < waits size current target) := by
  have positive : 0 < size := Nat.lt_of_le_of_lt (Nat.zero_le _) inside
  obtain ⟨offset, below, place, _, before⟩ := search_eq_some (Nat.mod_lt _ positive) finds
  refine ⟨by rw [place]; exact Nat.mod_lt _ positive, fun other => ?_⟩
  have there := waits_offset insideCurrent inside
  have bound := waits_lt positive current target
  have notLater : offset ≤ waits size current target := by
    by_contra later
    have notReady := before _ (Nat.lt_of_not_le later)
    rw [there, isReady] at notReady
    cases notReady
  have notThere : offset ≠ waits size current target := by
    rintro rfl
    exact other (place.trans there)
  have foundInside : found < size := by
    rw [place]
    exact Nat.mod_lt _ positive
  have remaining : (found + (waits size current target - offset)) % size = target := by
    rw [place, Nat.mod_add_mod, Nat.add_assoc, Nat.add_sub_cancel' notLater, there]
  have nearer : waits size found target = waits size current target - offset - 1 := by
    have total : found + (waits size current target - offset) + (size - 1 - found) =
        waits size current target - offset - 1 + size := by omega
    rw [waits, ← remaining, Nat.mod_add_mod, total, Nat.add_mod_right, remaining,
      Nat.mod_eq_of_lt (by omega)]
  omega

end RoundRobin

namespace Transitions

variable {σ : Type u} {ι : Type v} {system : Transitions σ ι}

/-- Turns that each bring a rank down are at most as many as the rank, while every other step
does not raise it. -/
theorem turns_le_rank (rank : σ → Nat) {waiting : σ → Prop} {turn : ι → Bool}
    (falls : ∀ state input next, waiting state → waiting next → turn input = true →
      system.step state input = some next → rank next < rank state)
    (rests : ∀ state input next, waiting state → waiting next → turn input = false →
      system.step state input = some next → rank next ≤ rank state)
    {state final : σ} {inputs : List ι} (always : system.Always waiting state inputs)
    (ran : system.run state inputs = some final) : inputs.countP turn + rank final ≤ rank state := by
  induction inputs generalizing state with
  | nil =>
      cases ran
      exact Nat.le_of_eq (Nat.zero_add _)
  | cons input rest ih =>
      obtain ⟨next, stepped, remaining⟩ := run_cons.mp ran
      have later := always.2 next stepped
      have bound := ih later remaining
      cases kind : turn input with
      | true =>
          have less := falls _ _ _ always.1 later.first kind stepped
          rw [List.countP_cons_of_pos kind]
          omega
      | false =>
          have notMore := rests _ _ _ always.1 later.first kind stepped
          rw [List.countP_cons_of_neg (by rw [kind]; exact Bool.false_ne_true)]
          omega

end Transitions

end Ece391.Library
