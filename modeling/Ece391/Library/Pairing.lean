import Ece391.Library.Transition

namespace Ece391.Library

universe u v w

/-! # Two runs side by side

Each input has, in the state it is taken from, a label that an observer sees, or
none.  Two runs with the same labels in the same order can be scheduled so that
the labelled steps are taken together; properties of both runs are then
invariants of the pair.
-/

/-- A step of one run that the observer does not see, or one step of each run
that he sees alike. -/
inductive PairInput (ι : Type v) where
  | left (input : ι)
  | right (input : ι)
  | both (first second : ι)

namespace PairInput

variable {ι : Type v}

def lefts : List (PairInput ι) → List ι
  | [] => []
  | .left input :: rest => input :: lefts rest
  | .right _ :: rest => lefts rest
  | .both first _ :: rest => first :: lefts rest

def rights : List (PairInput ι) → List ι
  | [] => []
  | .left _ :: rest => rights rest
  | .right input :: rest => input :: rights rest
  | .both _ second :: rest => second :: rights rest

end PairInput

namespace Transitions

variable {σ : Type u} {ι : Type v} {ο : Type w} (system : Transitions σ ι)
  (label : σ → ι → Option ο)

/-- The labels of a run. -/
def seen : σ → List ι → List ο
  | _, [] => []
  | state, input :: rest =>
      let later := match system.step state input with
        | some next => seen next rest
        | none => []
      match label state input with
      | some visible => visible :: later
      | none => later

open Classical in
noncomputable def pair : Transitions (σ × σ) (PairInput ι) where
  step states
    | .left input =>
        if label states.1 input = none then
          (system.step states.1 input).map fun next => (next, states.2)
        else none
    | .right input =>
        if label states.2 input = none then
          (system.step states.2 input).map fun next => (states.1, next)
        else none
    | .both first second =>
        if label states.1 first ≠ none ∧ label states.1 first = label states.2 second then
          (system.step states.1 first).bind fun left =>
            (system.step states.2 second).map fun right => (left, right)
        else none

variable {system label}

theorem pair_left {states after : σ × σ} {input : ι} :
    (system.pair label).step states (.left input) = some after ↔
      label states.1 input = none ∧ system.step states.1 input = some after.1 ∧
        after.2 = states.2 := by
  obtain ⟨left, right⟩ := after
  simp only [pair]
  split
  · rename_i hidden
    simp only [Option.map_eq_some_iff, Prod.mk.injEq, hidden, true_and]
    constructor
    · rintro ⟨next, stepped, rfl, rfl⟩
      exact ⟨stepped, rfl⟩
    · rintro ⟨stepped, rfl⟩
      exact ⟨left, stepped, rfl, rfl⟩
  · rename_i shown
    simp [shown]

theorem pair_right {states after : σ × σ} {input : ι} :
    (system.pair label).step states (.right input) = some after ↔
      label states.2 input = none ∧ system.step states.2 input = some after.2 ∧
        after.1 = states.1 := by
  obtain ⟨left, right⟩ := after
  simp only [pair]
  split
  · rename_i hidden
    simp only [Option.map_eq_some_iff, Prod.mk.injEq, hidden, true_and]
    constructor
    · rintro ⟨next, stepped, rfl, rfl⟩
      exact ⟨stepped, rfl⟩
    · rintro ⟨stepped, rfl⟩
      exact ⟨right, stepped, rfl, rfl⟩
  · rename_i shown
    simp [shown]

theorem pair_both {states after : σ × σ} {first second : ι} :
    (system.pair label).step states (.both first second) = some after ↔
      label states.1 first ≠ none ∧ label states.1 first = label states.2 second ∧
        system.step states.1 first = some after.1 ∧ system.step states.2 second = some after.2 := by
  obtain ⟨left, right⟩ := after
  simp only [pair]
  split
  · rename_i alike
    simp only [Option.bind_eq_some_iff, Option.map_eq_some_iff, Prod.mk.injEq]
    constructor
    · rintro ⟨one, firstStep, other, secondStep, rfl, rfl⟩
      exact ⟨alike.1, alike.2, firstStep, secondStep⟩
    · rintro ⟨_, _, firstStep, secondStep⟩
      exact ⟨left, firstStep, right, secondStep, rfl, rfl⟩
  · rename_i differ
    simp only [reduceCtorEq, false_iff]
    rintro ⟨shown, same, _, _⟩
    exact differ ⟨shown, same⟩

theorem seen_cons {state next : σ} {input : ι} {rest : List ι}
    (stepped : system.step state input = some next) :
    system.seen label state (input :: rest) =
      match label state input with
      | some visible => visible :: system.seen label next rest
      | none => system.seen label next rest := by
  simp only [seen, stepped]

/-- A run without labels is taken by the right component alone. -/
theorem pair_run_right {left right final : σ} {inputs : List ι}
    (ran : system.run right inputs = some final) (nothing : system.seen label right inputs = []) :
    ∃ joint, PairInput.lefts joint = [] ∧ PairInput.rights joint = inputs ∧
      (system.pair label).run (left, right) joint = some (left, final) := by
  induction inputs generalizing right with
  | nil =>
      cases ran
      exact ⟨[], rfl, rfl, rfl⟩
  | cons input rest ih =>
      obtain ⟨next, stepped, remaining⟩ := run_cons.mp ran
      rw [seen_cons stepped] at nothing
      cases hidden : label right input with
      | some visible =>
          rw [hidden] at nothing
          cases nothing
      | none =>
          rw [hidden] at nothing
          obtain ⟨joint, lefts, rights, together⟩ := ih remaining nothing
          refine ⟨.right input :: joint, lefts, congrArg (input :: ·) rights, ?_⟩
          exact run_cons.mpr ⟨(left, next), pair_right.mpr ⟨hidden, stepped, rfl⟩, together⟩

/-- Two runs that look alike are the two halves of a run of the pair. -/
theorem pair_run_exists {left right leftFinal rightFinal : σ} {leftInputs rightInputs : List ι}
    (ranLeft : system.run left leftInputs = some leftFinal)
    (ranRight : system.run right rightInputs = some rightFinal)
    (alike : system.seen label left leftInputs = system.seen label right rightInputs) :
    ∃ joint, PairInput.lefts joint = leftInputs ∧ PairInput.rights joint = rightInputs ∧
      (system.pair label).run (left, right) joint = some (leftFinal, rightFinal) := by
  induction leftInputs generalizing left right rightInputs with
  | nil =>
      cases ranLeft
      exact pair_run_right ranRight alike.symm
  | cons input rest ih =>
      obtain ⟨next, stepped, remaining⟩ := run_cons.mp ranLeft
      rw [seen_cons stepped] at alike
      cases shown : label left input with
      | none =>
          rw [shown] at alike
          obtain ⟨joint, lefts, rights, together⟩ := ih remaining ranRight alike
          refine ⟨.left input :: joint, congrArg (input :: ·) lefts, rights, ?_⟩
          exact run_cons.mpr ⟨(next, right), pair_left.mpr ⟨shown, stepped, rfl⟩, together⟩
      | some visible =>
          rw [shown] at alike
          -- the right run catches up to the step with this label
          induction rightInputs generalizing right with
          | nil => cases alike
          | cons other others ihRight =>
              obtain ⟨nextRight, steppedRight, remainingRight⟩ := run_cons.mp ranRight
              rw [seen_cons steppedRight] at alike
              cases shownRight : label right other with
              | none =>
                  rw [shownRight] at alike
                  obtain ⟨joint, lefts, rights, together⟩ := ihRight remainingRight alike
                  refine ⟨.right other :: joint, lefts, congrArg (other :: ·) rights, ?_⟩
                  exact run_cons.mpr
                    ⟨(left, nextRight), pair_right.mpr ⟨shownRight, steppedRight, rfl⟩, together⟩
              | some visibleRight =>
                  rw [shownRight] at alike
                  obtain ⟨sameLabel, later⟩ := List.cons.inj alike
                  obtain ⟨joint, lefts, rights, together⟩ := ih remaining remainingRight later
                  refine ⟨.both input other :: joint, congrArg (input :: ·) lefts,
                    congrArg (other :: ·) rights, ?_⟩
                  have agree : label left input = label right other := by
                    rw [shown, shownRight, sameLabel]
                  have visibleLeft : label left input ≠ none := by
                    rw [shown]
                    exact Option.some_ne_none visible
                  exact run_cons.mpr ⟨(next, nextRight),
                    pair_both.mpr ⟨visibleLeft, agree, stepped, steppedRight⟩, together⟩

/-- What each run takes on its own, the pair takes. -/
def Each (allowed : σ → ι → Prop) (states : σ × σ) : PairInput ι → Prop
  | .left input => allowed states.1 input
  | .right input => allowed states.2 input
  | .both first second => allowed states.1 first ∧ allowed states.2 second

theorem pair_respects {allowed : σ → ι → Prop} {states : σ × σ} {joint : List (PairInput ι)}
    (left : system.Respects allowed states.1 (PairInput.lefts joint))
    (right : system.Respects allowed states.2 (PairInput.rights joint)) :
    (system.pair label).Respects (Each allowed) states joint := by
  induction joint generalizing states with
  | nil => trivial
  | cons input rest ih =>
      cases input with
      | left input =>
          refine ⟨left.1, fun after stepped => ?_⟩
          obtain ⟨_, taken, same⟩ := pair_left.mp stepped
          exact ih (left.2 _ taken) (by rw [same]; exact right)
      | right input =>
          refine ⟨right.1, fun after stepped => ?_⟩
          obtain ⟨_, taken, same⟩ := pair_right.mp stepped
          exact ih (by rw [same]; exact left) (right.2 _ taken)
      | both first second =>
          refine ⟨⟨left.1, right.1⟩, fun after stepped => ?_⟩
          obtain ⟨_, _, takenLeft, takenRight⟩ := pair_both.mp stepped
          exact ih (left.2 _ takenLeft) (right.2 _ takenRight)

end Transitions

end Ece391.Library
