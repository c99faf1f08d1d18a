import Ece391.Fish.Chain
import Ece391.Library.Transition

namespace Ece391

open Library

/-! # The blink list stays a list

A blinker at location 0 is accepted, and `mp1_malloc` takes its slot for a free
one.
-/

/-- The calls that an accepted `add` and a successful `remove` count for. -/
def Fish.Call.adds (call : Fish.Call) (value : Int) : Nat :=
  match call with
  | .add _ => if value = 0 then 1 else 0
  | _ => 0

def Fish.Call.removes (call : Fish.Call) (value : Int) : Nat :=
  match call with
  | .remove _ => if value = 0 then 1 else 0
  | _ => 0

/-- The blinkers, with the number of successful calls so far. -/
structure Tally where
  fish : Fish
  added : Nat
  removed : Nat

namespace Tally

def start (video : Nat → Byte) : Tally := ⟨.start video, 0, 0⟩

def step (tally : Tally) (call : Fish.Call) : Option Tally :=
  (tally.fish.call call).map fun result =>
    ⟨result.2, tally.added + call.adds result.1, tally.removed + call.removes result.1⟩

/-- The list ends, passes no slot twice and only valid locations, has the
blinkers that were added and not removed, and every call on it returns. -/
structure ListWellFormed (tally : Tally) (chain : List Slot) : Prop where
  ends : tally.fish.Chain chain
  distinct : chain.Nodup
  valid : ∀ slot ∈ chain, (tally.fish.blinkArray slot).location < 80 * 25
  count : chain.length + tally.removed = tally.added
  returns : ∀ call, tally.fish.call call ≠ none

def WellFormed (tally : Tally) : Prop := ∃ chain, tally.ListWellFormed chain

end Tally

def blinkSystem : Transitions Tally Fish.Call := ⟨Tally.step⟩

variable {tally : Tally} {chain : List Slot} {call : Fish.Call} {calls : List Fish.Call}

namespace Fish

variable {fish after : Fish} {rest : List Slot} {slot : Slot} {value : Int}

/-- Whatever is handed out, every call on a list that ends returns. -/
theorem Chain.returns (isChain : fish.Chain chain) (call : Call) : fish.call call ≠ none := by
  have other : (∀ user, call ≠ .add user) → fish.call call ≠ none := by
    intro noAdd
    have free : fish.TakesFreeSlot call := by
      cases call with
      | add user => exact absurd rfl (noAdd user)
      | remove arg => trivial
      | find location => trivial
      | sync arg => trivial
      | tick => trivial
    obtain ⟨value, after, rest, returned, _⟩ := isChain.effect free
    rw [returned]
    exact Option.some_ne_none _
  cases call with
  | add user => exact Option.some_ne_none _
  | remove arg => exact other fun user => Call.noConfusion
  | find location => exact other fun user => Call.noConfusion
  | sync arg => exact other fun user => Call.noConfusion
  | tick => exact other fun user => Call.noConfusion

end Fish

namespace Tally

theorem ListWellFormed.start (video : Nat → Byte) : (Tally.start video).ListWellFormed [] :=
  ⟨rfl, List.nodup_nil, fun _ member => absurd member List.not_mem_nil, rfl,
    (Fish.start_chain video).returns⟩

theorem ListWellFormed.step {next : Tally} (wellFormed : tally.ListWellFormed chain)
    (free : tally.fish.TakesFreeSlot call) (stepped : tally.step call = some next) :
    next.WellFormed := by
  obtain ⟨value, after, rest, returned, isChain, effect⟩ := wellFormed.ends.effect free
  simp only [Tally.step, returned, Option.map_some, Option.some.injEq] at stepped
  subst stepped
  have valid := wellFormed.valid
  have count := wellFormed.count
  refine ⟨rest, isChain, isChain.nodup, ?_, ?_, isChain.returns⟩
  · cases effect with
    | @added user slot inside _ _ =>
        intro other member
        by_cases same : other = slot
        · subst same
          dsimp only
          rw [Fish.addAt_slot]
          exact inside
        · dsimp only
          rw [Fish.addAt_other same]
          exact valid other ((List.mem_cons.mp member).resolve_left same)
    | notAdded _ => exact valid
    | removed removes =>
        intro other member
        obtain ⟨inChain, _, same⟩ := removes.kept wellFormed.distinct member
        dsimp only
        rw [same]
        exact valid other inChain
    | notRemoved _ => exact valid
    | found => exact valid
    | synced _ _ =>
        intro other member
        dsimp only
        rw [Fish.syncAt_location]
        exact valid other member
    | notSynced _ => exact valid
    | ticked =>
        intro other member
        dsimp only
        rw [Fish.foldl_blink_location]
        exact valid other member
  · cases effect with
    | added _ _ _ =>
        simp only [Fish.Call.adds, Fish.Call.removes, List.length_cons, if_true]
        omega
    | notAdded _ => exact count
    | removed removes =>
        obtain ⟨left, right, rfl, rfl⟩ := removes.split
        simp only [Fish.Call.adds, Fish.Call.removes, List.length_append, List.length_cons,
          if_true] at count ⊢
        omega
    | notRemoved _ => exact count
    | found => exact count
    | synced _ _ => exact count
    | notSynced _ => exact count
    | ticked => exact count

/-- A slot that is handed out again closes a cycle at once. -/
theorem ListWellFormed.cycle (wellFormed : tally.ListWellFormed chain)
    (reused : ¬ tally.fish.TakesFreeSlot call) :
    ∃ next, tally.step call = some next ∧ ¬ next.WellFormed := by
  cases call with
  | add user =>
      simp only [Fish.TakesFreeSlot, not_forall, not_not] at reused
      obtain ⟨inside, slot, found, live⟩ := reused
      have valid : ¬ 80 * 25 ≤ user.location := UInt16.not_le.mpr inside
      refine ⟨⟨tally.fish.addAt slot user, tally.added + 1, tally.removed⟩, ?_, ?_⟩
      · simp only [Tally.step, Fish.call, Fish.mp1IoctlAdd, if_neg valid, found]
        rfl
      · rintro ⟨others, cycle⟩
        exact wellFormed.ends.addAt_cycle (wellFormed.ends.live_iff.mp live) user others cycle.ends
  | remove arg => exact absurd trivial reused
  | find location => exact absurd trivial reused
  | sync arg => exact absurd trivial reused
  | tick => exact absurd trivial reused

end Tally

/-- The list stays well formed in exactly the runs in which no accepted blinker is
given the slot of one that is on the list. -/
theorem blinkList_wellFormed_iff (video : Nat → Byte) (calls : List Fish.Call) :
    blinkSystem.Always Tally.WellFormed (.start video) calls ↔
      blinkSystem.Respects (fun tally call => tally.fish.TakesFreeSlot call) (.start video) calls := by
  have initial : (Tally.start video).WellFormed := ⟨[], .start video⟩
  have kept : ∀ (tally : Tally) (call : Fish.Call) (next : Tally), tally.WellFormed → True →
      tally.fish.TakesFreeSlot call → blinkSystem.step tally call = some next →
        next.WellFormed := by
    rintro tally call next ⟨chain, wellFormed⟩ _ free stepped
    exact wellFormed.step free stepped
  have broken : ∀ (tally : Tally) (call : Fish.Call), tally.WellFormed → True →
      ¬ tally.fish.TakesFreeSlot call →
        ∃ next, blinkSystem.step tally call = some next ∧ ¬ next.WellFormed := by
    rintro tally call ⟨chain, wellFormed⟩ _ reused
    exact wellFormed.cycle reused
  exact Transitions.always_iff_respects_total kept (fun _ holds => holds) broken initial
    (Transitions.respects_true _ _)

/-- A blinker at the upper left corner. -/
def cornerBlinker : BlinkStruct := ⟨0, 73, 77, 7, 6, 0, 0⟩

/-- The second of two blinkers at location 0 gets the slot of the first. -/
theorem blinkList_cycle : ¬ blinkSystem.Always Tally.WellFormed (.start fun _ => 32)
    [.add cornerBlinker, .add cornerBlinker] := by
  intro always
  let first : Tally := ⟨(Fish.start fun _ => 32).addAt Fish.firstSlot cornerBlinker, 1, 0⟩
  have valid : cornerBlinker.location < 80 * 25 := by decide
  have added : (Tally.start fun _ => 32).step (.add cornerBlinker) = some first := by
    simp only [Tally.step, Tally.start, Fish.call, Fish.start_add _ valid]
    rfl
  obtain ⟨chain, wellFormed⟩ := (always.2 first added).first
  have inFront : first.fish.Chain [Fish.firstSlot] :=
    (Fish.start_chain _).addAt List.not_mem_nil cornerBlinker
  have reused : ¬ first.fish.TakesFreeSlot (.add cornerBlinker) := by
    intro free
    have again : first.fish.mp1Malloc = some Fish.firstSlot := by
      refine Fish.malloc_firstSlot ?_
      rw [Fish.addAt_slot]
      rfl
    exact free valid _ again ⟨_, inFront, List.mem_singleton_self _⟩
  obtain ⟨second, addedAgain, cycle⟩ := wellFormed.cycle reused
  exact cycle ((always.2 first added).2 second addedAgain).first

end Ece391
