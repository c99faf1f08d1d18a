import Ece391.Fish.Chain
import Ece391.Library.Transition

namespace Ece391

open Library

/-! # The characters on the screen

Blinkers at distinct locations own their cells.  `mp1_ioctl_sync` draws the
character of a state that is off, whatever state it copies.
-/

def fishSystem : Transitions Fish Fish.Call :=
  ⟨fun fish call => (fish.call call).map Prod.snd⟩

namespace Fish

/-- The cell of a blinker holds the character of its state. -/
def Shows (fish : Fish) (slot : Slot) : Prop :=
  fish.video (2 * (fish.blinkArray slot).location.toNat) = (fish.blinkArray slot).shown

/-- The list ends, and every blinker on it is shown. -/
def Displayed (fish : Fish) : Prop := ∃ chain, fish.Chain chain ∧ ∀ slot ∈ chain, fish.Shows slot

/-- No other blinker on the list is at the location of this one, which is shown. -/
structure OwnsCell (fish : Fish) (chain : List Slot) (slot : Slot) : Prop where
  alone : ∀ other ∈ chain,
    (fish.blinkArray other).location = (fish.blinkArray slot).location → other = slot
  shows : fish.Shows slot

/-- Every blinker on the list owns its cell, and none is at location 0. -/
structure Owns (fish : Fish) (chain : List Slot) : Prop where
  cells : ∀ slot ∈ chain, fish.OwnsCell chain slot
  nonzero : ∀ slot ∈ chain, (fish.blinkArray slot).location ≠ 0

/-- A blinker is added at a valid location other than 0 where none is yet. -/
def AddsElsewhere (fish : Fish) : Call → Prop
  | .add user => user.location ≠ 0 ∧ user.location < 80 * 25 ∧
      ∀ slot, fish.Live slot → (fish.blinkArray slot).location ≠ user.location
  | _ => True

/-- A blinker that is on is only synced to one with two equal characters. -/
def SyncsFromOff (fish : Fish) : Call → Prop
  | .sync arg => ∀ source target,
      fish.mp1FindHelper (arg >>> 16).toUInt16 = some (some source) →
      fish.mp1FindHelper (arg &&& 0xFFFF).toUInt16 = some (some target) →
      (fish.blinkArray source).isOn = true →
      (fish.blinkArray target).onChar = (fish.blinkArray target).offChar
  | _ => True

variable {fish after : Fish} {chain rest slots : List Slot} {slot other source target : Slot}
  {location : UInt16} {call : Call} {value : Int} {user : BlinkStruct} {calls : List Call}

theorem cell_ne {left right : UInt16} (differs : left ≠ right) :
    2 * left.toNat ≠ 2 * right.toNat := by
  intro same
  exact differs (UInt16.toNat_inj.mp (Nat.eq_of_mul_eq_mul_left (by decide) same))

theorem malloc_location (found : fish.mp1Malloc = some slot) :
    (fish.blinkArray slot).location = 0 := by
  have passes := @List.find?_some _ (fun candidate => (fish.blinkArray candidate).location == 0)
    _ _ found
  exact beq_iff_eq.mp passes

theorem Owns.free (owns : fish.Owns chain) (isChain : fish.Chain chain) (call : Call) :
    fish.TakesFreeSlot call := by
  cases call with
  | add user =>
      intro _ slot found live
      exact owns.nonzero slot (isChain.live_iff.mp live) (malloc_location found)
  | remove arg => trivial
  | find location => trivial
  | sync arg => trivial
  | tick => trivial

/-- A blinker that is drawn over by none keeps its character. -/
theorem Shows.of_same (shows : fish.Shows slot)
    (same : after.blinkArray slot = fish.blinkArray slot)
    (cell : after.video (2 * (fish.blinkArray slot).location.toNat) =
      fish.video (2 * (fish.blinkArray slot).location.toNat)) : after.Shows slot := by
  simp only [Shows]
  rw [same, cell]
  exact shows

theorem addAt_shows (fish : Fish) (slot : Slot) (user : BlinkStruct) :
    (fish.addAt slot user).Shows slot := by
  have drawn : (fish.addAt slot user).video (2 * user.location.toNat) = user.onChar :=
    Function.update_self ..
  simp only [Shows]
  rw [addAt_slot, markedOn_shown]
  exact drawn

theorem Shows.addAt (shows : fish.Shows slot) (differs : slot ≠ other)
    (away : user.location ≠ (fish.blinkArray slot).location) :
    (fish.addAt other user).Shows slot :=
  shows.of_same (addAt_other differs user) (Function.update_of_ne (cell_ne away.symm) _ _)

/-- The sign flag of a result with at most its lowest bit set is clear. -/
theorem cmovl_testb (status source dest : Byte) : cmovl (status &&& 1) source dest = dest := by
  have small : ¬ 128 ≤ status &&& 1 := by
    rw [UInt8.le_iff_toNat_le, UInt8.toNat_and]
    have lowest := Nat.and_le_right (n := status.toNat) (m := 1)
    exact fun large => absurd (Nat.le_trans large lowest) (by decide)
  exact if_neg small

theorem syncAt_target (fish : Fish) (source target : Slot) :
    (fish.syncAt source target).blinkArray target =
      syncStruct (fish.blinkArray source) (fish.blinkArray target) := Function.update_self ..

theorem syncAt_other (differs : other ≠ target) :
    (fish.syncAt source target).blinkArray other = fish.blinkArray other :=
  Function.update_of_ne differs ..

theorem syncAt_cell (fish : Fish) (source target : Slot) :
    (fish.syncAt source target).video (2 * (fish.blinkArray target).location.toNat) =
      (fish.blinkArray target).offChar := by
  simp only [syncAt, mp1Poke, syncStruct, Function.update_self, cmovl_testb]

/-- The target of a sync is shown if and only if it is off now, or its characters
are equal. -/
theorem syncAt_shows_iff (fish : Fish) (source target : Slot) :
    (fish.syncAt source target).Shows target ↔ ((fish.blinkArray source).isOn = true →
      (fish.blinkArray target).onChar = (fish.blinkArray target).offChar) := by
  have shown : (syncStruct (fish.blinkArray source) (fish.blinkArray target)).shown =
      if (fish.blinkArray source).isOn then (fish.blinkArray target).onChar
      else (fish.blinkArray target).offChar := rfl
  simp only [Shows]
  rw [syncAt_location, syncAt_cell, syncAt_target, shown]
  cases (fish.blinkArray source).isOn with
  | true => exact ⟨fun same _ => same.symm, fun same => (same rfl).symm⟩
  | false => exact ⟨fun _ isOn => absurd isOn Bool.false_ne_true, fun _ => rfl⟩

theorem Shows.syncAt (shows : fish.Shows slot) (differs : slot ≠ target)
    (away : (fish.blinkArray target).location ≠ (fish.blinkArray slot).location) :
    (fish.syncAt source target).Shows slot := by
  refine shows.of_same (syncAt_other differs) ?_
  exact Function.update_of_ne (cell_ne away.symm) _ _

theorem Shows.blink (shows : fish.Shows slot)
    (alone : (fish.blinkArray other).location = (fish.blinkArray slot).location → other = slot) :
    (fish.blink other).Shows slot := by
  by_cases same : other = slot
  · subst same
    simp only [Shows]
    rw [blink_location, blink_eq]
    dsimp only
    rw [Function.update_self]
    split
    · exact Function.update_self ..
    · rename_i running
      rw [BlinkStruct.ticked_shown _ running]
      exact shows
  · have away : (fish.blinkArray slot).location ≠ (fish.blinkArray other).location :=
      fun sameCell => same (alone sameCell.symm)
    refine shows.of_same ?_ ?_
    · rw [blink_eq]
      exact Function.update_of_ne (Ne.symm same) _ _
    · rw [blink_eq]
      dsimp only
      split
      · exact Function.update_of_ne (cell_ne away) _ _
      · rfl

theorem Shows.foldl_blink (shows : fish.Shows slot)
    (alone : ∀ other ∈ slots,
      (fish.blinkArray other).location = (fish.blinkArray slot).location → other = slot) :
    (slots.foldl Fish.blink fish).Shows slot := by
  induction slots generalizing fish with
  | nil => exact shows
  | cons first others ih =>
      refine ih (shows.blink (alone first (List.mem_cons_self ..))) fun other member sameCell => ?_
      rw [blink_location, blink_location] at sameCell
      exact alone other (List.mem_cons_of_mem _ member) sameCell

/-- A blinker that stays on the list keeps its cell, if no other is added there and
it is drawn rightly when it is synced. -/
theorem OwnsCell.effect (owns : fish.OwnsCell chain slot) (member : slot ∈ chain)
    (stays : slot ∈ rest) (effect : fish.Effect chain call value after rest)
    (distinct : chain.Nodup)
    (elsewhere : ∀ user, call = .add user → value = 0 →
      user.location ≠ (fish.blinkArray slot).location)
    (drawn : ∀ arg source, call = .sync arg →
      fish.slotAt chain (arg >>> 16).toUInt16 = some source →
      fish.slotAt chain (arg &&& 0xFFFF).toUInt16 = some slot →
      (fish.syncAt source slot).Shows slot) : after.OwnsCell rest slot := by
  cases effect with
  | @added user taken _ _ fresh =>
      have differs : slot ≠ taken := fun same => fresh (same ▸ member)
      have away := elsewhere user rfl rfl
      refine ⟨fun other inRest sameCell => ?_, owns.shows.addAt differs away⟩
      rw [addAt_other differs] at sameCell
      by_cases isNew : other = taken
      · rw [isNew, addAt_slot] at sameCell
        exact absurd sameCell away
      · rw [addAt_other isNew] at sameCell
        exact owns.alone other ((List.mem_cons.mp inRest).resolve_left isNew) sameCell
  | notAdded _ => exact owns
  | removed removes =>
      obtain ⟨_, _, same⟩ := removes.kept distinct stays
      refine ⟨fun other inRest sameCell => ?_, owns.shows.of_same same (by rw [removes.video])⟩
      obtain ⟨inChain, _, sameOther⟩ := removes.kept distinct inRest
      rw [same, sameOther] at sameCell
      exact owns.alone other inChain sameCell
  | notRemoved _ => exact owns
  | found => exact owns
  | @synced arg source target isSource isTarget =>
      refine ⟨fun other inRest sameCell => ?_, ?_⟩
      · rw [syncAt_location, syncAt_location] at sameCell
        exact owns.alone other inRest sameCell
      · by_cases isSlot : slot = target
        · subst isSlot
          exact drawn arg source rfl isSource isTarget
        · refine owns.shows.syncAt isSlot fun sameCell => isSlot ?_
          exact (owns.alone target (slotAt_some isTarget).1 sameCell).symm
  | notSynced _ => exact owns
  | ticked =>
      refine ⟨fun other inRest sameCell => ?_, owns.shows.foldl_blink owns.alone⟩
      rw [foldl_blink_location, foldl_blink_location] at sameCell
      exact owns.alone other inRest sameCell

theorem Chain.syncs_iff (isChain : fish.Chain chain) (arg : UInt32)
    (isSource : fish.slotAt chain (arg >>> 16).toUInt16 = some source)
    (isTarget : fish.slotAt chain (arg &&& 0xFFFF).toUInt16 = some target) :
    fish.SyncsFromOff (.sync arg) ↔ (fish.syncAt source target).Shows target := by
  rw [syncAt_shows_iff]
  simp only [SyncsFromOff]
  rw [isChain.findHelper, isChain.findHelper, isSource, isTarget]
  constructor
  · exact fun allowed => allowed source target rfl rfl
  · intro same first second isFirst isSecond
    cases isFirst
    cases isSecond
    exact same

theorem Owns.effect (owns : fish.Owns chain) (isChain : fish.Chain chain)
    (elsewhere : fish.AddsElsewhere call) (fromOff : fish.SyncsFromOff call)
    (effect : fish.Effect chain call value after rest) : after.Owns rest := by
  have cells : ∀ slot ∈ chain, slot ∈ rest → after.OwnsCell rest slot := by
    intro slot member stays
    refine (owns.cells slot member).effect member stays effect isChain.nodup ?_ ?_
    · intro user isAdd _ sameCell
      rw [isAdd] at elsewhere
      exact elsewhere.2.2 slot (isChain.live_iff.mpr member) sameCell.symm
    · intro arg source isSync isSource isTarget
      rw [isSync] at fromOff
      exact (isChain.syncs_iff arg isSource isTarget).mp fromOff
  have nonzero := owns.nonzero
  cases effect with
  | @added user taken _ _ fresh =>
      have unused : ∀ slot ∈ chain, (fish.blinkArray slot).location ≠ user.location :=
        fun slot member => elsewhere.2.2 slot (isChain.live_iff.mpr member)
      have differs : ∀ slot ∈ chain, slot ≠ taken := fun slot member same => fresh (same ▸ member)
      have kept : ∀ slot ∈ chain, (fish.addAt taken user).blinkArray slot = fish.blinkArray slot :=
        fun slot member => addAt_other (differs slot member) user
      constructor
      · intro slot member
        rcases List.mem_cons.mp member with rfl | inChain
        · refine ⟨fun other inRest sameCell => ?_, addAt_shows fish slot user⟩
          rcases List.mem_cons.mp inRest with rfl | otherIn
          · rfl
          · rw [addAt_slot, kept other otherIn] at sameCell
            exact absurd sameCell (unused other otherIn)
        · exact cells slot inChain member
      · intro slot member
        rcases List.mem_cons.mp member with rfl | inChain
        · rw [addAt_slot]
          exact elsewhere.1
        · rw [kept slot inChain]
          exact nonzero slot inChain
  | notAdded _ => exact owns
  | removed removes =>
      refine ⟨fun slot member => ?_, fun slot member => ?_⟩
      · exact cells slot (removes.kept isChain.nodup member).1 member
      · obtain ⟨inChain, _, same⟩ := removes.kept isChain.nodup member
        rw [same]
        exact nonzero slot inChain
  | notRemoved _ => exact owns
  | found => exact owns
  | synced _ _ =>
      refine ⟨fun slot member => cells slot member member, fun slot member => ?_⟩
      rw [syncAt_location]
      exact nonzero slot member
  | notSynced _ => exact owns
  | ticked =>
      refine ⟨fun slot member => cells slot member member, fun slot member => ?_⟩
      rw [foldl_blink_location]
      exact nonzero slot member

/-- A blinker that is on, synced to one with another character for its off state,
leaves that one with the wrong character. -/
theorem Owns.wrong (owns : fish.Owns chain) (isChain : fish.Chain chain)
    (wrong : ¬ fish.SyncsFromOff call) :
    ∃ next, fishSystem.step fish call = some next ∧ ¬ next.Displayed := by
  obtain ⟨value, next, rest, returned, isNext, effect⟩ := isChain.effect (owns.free isChain call)
  refine ⟨next, ?_, ?_⟩
  · simp only [fishSystem, returned, Option.map_some]
  · rintro ⟨others, isOthers, shows⟩
    cases effect with
    | added _ _ _ => exact wrong trivial
    | notAdded _ => exact wrong trivial
    | removed _ => exact wrong trivial
    | notRemoved _ => exact wrong trivial
    | found => exact wrong trivial
    | synced isSource isTarget =>
        have member := (slotAt_some isTarget).1
        rw [isNext.unique isOthers] at member
        exact wrong ((isChain.syncs_iff _ isSource isTarget).mpr (shows _ member))
    | notSynced absent =>
        refine wrong fun source target isSource isTarget => ?_
        rw [isChain.findHelper] at isSource isTarget
        rcases absent with none | none
        · rw [none] at isSource
          cases isSource
        · rw [none] at isTarget
          cases isTarget
    | ticked => exact wrong trivial

end Fish

/-- The screen always shows the state of each blinker in exactly the runs in which
no blinker that is on is synced to one with two different characters. -/
theorem screen_shows_iff (video : Nat → Byte) (calls : List Fish.Call)
    (elsewhere : fishSystem.Respects Fish.AddsElsewhere (.start video) calls) :
    fishSystem.Always Fish.Displayed (.start video) calls ↔
      fishSystem.Respects Fish.SyncsFromOff (.start video) calls := by
  have initial : ∃ chain, (Fish.start video).Chain chain ∧ (Fish.start video).Owns chain :=
    ⟨[], Fish.start_chain video, by simp, by simp⟩
  have kept : ∀ (fish : Fish) (call : Fish.Call) (next : Fish),
      (∃ chain, fish.Chain chain ∧ fish.Owns chain) → fish.AddsElsewhere call →
      fish.SyncsFromOff call → fishSystem.step fish call = some next →
        ∃ chain, next.Chain chain ∧ next.Owns chain := by
    rintro fish call next ⟨chain, isChain, owns⟩ elsewhere fromOff stepped
    obtain ⟨value, after, rest, returned, isNext, effect⟩ :=
      isChain.effect (owns.free isChain call)
    simp only [fishSystem, returned, Option.map_some, Option.some.injEq] at stepped
    subst stepped
    exact ⟨rest, isNext, owns.effect isChain elsewhere fromOff effect⟩
  have shows : ∀ fish : Fish, (∃ chain, fish.Chain chain ∧ fish.Owns chain) → fish.Displayed := by
    rintro fish ⟨chain, isChain, owns⟩
    exact ⟨chain, isChain, fun slot member => (owns.cells slot member).shows⟩
  have broken : ∀ (fish : Fish) (call : Fish.Call),
      (∃ chain, fish.Chain chain ∧ fish.Owns chain) → fish.AddsElsewhere call →
      ¬ fish.SyncsFromOff call → ∃ next, fishSystem.step fish call = some next ∧
        ¬ next.Displayed := by
    rintro fish call ⟨chain, isChain, owns⟩ _ wrong
    exact owns.wrong isChain wrong
  exact Transitions.always_iff_respects_total kept shows broken initial elsewhere

/-- A blinker at location 1 that shows an `I` while it is on. -/
def lonelyBlinker : BlinkStruct := ⟨1, 73, 77, 7, 6, 0, 0⟩

theorem lonely_elsewhere : (Fish.start fun _ => 32).AddsElsewhere (.add lonelyBlinker) := by
  refine ⟨by decide, by decide, ?_⟩
  rintro slot ⟨chain, isChain, member⟩
  rw [LinkedList.unique isChain (Fish.start_chain _)] at member
  exact absurd member List.not_mem_nil

/-- The state with this blinker alone. -/
def lonelyFish : Fish := (Fish.start fun _ => 32).addAt Fish.firstSlot lonelyBlinker

theorem lonely_added : fishSystem.step (.start fun _ => 32) (.add lonelyBlinker) = some lonelyFish := by
  have valid : lonelyBlinker.location < 80 * 25 := by decide
  simp only [fishSystem, Fish.call, Fish.start_add _ valid]
  rfl

theorem lonelyFish_chain : lonelyFish.Chain [Fish.firstSlot] :=
  (Fish.start_chain _).addAt List.not_mem_nil lonelyBlinker

theorem lonelyFish_slot : lonelyFish.blinkArray Fish.firstSlot = Fish.markedOn lonelyBlinker :=
  Fish.addAt_slot ..

/-- A blinker beside it. -/
def neighbourBlinker : BlinkStruct := ⟨2, 74, 78, 3, 2, 0, 0⟩

theorem neighbour_elsewhere : lonelyFish.AddsElsewhere (.add neighbourBlinker) := by
  refine ⟨by decide, by decide, ?_⟩
  rintro slot ⟨chain, isChain, member⟩
  rw [LinkedList.unique isChain lonelyFish_chain] at member
  rw [List.mem_singleton.mp member, lonelyFish_slot]
  decide

theorem screen_shows_neighbours :
    fishSystem.Respects Fish.AddsElsewhere (.start fun _ => 32)
        [.add lonelyBlinker, .add neighbourBlinker, .tick, .tick] ∧
      fishSystem.Always Fish.Displayed (.start fun _ => 32)
        [.add lonelyBlinker, .add neighbourBlinker, .tick, .tick] := by
  have elsewhere : fishSystem.Respects Fish.AddsElsewhere (.start fun _ => 32)
      [.add lonelyBlinker, .add neighbourBlinker, .tick, .tick] := by
    refine (Transitions.respects_cons lonely_added).mpr ⟨lonely_elsewhere, neighbour_elsewhere, ?_⟩
    exact fun _ _ => ⟨trivial, fun _ _ => ⟨trivial, fun _ _ => trivial⟩⟩
  exact ⟨elsewhere, (screen_shows_iff _ _ elsewhere).mpr
    ⟨trivial, fun _ _ => ⟨trivial, fun _ _ => ⟨trivial, fun _ _ => ⟨trivial, fun _ _ => trivial⟩⟩⟩⟩⟩

/-- A blinker that is on shows its other character after it is synced to itself. -/
theorem sync_shows_off :
    fishSystem.Respects Fish.AddsElsewhere (.start fun _ => 32)
        [.add lonelyBlinker, .sync 0x10001] ∧
      ¬ fishSystem.Always Fish.Displayed (.start fun _ => 32)
        [.add lonelyBlinker, .sync 0x10001] := by
  have isChain := lonelyFish_chain
  have slot := lonelyFish_slot
  have owns : lonelyFish.Owns [Fish.firstSlot] := by
    refine ⟨fun slot member => ⟨fun other inChain _ => ?_, ?_⟩, fun slot member => ?_⟩
    · rw [List.mem_singleton.mp inChain, List.mem_singleton.mp member]
    · rw [List.mem_singleton.mp member]
      exact Fish.addAt_shows _ _ _
    · rw [List.mem_singleton.mp member, lonelyFish_slot]
      decide
  have wrong : ¬ lonelyFish.SyncsFromOff (.sync 0x10001) := by
    have found : lonelyFish.slotAt [Fish.firstSlot] 1 = some Fish.firstSlot := by
      refine List.find?_cons_of_pos ?_
      rw [slot]
      rfl
    intro fromOff
    have shows : (lonelyFish.syncAt Fish.firstSlot Fish.firstSlot).Shows Fish.firstSlot :=
      (isChain.syncs_iff 0x10001 found found).mp fromOff
    have same := (Fish.syncAt_shows_iff ..).mp shows
    rw [slot] at same
    exact absurd (same (Fish.markedOn_isOn _)) (by decide)
  constructor
  · refine ⟨lonely_elsewhere, fun next stepped => ?_⟩
    exact ⟨trivial, fun last _ => trivial⟩
  · intro always
    obtain ⟨second, synced, notDisplayed⟩ := owns.wrong isChain wrong
    exact notDisplayed ((always.2 lonelyFish lonely_added).2 second synced).first

end Ece391
