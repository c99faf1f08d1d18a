import Ece391.Fish.Display

namespace Ece391

open Library

/-! # The periods of a blinker

The counter is declared unsigned and tested as a signed word: a length of more
than 32768 runs out with the first tick.
-/

namespace BlinkStruct

def period (user : BlinkStruct) : Nat := user.onLength.toNat + user.offLength.toNat

/-- Where in its period a blinker is `ticks` ticks after it was added. -/
def phase (user : BlinkStruct) (ticks : Nat) : Nat := ticks % user.period

/-- The character that is due then: `onChar` for `onLength` ticks, and `offChar`
for `offLength` ticks. -/
def scheduled (user : BlinkStruct) (ticks : Nat) : Byte :=
  if user.phase ticks < user.onLength.toNat then user.onChar else user.offChar

/-- A blinker with the location, the characters and the lengths of another one. -/
def SettingsOf (user blinker : BlinkStruct) : Prop :=
  ∃ countdown status, blinker = { user with countdown, status }

/-- The state and the counter that are due. -/
structure InPhase (user blinker : BlinkStruct) (ticks : Nat) : Prop where
  settings : SettingsOf user blinker
  state : blinker.isOn = decide (user.phase ticks < user.onLength.toNat)
  countdown : blinker.countdown.toNat =
    (if user.phase ticks < user.onLength.toNat then user.onLength.toNat else user.period) -
      user.phase ticks

/-- The length of the state that is due. -/
def dueLength (user : BlinkStruct) (ticks : Nat) : Nat :=
  if user.phase ticks < user.onLength.toNat then user.onLength.toNat else user.offLength.toNat

variable {user blinker : BlinkStruct} {ticks : Nat}

theorem SettingsOf.ticked (settings : SettingsOf user blinker) : SettingsOf user blinker.ticked := by
  obtain ⟨countdown, status, rfl⟩ := settings
  obtain ⟨later, changed, same⟩ := ticked_eq { user with countdown, status }
  exact ⟨later, changed, same⟩

theorem countdown_sub_one (positive : 0 < blinker.countdown.toNat) :
    (blinker.countdown - 1).toNat = blinker.countdown.toNat - 1 :=
  UInt16.toNat_sub_of_le _ _ (UInt16.le_iff_toNat_le.mpr positive)

theorem expires_iff (positive : 0 < blinker.countdown.toNat) :
    blinker.expires ↔ blinker.countdown.toNat = 1 ∨ 32768 < blinker.countdown.toNat := by
  have bound := blinker.countdown.toNat_lt
  simp only [expires, signedWord]
  rw [countdown_sub_one positive]
  split
  · omega
  · omega

theorem ticked_running (running : ¬ blinker.expires) :
    blinker.ticked.isOn = blinker.isOn ∧ blinker.ticked.countdown = blinker.countdown - 1 := by
  rw [ticked, if_neg running]
  exact ⟨rfl, rfl⟩

theorem ticked_expired (expires : blinker.expires) :
    blinker.ticked.isOn = (!blinker.isOn) ∧
      blinker.ticked.countdown = if blinker.isOn then blinker.offLength else blinker.onLength := by
  rw [ticked, if_pos expires]
  exact ⟨blinker.toggled_isOn, rfl⟩

theorem phase_lt (ticks : Nat) (off : user.offLength ≠ 0) : user.phase ticks < user.period :=
  Nat.mod_lt ticks (Nat.add_pos_right _ (Nat.pos_of_ne_zero fun zero =>
    off (UInt16.toNat_inj.mp zero)))

theorem phase_succ (ticks : Nat) (off : user.offLength ≠ 0) :
    user.phase (ticks + 1) =
      if user.phase ticks + 1 = user.period then 0 else user.phase ticks + 1 := by
  have bound : user.phase ticks < user.period := phase_lt ticks off
  have wraps : user.phase (ticks + 1) = (user.phase ticks + 1) % user.period :=
    (Nat.mod_add_mod ..).symm
  rw [wraps]
  by_cases last : user.phase ticks + 1 = user.period
  · rw [if_pos last, last, Nat.mod_self]
  · rw [if_neg last]
    exact Nat.mod_eq_of_lt (by omega)

theorem markedOn_inPhase (user : BlinkStruct) (on : user.onLength ≠ 0) :
    InPhase user (Fish.markedOn user) 0 := by
  have positive : 0 < user.onLength.toNat :=
    Nat.pos_of_ne_zero fun zero => on (UInt16.toNat_inj.mp zero)
  have first : user.phase 0 = 0 := Nat.zero_mod _
  refine ⟨⟨_, _, rfl⟩, ?_, ?_⟩
  · rw [Fish.markedOn_isOn, first]
    exact (decide_eq_true positive).symm
  · rw [first, if_pos positive]
    rfl

theorem toNat_pos {word : UInt16} (nonzero : word ≠ 0) : 0 < word.toNat :=
  Nat.pos_of_ne_zero fun zero => nonzero (UInt16.toNat_inj.mp zero)

theorem SettingsOf.lengths (settings : SettingsOf user blinker) :
    blinker.onLength = user.onLength ∧ blinker.offLength = user.offLength := by
  obtain ⟨_, _, rfl⟩ := settings
  exact ⟨rfl, rfl⟩

/-- A tick of a blinker that is on, with a length that the signed test can count. -/
theorem InPhase.ticked_on (inPhase : InPhase user blinker ticks) (off : user.offLength ≠ 0)
    (isOn : user.phase ticks < user.onLength.toNat) (fits : user.onLength.toNat ≤ 32768) :
    InPhase user blinker.ticked (ticks + 1) := by
  obtain ⟨settings, state, countdown⟩ := inPhase
  rw [if_pos isOn] at countdown
  rw [decide_eq_true isOn] at state
  have positive : 0 < blinker.countdown.toNat := by omega
  have isPeriod : user.period = user.onLength.toNat + user.offLength.toNat := rfl
  have offPositive := toNat_pos off
  have next := phase_succ ticks off
  rw [if_neg (by omega)] at next
  by_cases last : user.phase ticks + 1 = user.onLength.toNat
  · obtain ⟨flipped, restarted⟩ := ticked_expired ((expires_iff positive).mpr (.inl (by omega)))
    rw [last] at next
    refine ⟨settings.ticked, ?_, ?_⟩
    · rw [flipped, state, next, decide_eq_false (Nat.lt_irrefl _)]
      rfl
    · rw [restarted, state, if_pos rfl, settings.lengths.2, next, if_neg (Nat.lt_irrefl _)]
      omega
  · have running : ¬ blinker.expires := by
      rw [expires_iff positive]
      omega
    obtain ⟨same, counted⟩ := ticked_running running
    refine ⟨settings.ticked, ?_, ?_⟩
    · rw [same, state, next]
      exact (decide_eq_true (by omega)).symm
    · rw [counted, countdown_sub_one positive, next, if_pos (by omega)]
      omega

theorem InPhase.ticked_off (inPhase : InPhase user blinker ticks) (on : user.onLength ≠ 0)
    (off : user.offLength ≠ 0) (isOff : ¬ user.phase ticks < user.onLength.toNat)
    (fits : user.offLength.toNat ≤ 32768) : InPhase user blinker.ticked (ticks + 1) := by
  obtain ⟨settings, state, countdown⟩ := inPhase
  rw [if_neg isOff] at countdown
  rw [decide_eq_false isOff] at state
  have bound := phase_lt ticks off
  have positive : 0 < blinker.countdown.toNat := by omega
  have isPeriod : user.period = user.onLength.toNat + user.offLength.toNat := rfl
  have next := phase_succ ticks off
  by_cases last : user.phase ticks + 1 = user.period
  · obtain ⟨flipped, restarted⟩ := ticked_expired ((expires_iff positive).mpr (.inl (by omega)))
    rw [if_pos last] at next
    refine ⟨settings.ticked, ?_, ?_⟩
    · rw [flipped, state, next, decide_eq_true (toNat_pos on)]
      rfl
    · rw [restarted, state, if_neg Bool.false_ne_true, settings.lengths.1, next,
        if_pos (toNat_pos on)]
      rfl
  · have running : ¬ blinker.expires := by
      rw [expires_iff positive]
      omega
    obtain ⟨same, counted⟩ := ticked_running running
    rw [if_neg last] at next
    refine ⟨settings.ticked, ?_, ?_⟩
    · rw [same, state, next]
      exact (decide_eq_false (by omega)).symm
    · rw [counted, countdown_sub_one positive, next, if_neg (by omega)]
      omega

/-- While the length that is due is at most 32768, a tick keeps the phase. -/
theorem InPhase.ticked (inPhase : InPhase user blinker ticks) (on : user.onLength ≠ 0)
    (off : user.offLength ≠ 0) (fits : user.dueLength ticks ≤ 32768) :
    InPhase user blinker.ticked (ticks + 1) := by
  simp only [dueLength] at fits
  by_cases isOn : user.phase ticks < user.onLength.toNat
  · rw [if_pos isOn] at fits
    exact inPhase.ticked_on off isOn fits
  · rw [if_neg isOn] at fits
    exact inPhase.ticked_off on off isOn fits

/-- A longer period ends at its first tick. -/
theorem InPhase.ticked_early (inPhase : InPhase user blinker ticks)
    (long : 32768 < blinker.countdown.toNat) :
    blinker.ticked.isOn = !decide (user.phase ticks < user.onLength.toNat) := by
  have expires := (expires_iff (Nat.zero_lt_of_lt long)).mpr (.inr long)
  rw [(ticked_expired expires).1, inPhase.state]

theorem InPhase.shown (inPhase : InPhase user blinker ticks) :
    blinker.shown = user.scheduled ticks := by
  obtain ⟨⟨_, _, rfl⟩, state, _⟩ := inPhase
  simp only [BlinkStruct.shown, scheduled]
  rw [state]
  simp only [decide_eq_true_eq]

end BlinkStruct

/-- The blinkers, and the number of ticks since the count began. -/
structure Clock where
  fish : Fish
  ticks : Nat

namespace Fish

def Call.ticks : Call → Nat
  | .tick => 1
  | _ => 0

/-- The blinker in the slot is not removed, and it is not the target of a sync. -/
def Spares (fish : Fish) (slot : Slot) : Call → Prop
  | .remove arg => fish.mp1FindHelper arg.toUInt16 ≠ some (some slot)
  | .sync arg => ∀ source, fish.mp1FindHelper (arg >>> 16).toUInt16 = some (some source) →
      fish.mp1FindHelper (arg &&& 0xFFFF).toUInt16 ≠ some (some slot)
  | _ => True

/-- No other blinker is added in the cell of this one. -/
def LeavesCell (fish : Fish) (slot : Slot) : Call → Prop
  | .add user => (fish.mp1IoctlAdd user).1 = 0 →
      user.location ≠ (fish.blinkArray slot).location
  | _ => True

end Fish

def clockSystem : Transitions Clock Fish.Call :=
  ⟨fun clock call => (clock.fish.call call).map fun result =>
    ⟨result.2, clock.ticks + call.ticks⟩⟩

/-- The call leaves the list well formed and the blinker on it. -/
def Clock.Keeps (slot : Slot) (clock : Clock) (call : Fish.Call) : Prop :=
  clock.fish.TakesFreeSlot call ∧ clock.fish.Spares slot call

/-- From when it was added, a blinker is always in the state that is due, and its
cell shows that where no other blinker shares it. -/
structure HonoursPeriods (added : Fish) (slot : Slot) (user : BlinkStruct) : Prop where
  state : ∀ calls, clockSystem.Respects (Clock.Keeps slot) ⟨added, 0⟩ calls →
    clockSystem.run ⟨added, 0⟩ calls ≠ none ∧
      clockSystem.Always (fun clock => clock.fish.Live slot ∧
        (clock.fish.blinkArray slot).shown = user.scheduled clock.ticks) ⟨added, 0⟩ calls
  cell : (∀ other, added.Live other →
      (added.blinkArray other).location = user.location → other = slot) →
    ∀ calls, clockSystem.Respects
        (fun clock call => clock.Keeps slot call ∧ clock.fish.LeavesCell slot call)
        ⟨added, 0⟩ calls →
      clockSystem.Always (fun clock =>
        clock.fish.video (2 * user.location.toNat) = user.scheduled clock.ticks) ⟨added, 0⟩ calls

namespace Fish

variable {fish after added : Fish} {chain rest slots : List Slot} {slot : Slot} {call : Call}
  {value : Int} {user : BlinkStruct}

theorem blink_slot (fish : Fish) (slot : Slot) :
    (fish.blink slot).blinkArray slot = (fish.blinkArray slot).ticked := by
  rw [blink_eq]
  exact Function.update_self ..

theorem blink_other {other : Slot} (differs : other ≠ slot) :
    (fish.blink slot).blinkArray other = fish.blinkArray other := by
  rw [blink_eq]
  exact Function.update_of_ne differs ..

theorem foldl_blink_slot (distinct : slots.Nodup) :
    (slots.foldl blink fish).blinkArray slot =
      if slot ∈ slots then (fish.blinkArray slot).ticked else fish.blinkArray slot := by
  induction slots generalizing fish with
  | nil => rfl
  | cons first others ih =>
      obtain ⟨once, distinctRest⟩ := List.nodup_cons.mp distinct
      rw [List.foldl_cons, ih distinctRest]
      by_cases same : slot = first
      · subst same
        rw [if_neg once, if_pos (List.mem_cons_self ..), blink_slot]
      · simp only [List.mem_cons, same, false_or]
        rw [blink_other same]

theorem Effect.spared (effect : fish.Effect chain call value after rest)
    (isChain : fish.Chain chain) (member : slot ∈ chain) (spares : fish.Spares slot call) :
    slot ∈ rest ∧ after.blinkArray slot =
      if call = .tick then (fish.blinkArray slot).ticked else fish.blinkArray slot := by
  cases effect with
  | @added user taken _ _ fresh =>
      have differs : slot ≠ taken := fun same => fresh (same ▸ member)
      exact ⟨List.mem_cons_of_mem _ member, addAt_other differs user⟩
  | notAdded _ => exact ⟨member, rfl⟩
  | @removed arg gone removed rest removes =>
      have differs : slot ≠ gone := by
        rintro rfl
        refine spares ?_
        rw [isChain.findHelper, removes.found]
      obtain ⟨left, right, rfl, rfl⟩ := removes.split
      refine ⟨?_, ?_⟩
      · rcases List.mem_append.mp member with inLeft | inRight
        · exact List.mem_append_left _ inLeft
        · exact List.mem_append_right _ ((List.mem_cons.mp inRight).resolve_left differs)
      · rw [removes.array, if_neg Call.noConfusion]
        exact Function.update_of_ne differs ..
  | notRemoved _ => exact ⟨member, rfl⟩
  | found => exact ⟨member, rfl⟩
  | @synced arg source target isSource isTarget =>
      have differs : slot ≠ target := by
        rintro rfl
        refine spares source ?_ ?_
        · rw [isChain.findHelper, isSource]
        · rw [isChain.findHelper, isTarget]
      exact ⟨member, syncAt_other differs⟩
  | notSynced _ => exact ⟨member, rfl⟩
  | ticked =>
      refine ⟨member, ?_⟩
      rw [foldl_blink_slot isChain.nodup, if_pos member, if_pos rfl]

theorem OwnsCell.spared (owns : fish.OwnsCell chain slot) (isChain : fish.Chain chain)
    (member : slot ∈ chain) (returned : fish.call call = some (value, after))
    (effect : fish.Effect chain call value after rest) (spares : fish.Spares slot call)
    (leaves : fish.LeavesCell slot call) : after.OwnsCell rest slot := by
  refine owns.effect member (effect.spared isChain member spares).1 effect isChain.nodup ?_ ?_
  · intro user isAdd isZero
    subst isAdd
    subst isZero
    refine leaves ?_
    have result := Option.some.inj returned
    rw [result]
  · intro arg source isSync isSource isTarget
    subst isSync
    rw [Spares] at spares
    rw [isChain.findHelper, isChain.findHelper, isTarget] at spares
    exact absurd rfl (spares source (by rw [isSource]))

end Fish

/-- What a tick of the blinker keeps, and what it says about the character. -/
structure Due (user : BlinkStruct) (due : BlinkStruct → Nat → Prop) : Prop where
  tick : ∀ blinker ticks, due blinker ticks → due blinker.ticked (ticks + 1)
  settings : ∀ blinker ticks, due blinker ticks → user.SettingsOf blinker
  shown : ∀ blinker ticks, due blinker ticks → blinker.shown = user.scheduled ticks

/-- The blinker in the slot is on a well formed list, in a state that is due. -/
def Clock.Carries (slot : Slot) (due : BlinkStruct → Nat → Prop) (clock : Clock) : Prop :=
  ∃ chain, clock.fish.Chain chain ∧ slot ∈ chain ∧ due (clock.fish.blinkArray slot) clock.ticks

/-- The same with a cell of its own. -/
def Clock.CarriesCell (slot : Slot) (due : BlinkStruct → Nat → Prop) (clock : Clock) : Prop :=
  ∃ chain, clock.fish.Chain chain ∧ slot ∈ chain ∧ due (clock.fish.blinkArray slot) clock.ticks ∧
    clock.fish.OwnsCell chain slot

section Runs

variable {clock next : Clock} {slot : Slot} {user : BlinkStruct} {due : BlinkStruct → Nat → Prop}
  {call : Fish.Call} {chain : List Slot} {calls : List Fish.Call}

theorem Due.step (isDue : Due user due) (isChain : clock.fish.Chain chain) (member : slot ∈ chain)
    (now : due (clock.fish.blinkArray slot) clock.ticks) (keeps : clock.Keeps slot call) :
    ∃ value after rest, clock.fish.call call = some (value, after) ∧
      clockSystem.step clock call = some ⟨after, clock.ticks + call.ticks⟩ ∧ after.Chain rest ∧
      slot ∈ rest ∧ due (after.blinkArray slot) (clock.ticks + call.ticks) ∧
      clock.fish.Effect chain call value after rest := by
  obtain ⟨value, after, rest, returned, isRest, effect⟩ := isChain.effect keeps.1
  obtain ⟨stays, same⟩ := effect.spared isChain member keeps.2
  refine ⟨value, after, rest, returned, ?_, isRest, stays, ?_, effect⟩
  · simp only [clockSystem, returned, Option.map_some]
  · rw [same]
    cases call with
    | tick => exact isDue.tick _ _ now
    | add user => exact now
    | remove arg => exact now
    | find location => exact now
    | sync arg => exact now

theorem Due.carries (isDue : Due user due) (carries : clock.Carries slot due)
    (keeps : clock.Keeps slot call) :
    ∃ next, clockSystem.step clock call = some next ∧ next.Carries slot due := by
  obtain ⟨chain, isChain, member, now⟩ := carries
  obtain ⟨_, after, rest, _, stepped, isRest, stays, later, _⟩ :=
    isDue.step isChain member now keeps
  exact ⟨_, stepped, rest, isRest, stays, later⟩

theorem Due.carriesCell (isDue : Due user due) (carries : clock.CarriesCell slot due)
    (keeps : clock.Keeps slot call) (leaves : clock.fish.LeavesCell slot call)
    (stepped : clockSystem.step clock call = some next) : next.CarriesCell slot due := by
  obtain ⟨chain, isChain, member, now, owns⟩ := carries
  obtain ⟨value, after, rest, returned, taken, isRest, stays, later, effect⟩ :=
    isDue.step isChain member now keeps
  cases stepped.symm.trans taken
  exact ⟨rest, isRest, stays, later,
    owns.spared isChain member returned effect keeps.2 leaves⟩

/-- A blinker that starts in a state that is due honours its periods. -/
theorem Due.honoured (isDue : Due user due) {added : Fish}
    (carries : Clock.Carries slot due ⟨added, 0⟩) (shows : added.Shows slot) :
    HonoursPeriods added slot user := by
  constructor
  · intro calls keeps
    have taken : ∀ (clock : Clock) (call : Fish.Call), clock.Carries slot due →
        clock.Keeps slot call →
          ∃ next, clockSystem.step clock call = some next ∧ next.Carries slot due :=
      fun clock call carried kept => isDue.carries carried kept
    have kept : ∀ (clock : Clock) (call : Fish.Call) (next : Clock), clock.Carries slot due →
        clock.Keeps slot call → clockSystem.step clock call = some next →
          next.Carries slot due := by
      intro clock call next carried kept stepped
      obtain ⟨other, steppedTo, carriesOn⟩ := isDue.carries carried kept
      cases stepped.symm.trans steppedTo
      exact carriesOn
    obtain ⟨final, ran, _⟩ := Transitions.run_exists_of_respects taken carries keeps
    refine ⟨by rw [ran]; exact Option.some_ne_none _, ?_⟩
    refine (Transitions.always_of_respects kept carries keeps).mono ?_
    rintro clock ⟨chain, isChain, member, now⟩
    exact ⟨⟨chain, isChain, member⟩, isDue.shown _ _ now⟩
  · intro alone calls keeps
    obtain ⟨chain, isChain, member, now⟩ := carries
    have location : ∀ blinker ticks, due blinker ticks → blinker.location = user.location := by
      intro blinker ticks now
      obtain ⟨_, _, rfl⟩ := isDue.settings _ _ now
      rfl
    have owns : added.OwnsCell chain slot := by
      refine ⟨fun other inChain sameCell => ?_, shows⟩
      rw [location _ _ now] at sameCell
      exact alone other (isChain.live_iff.mpr inChain) sameCell
    have carriesCell : Clock.CarriesCell slot due ⟨added, 0⟩ := ⟨chain, isChain, member, now, owns⟩
    have kept : ∀ (clock : Clock) (call : Fish.Call) (next : Clock), clock.CarriesCell slot due →
        clock.Keeps slot call ∧ clock.fish.LeavesCell slot call →
          clockSystem.step clock call = some next → next.CarriesCell slot due :=
      fun clock call next carried kept stepped => isDue.carriesCell carried kept.1 kept.2 stepped
    refine (Transitions.always_of_respects kept carriesCell keeps).mono ?_
    rintro clock ⟨chain, isChain, member, now, owns⟩
    rw [← isDue.shown _ _ now, ← location _ _ now]
    exact owns.shows

theorem run_ticks {fish : Fish} (isChain : fish.Chain chain) (member : slot ∈ chain) (count : Nat) :
    ∃ final : Clock, clockSystem.run ⟨fish, 0⟩ (List.replicate count .tick) = some final ∧
      final.ticks = count ∧ final.fish.Chain chain ∧
      final.fish.blinkArray slot = BlinkStruct.ticked^[count] (fish.blinkArray slot) := by
  induction count with
  | zero => exact ⟨⟨fish, 0⟩, rfl, rfl, isChain, rfl⟩
  | succ count ih =>
      obtain ⟨clock, ran, ticks, still, same⟩ := ih
      obtain ⟨next, head⟩ := Fish.foldl_blink_next chain clock.fish
      have stepped : clockSystem.step clock .tick =
          some ⟨chain.foldl Fish.blink clock.fish, clock.ticks + 1⟩ := by
        simp only [clockSystem, Fish.call, still.tasklet, Option.map_some]
        rfl
      refine ⟨⟨chain.foldl Fish.blink clock.fish, clock.ticks + 1⟩, ?_, ?_, ?_, ?_⟩
      · rw [List.replicate_succ']
        exact Transitions.run_append.mpr ⟨clock, ran, Transitions.run_singleton.trans stepped⟩
      · rw [ticks]
      · simp only [Fish.Chain]
        rw [next, head]
        exact still
      · rw [Fish.foldl_blink_slot still.nodup, if_pos member, same,
          Function.iterate_succ_apply']

theorem HonoursPeriods.ticked {added : Fish} (honours : HonoursPeriods added slot user)
    (isChain : added.Chain chain) (member : slot ∈ chain) (count : Nat) :
    (BlinkStruct.ticked^[count] (added.blinkArray slot)).shown = user.scheduled count := by
  have keeps : clockSystem.Respects (Clock.Keeps slot) ⟨added, 0⟩ (List.replicate count .tick) := by
    refine Transitions.respects_of_forall _ fun call isTick clock => ?_
    rw [List.eq_of_mem_replicate isTick]
    exact ⟨trivial, trivial⟩
  obtain ⟨final, ran, ticks, _, same⟩ := run_ticks isChain member count
  have due := ((honours.state _ keeps).2.last ran).2
  rwa [same, ticks] at due

end Runs

namespace BlinkStruct

variable {user : BlinkStruct}

/-- A length in the signed range is counted to its end. -/
theorem iterate_inPhase (on : user.onLength ≠ 0) (off : user.offLength ≠ 0)
    (fits : user.onLength.toNat ≤ 32768) {count : Nat} (within : count ≤ user.onLength.toNat) :
    InPhase user (ticked^[count] (Fish.markedOn user)) count := by
  induction count with
  | zero => exact markedOn_inPhase user on
  | succ count ih =>
      have inFirst : user.phase count < user.onLength.toNat :=
        Nat.lt_of_le_of_lt (Nat.mod_le ..) within
      rw [Function.iterate_succ_apply']
      exact (ih (Nat.le_of_succ_le within)).ticked_on off inFirst fits

/-- The tick after a longer length began shows the character of the other state,
which is not due yet. -/
theorem InPhase.wrong_character {blinker : BlinkStruct} {ticks : Nat}
    (inPhase : InPhase user blinker ticks) (long : 32768 < blinker.countdown.toNat)
    (same : user.phase (ticks + 1) < user.onLength.toNat ↔ user.phase ticks < user.onLength.toNat)
    (shown : blinker.ticked.shown = user.scheduled (ticks + 1)) : user.onChar = user.offChar := by
  have early := inPhase.ticked_early long
  obtain ⟨_, _, isTicked⟩ := inPhase.settings.ticked
  have settings : blinker.ticked.onChar = user.onChar ∧ blinker.ticked.offChar = user.offChar := by
    rw [isTicked]
    exact ⟨rfl, rfl⟩
  rw [BlinkStruct.shown, early, settings.1, settings.2, scheduled] at shown
  simp only [same] at shown
  by_cases isOn : user.phase ticks < user.onLength.toNat
  · rw [decide_eq_true isOn, if_pos isOn] at shown
    exact shown.symm
  · rw [decide_eq_false isOn, if_neg isOn] at shown
    exact shown

/-- Lengths that are shown as scheduled fit into the signed range, or nobody sees
the difference. -/
theorem fits_of_shown (on : user.onLength ≠ 0) (off : user.offLength ≠ 0)
    (shown : ∀ count, (ticked^[count] (Fish.markedOn user)).shown = user.scheduled count) :
    (user.onLength ≤ 32768 ∧ user.offLength ≤ 32768) ∨ user.onChar = user.offChar := by
  have isPeriod : user.period = user.onLength.toNat + user.offLength.toNat := rfl
  have offPositive := toNat_pos off
  by_cases onFits : user.onLength ≤ 32768
  · by_cases offFits : user.offLength ≤ 32768
    · exact .inl ⟨onFits, offFits⟩
    · refine .inr ?_
      have long : 32768 < user.offLength.toNat := UInt16.lt_iff_toNat_lt.mp (UInt16.not_le.mp offFits)
      have inPhase := iterate_inPhase on off (UInt16.le_iff_toNat_le.mp onFits) (Nat.le_refl _)
      have isOff : user.phase user.onLength.toNat = user.onLength.toNat :=
        Nat.mod_eq_of_lt (by omega)
      have later : user.phase (user.onLength.toNat + 1) = user.onLength.toNat + 1 :=
        Nat.mod_eq_of_lt (by omega)
      have counter := inPhase.countdown
      rw [isOff, if_neg (Nat.lt_irrefl _)] at counter
      refine inPhase.wrong_character (by omega) ?_ ?_
      · rw [isOff, later]
        omega
      · have next := shown (user.onLength.toNat + 1)
        rwa [Function.iterate_succ_apply'] at next
  · refine .inr ?_
    have long : 32768 < user.onLength.toNat := UInt16.lt_iff_toNat_lt.mp (UInt16.not_le.mp onFits)
    have inPhase := markedOn_inPhase user on
    have first : user.phase 0 = 0 := Nat.zero_mod _
    have later : user.phase 1 = 1 := Nat.mod_eq_of_lt (by omega)
    refine inPhase.wrong_character long ?_ (shown 1)
    rw [first, later]
    omega

end BlinkStruct

theorem Fish.added_eq {fish added : Fish} {chain : List Slot} {slot : Slot} {user : BlinkStruct}
    (isChain : fish.Chain chain) (takesFree : fish.TakesFreeSlot (.add user))
    (accepted : fish.mp1IoctlAdd user = (0, added)) (isHead : added.mp1ListHead = some slot) :
    added = fish.addAt slot user ∧ added.Chain (slot :: chain) := by
  obtain ⟨value, after, rest, returned, isRest, effect⟩ := isChain.effect takesFree
  rw [Fish.call, accepted] at returned
  cases returned
  cases effect with
  | added _ _ _ =>
      cases isHead
      exact ⟨rfl, isRest⟩

/-- A blinker honours its periods, whatever else is done, if and only if the signed
test can count its lengths or its two characters are the same. -/
theorem periods_honoured_iff {fish added : Fish} {chain : List Slot} {slot : Slot}
    {user : BlinkStruct} (isChain : fish.Chain chain) (takesFree : fish.TakesFreeSlot (.add user))
    (accepted : fish.mp1IoctlAdd user = (0, added)) (isHead : added.mp1ListHead = some slot)
    (on : user.onLength ≠ 0) (off : user.offLength ≠ 0) :
    HonoursPeriods added slot user ↔
      (user.onLength ≤ 32768 ∧ user.offLength ≤ 32768) ∨ user.onChar = user.offChar := by
  obtain ⟨rfl, isAdded⟩ := Fish.added_eq isChain takesFree accepted isHead
  have shows := Fish.addAt_shows fish slot user
  have member : slot ∈ slot :: chain := List.mem_cons_self ..
  have array : (fish.addAt slot user).blinkArray slot = Fish.markedOn user :=
    Fish.addAt_slot fish slot user
  constructor
  · intro honours
    refine BlinkStruct.fits_of_shown on off fun count => ?_
    rw [← array]
    exact honours.ticked isAdded member count
  · rintro (⟨onFits, offFits⟩ | same)
    · have due : Due user user.InPhase := by
        refine ⟨fun blinker ticks now => now.ticked on off ?_, fun _ _ now => now.settings,
          fun _ _ now => now.shown⟩
        simp only [BlinkStruct.dueLength]
        split
        · exact UInt16.le_iff_toNat_le.mp onFits
        · exact UInt16.le_iff_toNat_le.mp offFits
      refine due.honoured ⟨slot :: chain, isAdded, member, ?_⟩ shows
      dsimp only
      rw [array]
      exact BlinkStruct.markedOn_inPhase user on
    · have due : Due user fun blinker _ => user.SettingsOf blinker := by
        refine ⟨fun _ _ now => now.ticked, fun _ _ now => now, ?_⟩
        rintro blinker ticks ⟨_, _, rfl⟩
        simp only [BlinkStruct.shown, BlinkStruct.scheduled, same, ite_self]
      refine due.honoured ⟨slot :: chain, isAdded, member, ?_⟩ shows
      dsimp only
      rw [array]
      exact ⟨_, _, rfl⟩

theorem start_takesFree (video : Nat → Byte) (call : Fish.Call) :
    (Fish.start video).TakesFreeSlot call := by
  have owns : (Fish.start video).Owns [] := ⟨by simp, by simp⟩
  exact owns.free (Fish.start_chain video) call

theorem periods_honoured_lonely :
    HonoursPeriods ((Fish.start fun _ => 32).addAt Fish.firstSlot lonelyBlinker) Fish.firstSlot
      lonelyBlinker := by
  have added := Fish.start_add (fun _ => 32) (show lonelyBlinker.location < 80 * 25 by decide)
  exact (periods_honoured_iff (Fish.start_chain _) (start_takesFree _ _) added rfl (by decide)
    (by decide)).mpr (.inl ⟨by decide, by decide⟩)

/-- A blinker that is to be on for 40000 ticks. -/
def slowBlinker : BlinkStruct := ⟨1, 73, 77, 40000, 6, 0, 0⟩

/-- It is off after the first one. -/
theorem slow_blinker_early :
    (Fish.start fun _ => 32).mp1IoctlAdd slowBlinker =
        (0, (Fish.start fun _ => 32).addAt Fish.firstSlot slowBlinker) ∧
      ¬ HonoursPeriods ((Fish.start fun _ => 32).addAt Fish.firstSlot slowBlinker) Fish.firstSlot
        slowBlinker := by
  refine ⟨Fish.start_add (fun _ => 32) (by decide), fun honours => ?_⟩
  have isChain : ((Fish.start fun _ => 32).addAt Fish.firstSlot slowBlinker).Chain
      [Fish.firstSlot] := (Fish.start_chain _).addAt List.not_mem_nil slowBlinker
  have shown := honours.ticked isChain (List.mem_singleton_self _)
  simp only [Fish.addAt_slot] at shown
  rcases BlinkStruct.fits_of_shown (by decide) (by decide) shown with ⟨onFits, _⟩ | same
  · exact absurd onFits (by decide)
  · exact absurd same (by decide)

end Ece391
