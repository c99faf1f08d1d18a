import Ece391.Fish.Blink

namespace Ece391

open Library

/-! # What a call does to the blink list

`Effect` says once what every call leaves behind; the properties of the list, of
the screen and of the periods are read off it.
-/

namespace BlinkStruct

/-- The counter runs out with the next tick. -/
def expires (blinker : BlinkStruct) : Prop := ¬ 0 < signedWord (blinker.countdown - 1)

instance (blinker : BlinkStruct) : Decidable blinker.expires := instDecidableNot

/-- The state that a blinker changes to. -/
def toggled (blinker : BlinkStruct) : BlinkStruct :=
  { blinker with
    countdown := if blinker.isOn then blinker.offLength else blinker.onLength
    status := blinker.status ^^^ 1 }

def ticked (blinker : BlinkStruct) : BlinkStruct :=
  if blinker.expires then blinker.toggled
  else { blinker with countdown := blinker.countdown - 1 }

theorem isOn_iff (blinker : BlinkStruct) :
    blinker.isOn = true ↔ blinker.status.toNat % 2 = 1 := by
  have lowest : (blinker.status &&& 1).toNat = blinker.status.toNat % 2 := by
    rw [UInt16.toNat_and]
    exact Nat.and_one_is_mod _
  rw [isOn, bne_iff_ne, ← lowest, ne_eq, ← UInt16.toNat_inj, lowest]
  exact Nat.mod_two_ne_zero

@[simp] theorem toggled_isOn (blinker : BlinkStruct) : blinker.toggled.isOn = !blinker.isOn := by
  have flipped : blinker.toggled.isOn = true ↔ ¬ blinker.isOn = true := by
    rw [isOn_iff, isOn_iff, toggled, UInt16.toNat_xor, Nat.xor_mod_two_eq_one]
    simp
  cases isOn : blinker.isOn with
  | true => simpa [isOn] using flipped
  | false => simpa [isOn] using flipped

theorem ticked_eq (blinker : BlinkStruct) :
    ∃ countdown status, blinker.ticked = { blinker with countdown, status } := by
  simp only [ticked]
  split
  · exact ⟨_, _, rfl⟩
  · exact ⟨_, _, rfl⟩

@[simp] theorem ticked_location (blinker : BlinkStruct) :
    blinker.ticked.location = blinker.location := by
  obtain ⟨countdown, status, same⟩ := blinker.ticked_eq
  rw [same]

/-- Without a change of the state a tick leaves the character. -/
theorem ticked_shown (blinker : BlinkStruct) (running : ¬ blinker.expires) :
    blinker.ticked.shown = blinker.shown := by
  rw [ticked, if_neg running]
  rfl

end BlinkStruct

namespace Fish

/-- The slots on the list, from its head on. -/
def Chain (fish : Fish) (chain : List Slot) : Prop := LinkedList fish.next fish.mp1ListHead chain

def Live (fish : Fish) (slot : Slot) : Prop := ∃ chain, fish.Chain chain ∧ slot ∈ chain

/-- The slot that `mp1_find_helper` finds. -/
def slotAt (fish : Fish) (chain : List Slot) (location : UInt16) : Option Slot :=
  chain.find? fun slot => (fish.blinkArray slot).location == location

/-- The first blinker at a location leaves the list, and its slot is zeroed. -/
structure Removes (fish : Fish) (chain : List Slot) (location : UInt16) (slot : Slot)
    (removed : Fish) (rest : List Slot) : Prop where
  found : fish.slotAt chain location = some slot
  split : ∃ left right, chain = left ++ slot :: right ∧ rest = left ++ right
  array : removed.blinkArray = Function.update fish.blinkArray slot .zeroed
  video : removed.video = fish.video

/-- What a call returns and leaves, on a list that ends and from which no slot is
handed out again. -/
inductive Effect (fish : Fish) (chain : List Slot) : Call → Int → Fish → List Slot → Prop where
  | added {user : BlinkStruct} {slot : Slot} (valid : user.location < 80 * 25)
      (free : fish.mp1Malloc = some slot) (fresh : slot ∉ chain) :
      Effect fish chain (.add user) 0 (fish.addAt slot user) (slot :: chain)
  | notAdded {user : BlinkStruct} (refused : user.location < 80 * 25 → fish.mp1Malloc = none) :
      Effect fish chain (.add user) (-1) fish chain
  | removed {arg : UInt32} {slot : Slot} {removed : Fish} {rest : List Slot}
      (removes : fish.Removes chain arg.toUInt16 slot removed rest) :
      Effect fish chain (.remove arg) 0 removed rest
  | notRemoved {arg : UInt32} (absent : fish.slotAt chain arg.toUInt16 = none) :
      Effect fish chain (.remove arg) (-1) fish chain
  | found {location : UInt16} {value : Int} : Effect fish chain (.find location) value fish chain
  | synced {arg : UInt32} {source target : Slot}
      (isSource : fish.slotAt chain (arg >>> 16).toUInt16 = some source)
      (isTarget : fish.slotAt chain (arg &&& 0xFFFF).toUInt16 = some target) :
      Effect fish chain (.sync arg) 0 (fish.syncAt source target) chain
  | notSynced {arg : UInt32}
      (absent : fish.slotAt chain (arg >>> 16).toUInt16 = none ∨
        fish.slotAt chain (arg &&& 0xFFFF).toUInt16 = none) :
      Effect fish chain (.sync arg) (-1) fish chain
  | ticked : Effect fish chain .tick 0 (chain.foldl blink fish) chain

/-- The call hands out no slot of the list. -/
def TakesFreeSlot (fish : Fish) : Call → Prop
  | .add user => user.location < 80 * 25 → ∀ slot, fish.mp1Malloc = some slot → ¬ fish.Live slot
  | _ => True

variable {fish after : Fish} {chain rest left right : List Slot} {slot : Slot} {location : UInt16}
  {call : Call} {value : Int} {user : BlinkStruct}

theorem Chain.enough (isChain : fish.Chain chain) : chain.length < FUEL :=
  Nat.lt_succ_of_le (isChain.length_le.trans_eq (Fintype.card_fin _))

theorem Chain.findHelper (isChain : fish.Chain chain) (location : UInt16) :
    fish.mp1FindHelper location = some (fish.slotAt chain location) :=
  isChain.search_eq isChain.enough

def firstSlot : Slot := ⟨0, by decide⟩

theorem malloc_firstSlot (free : (fish.blinkArray firstSlot).location = 0) :
    fish.mp1Malloc = some firstSlot := by
  obtain ⟨others, slots⟩ : ∃ others, List.finRange NUM_SLOTS = firstSlot :: others :=
    ⟨_, List.finRange_succ⟩
  rw [mp1Malloc, slots]
  exact List.find?_cons_of_pos (beq_iff_eq.mpr free)

/-- One pass of the tasklet: the blinker has ticked, and its character is drawn if
its state changes. -/
theorem blink_eq (fish : Fish) (slot : Slot) :
    fish.blink slot = { fish with
      blinkArray := Function.update fish.blinkArray slot (fish.blinkArray slot).ticked
      video :=
        if (fish.blinkArray slot).expires then
          Function.update fish.video (2 * (fish.blinkArray slot).location.toNat)
            (fish.blinkArray slot).ticked.shown
        else fish.video } := by
  by_cases expires : (fish.blinkArray slot).expires
  · have shown : (fish.blinkArray slot).toggled.shown =
        if (fish.blinkArray slot).isOn then (fish.blinkArray slot).offChar
        else (fish.blinkArray slot).onChar := by
      rw [BlinkStruct.shown, BlinkStruct.toggled_isOn]
      cases (fish.blinkArray slot).isOn with
      | true => rfl
      | false => rfl
    simp only [blink, BlinkStruct.ticked, if_pos expires]
    rw [if_neg expires, shown, BlinkStruct.toggled]
    cases (fish.blinkArray slot).isOn with
    | true => rfl
    | false => rfl
  · simp only [blink, BlinkStruct.ticked, if_neg expires]
    rw [if_pos (not_not.mp expires)]
    rfl

@[simp] theorem blink_next (fish : Fish) (slot : Slot) : (fish.blink slot).next = fish.next := by
  rw [blink_eq]

@[simp] theorem blink_head (fish : Fish) (slot : Slot) :
    (fish.blink slot).mp1ListHead = fish.mp1ListHead := by
  rw [blink_eq]

theorem Chain.tasklet (isChain : fish.Chain chain) :
    fish.mp1RtcTasklet = some (chain.foldl blink fish) :=
  LinkedList.traverse_eq blink_next isChain isChain.enough

theorem foldl_blink_next (slots : List Slot) (fish : Fish) :
    (slots.foldl blink fish).next = fish.next ∧
      (slots.foldl blink fish).mp1ListHead = fish.mp1ListHead := by
  induction slots generalizing fish with
  | nil => exact ⟨rfl, rfl⟩
  | cons slot rest ih =>
      obtain ⟨next, head⟩ := ih (fish.blink slot)
      rw [List.foldl_cons, next, head, blink_next, blink_head]
      exact ⟨rfl, rfl⟩

theorem start_chain (video : Nat → Byte) : (start video).Chain [] := rfl

theorem slotAt_some (found : fish.slotAt chain location = some slot) :
    slot ∈ chain ∧ (fish.blinkArray slot).location = location := by
  refine ⟨List.mem_of_find?_eq_some found, ?_⟩
  have passes := @List.find?_some _
    (fun candidate => (fish.blinkArray candidate).location == location) _ _ found
  exact beq_iff_eq.mp passes

theorem start_add (video : Nat → Byte) (valid : user.location < 80 * 25) :
    (start video).mp1IoctlAdd user = (0, (start video).addAt firstSlot user) := by
  have free : (start video).mp1Malloc = some firstSlot := malloc_firstSlot rfl
  simp only [mp1IoctlAdd, if_neg (UInt16.not_le.mpr valid), free]

theorem Chain.addAt (isChain : fish.Chain chain) (fresh : slot ∉ chain) (user : BlinkStruct) :
    (fish.addAt slot user).Chain (slot :: chain) := isChain.push fresh

theorem Chain.addAt_cycle (isChain : fish.Chain chain) (again : slot ∈ chain) (user : BlinkStruct)
    (others : List Slot) : ¬ (fish.addAt slot user).Chain others :=
  fun cycle => isChain.push_cycle again ⟨others, cycle⟩

theorem Chain.removeNode (isChain : fish.Chain (left ++ slot :: right)) :
    ∃ removed, fish.removeNode slot = some removed ∧ removed.Chain (left ++ right) ∧
      removed.blinkArray = fish.blinkArray ∧ removed.video = fish.video := by
  have before : slot ∉ left := by
    intro member
    have distinct := (List.nodup_append.mp isChain.nodup).2.2
    exact distinct slot member slot (List.mem_cons_self ..) rfl
  have enough : left.length < FUEL := by
    have whole := isChain.enough
    rw [List.length_append] at whole
    omega
  have upTo : Links fish.next (pointerAt fish.next fish.mp1ListHead none) left (some slot) :=
    (links_cons_node.mp isChain).1
  have found := findPlace_eq upTo before enough
  rw [Option.or_none] at found
  simp only [Fish.removeNode]
  rw [found]
  exact ⟨_, rfl, isChain.unlink, rfl, rfl⟩

theorem Chain.free (isChain : fish.Chain chain) (outside : slot ∉ chain) :
    (fish.mp1Free slot).Chain chain := Links.update isChain outside none

theorem Chain.remove (isChain : fish.Chain chain)
    (found : fish.slotAt chain location = some slot) :
    ∃ removed rest, fish.removeNode slot = some removed ∧ (removed.mp1Free slot).Chain rest ∧
      fish.Removes chain location slot (removed.mp1Free slot) rest := by
  obtain ⟨left, right, rfl⟩ := List.append_of_mem (slotAt_some found).1
  obtain ⟨removed, removing, remaining, array, video⟩ := isChain.removeNode
  have distinct := List.nodup_middle.mp isChain.nodup
  have outside : slot ∉ left ++ right := (List.nodup_cons.mp distinct).1
  refine ⟨removed, left ++ right, removing, remaining.free outside, found,
    ⟨left, right, rfl, rfl⟩, ?_, video⟩
  simp only [mp1Free, store]
  rw [array]

theorem Chain.live_iff (isChain : fish.Chain chain) : fish.Live slot ↔ slot ∈ chain := by
  constructor
  · rintro ⟨others, same, member⟩
    exact isChain.unique same ▸ member
  · exact fun member => ⟨chain, isChain, member⟩

theorem Chain.effect_add (isChain : fish.Chain chain) (free : fish.TakesFreeSlot (.add user)) :
    ∃ value after rest, fish.call (.add user) = some (value, after) ∧ after.Chain rest ∧
      fish.Effect chain (.add user) value after rest := by
  by_cases valid : user.location < 80 * 25
  · have inside : ¬ 80 * 25 ≤ user.location := UInt16.not_le.mpr valid
    cases found : fish.mp1Malloc with
    | none =>
        refine ⟨-1, fish, chain, ?_, isChain, .notAdded fun _ => found⟩
        simp only [Fish.call, mp1IoctlAdd, if_neg inside, found]
    | some slot =>
        have fresh : slot ∉ chain := fun member =>
          free valid slot found (isChain.live_iff.mpr member)
        refine ⟨0, fish.addAt slot user, slot :: chain, ?_, isChain.addAt fresh user,
          .added valid found fresh⟩
        simp only [Fish.call, mp1IoctlAdd, if_neg inside, found]
  · have outside : 80 * 25 ≤ user.location := UInt16.not_lt.mp valid
    refine ⟨-1, fish, chain, ?_, isChain, .notAdded fun inside => absurd inside valid⟩
    simp only [Fish.call, mp1IoctlAdd, if_pos outside]

theorem Chain.effect_remove (isChain : fish.Chain chain) (arg : UInt32) :
    ∃ value after rest, fish.call (.remove arg) = some (value, after) ∧ after.Chain rest ∧
      fish.Effect chain (.remove arg) value after rest := by
  have helper := isChain.findHelper arg.toUInt16
  cases found : fish.slotAt chain arg.toUInt16 with
  | none =>
      rw [found] at helper
      refine ⟨-1, fish, chain, ?_, isChain, .notRemoved found⟩
      simp only [Fish.call, mp1IoctlRemove, helper]
      rfl
  | some slot =>
      rw [found] at helper
      obtain ⟨removed, rest, removing, remaining, removes⟩ := isChain.remove found
      refine ⟨0, removed.mp1Free slot, rest, ?_, remaining, .removed removes⟩
      simp only [Fish.call, mp1IoctlRemove, helper, Option.bind_eq_bind, Option.bind_some, removing]
      rfl

/-- Looking a blinker up changes nothing. -/
theorem Chain.call_find (isChain : fish.Chain chain) (location : UInt16) :
    ∃ value, fish.call (.find location) = some (value, fish) := by
  have helper := isChain.findHelper location
  cases found : fish.slotAt chain location with
  | none =>
      rw [found] at helper
      refine ⟨-1, ?_⟩
      simp only [Fish.call, mp1IoctlFind, helper]
      rfl
  | some slot =>
      rw [found] at helper
      refine ⟨0, ?_⟩
      simp only [Fish.call, mp1IoctlFind, helper]
      rfl

/-- Synchronising leaves the list. -/
theorem Chain.effect_sync (isChain : fish.Chain chain) (arg : UInt32) :
    ∃ value after, fish.call (.sync arg) = some (value, after) ∧ after.Chain chain ∧
      fish.Effect chain (.sync arg) value after chain := by
  have fromHelper := isChain.findHelper (arg >>> 16).toUInt16
  have toHelper := isChain.findHelper (arg &&& 0xFFFF).toUInt16
  cases isSource : fish.slotAt chain (arg >>> 16).toUInt16 with
  | none =>
      rw [isSource] at fromHelper
      refine ⟨-1, fish, ?_, isChain, .notSynced (.inl isSource)⟩
      simp only [Fish.call, mp1IoctlSync, fromHelper]
      rfl
  | some source =>
      rw [isSource] at fromHelper
      cases isTarget : fish.slotAt chain (arg &&& 0xFFFF).toUInt16 with
      | none =>
          rw [isTarget] at toHelper
          refine ⟨-1, fish, ?_, isChain, .notSynced (.inr isTarget)⟩
          simp only [Fish.call, mp1IoctlSync, fromHelper, toHelper]
          rfl
      | some target =>
          rw [isTarget] at toHelper
          refine ⟨0, fish.syncAt source target, ?_, isChain, .synced isSource isTarget⟩
          simp only [Fish.call, mp1IoctlSync, fromHelper, toHelper]
          rfl

theorem Chain.call_tick (isChain : fish.Chain chain) :
    fish.call .tick = some (0, chain.foldl blink fish) ∧
      (chain.foldl blink fish).Chain chain := by
  obtain ⟨next, head⟩ := foldl_blink_next chain fish
  constructor
  · simp only [Fish.call, isChain.tasklet]
    rfl
  · simp only [Chain]
    rw [next, head]
    exact isChain

/-- Every call on a list that ends returns, and it leaves a list that ends unless
it hands out a slot of the list. -/
theorem Chain.effect (isChain : fish.Chain chain) (free : fish.TakesFreeSlot call) :
    ∃ value after rest, fish.call call = some (value, after) ∧ after.Chain rest ∧
      fish.Effect chain call value after rest := by
  cases call with
  | add user => exact isChain.effect_add free
  | remove arg => exact isChain.effect_remove arg
  | find location =>
      obtain ⟨value, returned⟩ := isChain.call_find location
      exact ⟨value, fish, chain, returned, isChain, .found⟩
  | sync arg =>
      obtain ⟨value, after, returned, remaining, effect⟩ := isChain.effect_sync arg
      exact ⟨value, after, chain, returned, remaining, effect⟩
  | tick =>
      obtain ⟨returned, remaining⟩ := isChain.call_tick
      exact ⟨0, _, chain, returned, remaining, .ticked⟩

@[simp] theorem blink_location (fish : Fish) (slot other : Slot) :
    ((fish.blink slot).blinkArray other).location = (fish.blinkArray other).location := by
  rw [blink_eq]
  by_cases same : other = slot
  · subst same
    simp only [Function.update_self, BlinkStruct.ticked_location]
  · simp only [Function.update_of_ne same]

@[simp] theorem foldl_blink_location (slots : List Slot) (fish : Fish) (other : Slot) :
    ((slots.foldl blink fish).blinkArray other).location = (fish.blinkArray other).location := by
  induction slots generalizing fish with
  | nil => rfl
  | cons slot rest ih => rw [List.foldl_cons, ih, blink_location]

@[simp] theorem syncAt_location (fish : Fish) (source target other : Slot) :
    ((fish.syncAt source target).blinkArray other).location = (fish.blinkArray other).location := by
  by_cases same : other = target
  · subst same
    simp only [syncAt, mp1Poke, store, Function.update_self, syncStruct]
  · simp only [syncAt, mp1Poke, store, Function.update_of_ne same]

theorem markedOn_isOn (user : BlinkStruct) : (markedOn user).isOn = true :=
  (BlinkStruct.isOn_iff _).mpr rfl

theorem markedOn_shown (user : BlinkStruct) : (markedOn user).shown = user.onChar :=
  if_pos (markedOn_isOn user)

theorem addAt_slot (fish : Fish) (slot : Slot) (user : BlinkStruct) :
    (fish.addAt slot user).blinkArray slot = markedOn user := Function.update_self ..

theorem addAt_other {other : Slot} (differs : other ≠ slot) (user : BlinkStruct) :
    (fish.addAt slot user).blinkArray other = fish.blinkArray other :=
  Function.update_of_ne differs ..

theorem Removes.kept {location : UInt16} {other : Slot}
    (removes : fish.Removes chain location slot after rest) (distinct : chain.Nodup)
    (member : other ∈ rest) : other ∈ chain ∧ other ≠ slot ∧
      after.blinkArray other = fish.blinkArray other := by
  obtain ⟨_, ⟨left, right, rfl, rfl⟩, array, _⟩ := removes
  obtain ⟨outside, _⟩ := List.nodup_cons.mp (List.nodup_middle.mp distinct)
  have differs : other ≠ slot := fun same => outside (same ▸ member)
  refine ⟨?_, differs, ?_⟩
  · rcases List.mem_append.mp member with inLeft | inRight
    · exact List.mem_append_left _ inLeft
    · exact List.mem_append_right _ (List.mem_cons_of_mem _ inRight)
  · rw [array, Function.update_of_ne differs]

end Fish

end Ece391
