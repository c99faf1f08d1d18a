import Ece391.Outcome
import Ece391.Library.LinkedPool
import Mathlib.Data.List.FinRange

namespace Ece391

open Library

/-! # The blinkers of fish

`blink_array`, `mp1_malloc` and `mp1_free` are those of fish.c, the rest is
blink.S.  A slot of the array stands for its address.
-/

def NUM_SLOTS : Nat := 80 * 25

abbrev Slot := Fin NUM_SLOTS

/-- `struct mp1_blink_struct` without `next`, which is kept beside it. -/
structure BlinkStruct where
  location : UInt16
  onChar : Byte
  offChar : Byte
  onLength : UInt16
  offLength : UInt16
  countdown : UInt16
  status : UInt16
deriving DecidableEq

namespace BlinkStruct

def zeroed : BlinkStruct := ⟨0, 0, 0, 0, 0, 0, 0⟩

/-- What `testw $0x1,STATUS` finds. -/
def isOn (blinker : BlinkStruct) : Bool := blinker.status &&& 1 != 0

/-- The character of the state that a blinker is in. -/
def shown (blinker : BlinkStruct) : Byte := if blinker.isOn then blinker.onChar else blinker.offChar

end BlinkStruct

/-- The value of a word for a signed comparison. -/
def signedWord (word : UInt16) : Int :=
  if word.toNat < 32768 then word.toNat else word.toNat - 65536

structure Fish where
  mp1ListHead : Option Slot
  blinkArray : Slot → BlinkStruct
  next : Slot → Option Slot
  video : Nat → Byte

namespace Fish

/-- The empty list and the zeroed array. -/
def start (video : Nat → Byte) : Fish := ⟨none, fun _ => .zeroed, fun _ => none, video⟩

def mp1Poke (fish : Fish) (offset : Nat) (char : Byte) : Fish :=
  { fish with video := Function.update fish.video offset char }

def store (fish : Fish) (slot : Slot) (blinker : BlinkStruct) : Fish :=
  { fish with blinkArray := Function.update fish.blinkArray slot blinker }

/-- One pass of `tasklet_loop`: the counter is unsigned and `jg` a signed test. -/
def blink (fish : Fish) (slot : Slot) : Fish :=
  let blinker := fish.blinkArray slot
  let countdown := blinker.countdown - 1
  if 0 < signedWord countdown then fish.store slot { blinker with countdown }
  else if blinker.isOn then
    (fish.mp1Poke (2 * blinker.location.toNat) blinker.offChar).store slot
      { blinker with countdown := blinker.offLength, status := blinker.status ^^^ 1 }
  else
    (fish.mp1Poke (2 * blinker.location.toNat) blinker.onChar).store slot
      { blinker with countdown := blinker.onLength, status := blinker.status ^^^ 1 }

/-- A list that ends has at most `NUM_SLOTS` nodes: a loop along it looks at one
pointer more. -/
def FUEL : Nat := NUM_SLOTS + 1

def mp1RtcTasklet (fish : Fish) : Option Fish :=
  traverse Fish.next blink FUEL fish.mp1ListHead fish

/-- The first slot whose location is 0 counts as free. -/
def mp1Malloc (fish : Fish) : Option Slot :=
  (List.finRange NUM_SLOTS).find? fun slot => (fish.blinkArray slot).location == 0

def mp1Free (fish : Fish) (slot : Slot) : Fish :=
  { fish.store slot .zeroed with next := Function.update fish.next slot none }

/-- What `mp1_ioctl_add` stores in its copy of the user's structure. -/
def markedOn (user : BlinkStruct) : BlinkStruct :=
  { user with status := 1, countdown := user.onLength }

/-- The copy in a slot, the slot in front of the list, and its character.  The
`next` of the user's structure is overwritten before anything reads it. -/
def addAt (fish : Fish) (slot : Slot) (user : BlinkStruct) : Fish :=
  let stored := fish.store slot (markedOn user)
  let linked := { stored with
    next := Function.update stored.next slot stored.mp1ListHead
    mp1ListHead := some slot }
  linked.mp1Poke (2 * user.location.toNat) user.onChar

def mp1IoctlAdd (fish : Fish) (user : BlinkStruct) : Int × Fish :=
  if 80 * 25 ≤ user.location then (-1, fish)
  else
    match fish.mp1Malloc with
    | none => (-1, fish)
    | some slot => (0, fish.addAt slot user)

def mp1FindHelper (fish : Fish) (location : UInt16) : Option (Option Slot) :=
  search fish.next (fun slot => (fish.blinkArray slot).location == location) FUEL fish.mp1ListHead

/-- The list without a node: `remove_find_prev` and `found_prev`. -/
def removeNode (fish : Fish) (slot : Slot) : Option Fish :=
  (findPlace fish.next fish.mp1ListHead slot FUEL none).map fun place =>
    let pointers := setPointer fish.next fish.mp1ListHead (fish.next slot) place
    { fish with next := pointers.1, mp1ListHead := pointers.2 }

def mp1IoctlRemove (fish : Fish) (arg : UInt32) : Option (Int × Fish) := do
  match ← fish.mp1FindHelper arg.toUInt16 with
  | none => return (-1, fish)
  | some slot =>
      let removed ← fish.removeNode slot
      return (0, removed.mp1Free slot)

/-- The structure that is copied to the user, and its `next`. -/
def mp1IoctlFind (fish : Fish) (location : UInt16) : Option (Int × Option (BlinkStruct × Option Slot)) := do
  match ← fish.mp1FindHelper location with
  | none => return (-1, none)
  | some slot => return (0, some (fish.blinkArray slot, fish.next slot))

/-- `cmovl` after `testb`: moved if the sign of the result differs from the
overflow flag, which the test clears. -/
def cmovl (result source dest : Byte) : Byte := if 128 ≤ result then source else dest

def syncStruct (source target : BlinkStruct) : BlinkStruct :=
  { target with
    onLength := source.onLength, offLength := source.offLength
    countdown := source.countdown, status := source.status }

def syncAt (fish : Fish) (source target : Slot) : Fish :=
  let synced := syncStruct (fish.blinkArray source) (fish.blinkArray target)
  let char := cmovl (synced.status.toUInt8 &&& 1) synced.onChar synced.offChar
  (fish.store target synced).mp1Poke (2 * synced.location.toNat) char

def mp1IoctlSync (fish : Fish) (arg : UInt32) : Option (Int × Fish) := do
  match ← fish.mp1FindHelper (arg >>> 16).toUInt16 with
  | none => return (-1, fish)
  | some source =>
      match ← fish.mp1FindHelper (arg &&& 0xFFFF).toUInt16 with
      | none => return (-1, fish)
      | some target => return (0, fish.syncAt source target)

/-- A request of the user, or a tick of the clock.  The argument of `find` is the
location in the user's structure. -/
inductive Call where
  | add (user : BlinkStruct)
  | remove (arg : UInt32)
  | find (location : UInt16)
  | sync (arg : UInt32)
  | tick
deriving DecidableEq

/-- The value that a call returns, and the state it leaves; the tasklet returns
nothing. -/
def call (fish : Fish) : Call → Option (Int × Fish)
  | .add user => some (fish.mp1IoctlAdd user)
  | .remove arg => fish.mp1IoctlRemove arg
  | .find location => (fish.mp1IoctlFind location).map fun result => (result.1, fish)
  | .sync arg => fish.mp1IoctlSync arg
  | .tick => fish.mp1RtcTasklet.map fun ticked => (0, ticked)

end Fish

end Ece391
