import Mathlib.Data.List.FinRange
import Mathlib.Data.List.TakeWhile
import Mathlib.Data.Fin.Basic

namespace Ece391.Library

/-! # The 8259A interrupt controller, alone and as a cascaded pair -/

variable {width : Nat}

def setBit (bits : BitVec width) (line : Nat) : BitVec width := bits ||| BitVec.ofNat width 1 <<< line

def clearBit (bits : BitVec width) (line : Nat) : BitVec width := bits &&& ~~~(BitVec.ofNat width 1 <<< line)

theorem one_shiftLeft_getLsbD {line other : Nat} (below : other < width) :
    (BitVec.ofNat width 1 <<< line).getLsbD other = decide (other = line) := by
  rw [BitVec.getLsbD_shiftLeft, BitVec.getLsbD_one]
  by_cases same : other = line
  · subst other
    simp [below]
    omega
  · by_cases before : other < line
    · simp [before, same]
    · have later : other - line ≠ 0 := by omega
      simp [before, same, later]

@[simp] theorem setBit_getLsbD {bits : BitVec width} {line other : Nat} (below : other < width) :
    (setBit bits line).getLsbD other = (bits.getLsbD other || decide (other = line)) := by
  rw [setBit, BitVec.getLsbD_or, one_shiftLeft_getLsbD below]

@[simp] theorem clearBit_getLsbD {bits : BitVec width} {line other : Nat} (below : other < width) :
    (clearBit bits line).getLsbD other = (bits.getLsbD other && !decide (other = line)) := by
  rw [clearBit, BitVec.getLsbD_and, BitVec.getLsbD_not, one_shiftLeft_getLsbD below]
  simp [below]

inductive ControllerStage where
  | ready
  | icw2
  | icw3
  | icw4
deriving DecidableEq, Repr

structure InterruptController where
  stage : ControllerStage
  icw1 : BitVec 8
  vectorBase : BitVec 8
  cascade : BitVec 8
  icw4 : BitVec 8
  mask : BitVec 8
  requested : BitVec 8
  inService : BitVec 8
deriving DecidableEq, Repr

namespace InterruptController

variable (controller : InterruptController)

/-- A byte for the even port.  Rotation, the special mask and polling have no meaning here. -/
def writeCommand (value : BitVec 8) : Option InterruptController :=
  if value.getLsbD 4 then
    some { controller with
      stage := .icw2, icw1 := value, icw4 := 0, mask := 0, requested := 0, inService := 0 }
  else if value &&& 0xF8 = 0x60 then
    some { controller with inService := clearBit controller.inService (value &&& 7).toNat }
  else none

/-- The stage after ICW3, or after ICW2 of a controller without a cascade. -/
def lastStage : ControllerStage := if controller.icw1.getLsbD 0 then .icw4 else .ready

/-- A byte for the odd port. -/
def writeData (value : BitVec 8) : InterruptController :=
  match controller.stage with
  | .ready => { controller with mask := value }
  | .icw2 =>
      { controller with
        vectorBase := value &&& 0xF8
        stage := if controller.icw1.getLsbD 1 then controller.lastStage else .icw3 }
  | .icw3 => { controller with cascade := value, stage := controller.lastStage }
  | .icw4 => { controller with icw4 := value, stage := .ready }

def readData : BitVec 8 := controller.mask

def raise (line : Fin 8) : InterruptController :=
  { controller with requested := setBit controller.requested line }

def asks (line : Fin 8) : Bool :=
  controller.requested.getLsbD line && !controller.mask.getLsbD line

/-- The line the controller interrupts for, the lowest that asks below all in service. -/
def pending : Option (Fin 8) :=
  ((List.finRange 8).takeWhile fun line : Fin 8 => !controller.inService.getLsbD line).find?
    controller.asks

/-- The processor takes the interrupt; with bit 1 of ICW4 this already ends it. -/
def acknowledge (line : Fin 8) : InterruptController :=
  { controller with
    requested := clearBit controller.requested line
    inService :=
      if controller.icw4.getLsbD 1 then controller.inService
      else setBit controller.inService line }

/-- In the mode that bit 0 of ICW4 selects. -/
def vector (line : Fin 8) : Nat := (controller.vectorBase ||| BitVec.ofNat 8 line).toNat

theorem pending_idle {controller : InterruptController}
    (idle : ∀ line : Fin 8, controller.inService.getLsbD line = false) :
    controller.pending = (List.finRange 8).find? controller.asks := by
  have all : (List.finRange 8).takeWhile (fun line : Fin 8 =>
      !controller.inService.getLsbD line) = List.finRange 8 := by
    apply List.takeWhile_eq_self_iff.mpr
    intro line _
    rw [idle line, Bool.not_false]
  rw [pending, all]

end InterruptController

/-- The output of the slave is the line `wire` of the master. -/
structure ControllerPair where
  master : InterruptController
  slave : InterruptController
deriving DecidableEq, Repr

namespace ControllerPair

variable (pair : ControllerPair) (wire : Fin 8)

/-- The master with its line `wire` as the slave drives it. -/
def driven : InterruptController :=
  { pair.master with
    requested :=
      if pair.slave.pending.isSome then setBit pair.master.requested wire
      else clearBit pair.master.requested wire }

theorem driven_requested (other : Fin 8) : (pair.driven wire).requested.getLsbD other =
    if other = wire then pair.slave.pending.isSome else pair.master.requested.getLsbD other := by
  have same : decide (other.val = wire.val) = decide (other = wire) :=
    decide_eq_decide.mpr Fin.ext_iff.symm
  rw [driven]
  cases pair.slave.pending.isSome with
  | true =>
      rw [if_pos rfl, setBit_getLsbD other.isLt, same]
      by_cases here : other = wire <;> simp [here]
  | false =>
      rw [if_neg Bool.false_ne_true, clearBit_getLsbD other.isLt, same]
      by_cases here : other = wire <;> simp [here]

/-- The vector the processor gets, and the pair after that.  The slave gives the vector only
when ICW3 says the same on both sides. -/
def acknowledge : Option (Nat × ControllerPair) :=
  match (pair.driven wire).pending with
  | none => none
  | some line =>
      if line = wire ∧ !pair.master.icw1.getLsbD 1 ∧ pair.master.cascade.getLsbD wire then
        match pair.slave.pending with
        | none => none
        | some inner =>
            if pair.slave.cascade.toNat % 8 = wire then
              some (pair.slave.vector inner,
                ⟨(pair.driven wire).acknowledge line, pair.slave.acknowledge inner⟩)
            else none
      else some (pair.master.vector line, { pair with master := pair.master.acknowledge line })

end ControllerPair

/-- Finding the first element that has a value and taking the value. -/
theorem find?_isSome_bind {α β : Type} (value : α → Option β) (list : List α) :
    (list.find? fun entry => (value entry).isSome).bind value = list.findSome? value := by
  induction list with
  | nil => rfl
  | cons entry rest ih =>
      cases found : value entry with
      | none => simp [found, ih]
      | some _ => simp [found]

end Ece391.Library
