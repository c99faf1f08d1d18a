import Ece391.Interrupt.EndOfInterrupt
import Ece391.Interrupt.Gates
import Ece391.Library.InterruptController

namespace Ece391

open Library

/-! # The interrupt controllers (i8259.c) -/

def PIC1_DATA : Nat := PIC1_COMMAND + 1
def PIC2_DATA : Nat := PIC2_COMMAND + 1
def ICW1 : Nat := 0x11
def ICW2_MASTER : Nat := 0x20
def ICW2_SLAVE : Nat := 0x28
def ICW3_MASTER : Nat := 0x04
def ICW3_SLAVE : Nat := 0x02
def ICW4 : Nat := 0x01

/-- The slave's output is line 2 of the master. -/
def cascadeLine : Fin 8 := 2

/-- The lines of the timer, the keyboard and the real-time clock. -/
def timerLine : Fin 16 := 0

def keyboardLine : Fin 16 := 1

def clockLine : Fin 16 := 8

namespace ControllerPorts

def outb (pair : ControllerPair) (write : PortWrite) : Option ControllerPair :=
  let data := BitVec.ofNat 8 write.value
  if write.port = PIC1_COMMAND then
    (pair.master.writeCommand data).map fun master => { pair with master }
  else if write.port = PIC2_COMMAND then
    (pair.slave.writeCommand data).map fun slave => { pair with slave }
  else if write.port = PIC1_DATA then some { pair with master := pair.master.writeData data }
  else if write.port = PIC2_DATA then some { pair with slave := pair.slave.writeData data }
  else none

def outbs (pair : ControllerPair) (writes : List PortWrite) : Option ControllerPair :=
  writes.foldlM outb pair

/-- `inb` of one of the two data ports. -/
def inb (pair : ControllerPair) (port : Nat) : Word :=
  (if port = PIC1_DATA then pair.master.readData else pair.slave.readData).setWidth 32

end ControllerPorts

open ControllerPorts

def i8259Init : List PortWrite :=
  let masterMask := 0xFF
  let slaveMask := 0xFF
  [⟨ICW1, PIC1_COMMAND⟩, ⟨ICW1, PIC2_COMMAND⟩, ⟨ICW2_MASTER, PIC1_DATA⟩, ⟨ICW2_SLAVE, PIC2_DATA⟩,
    ⟨ICW3_MASTER, PIC1_DATA⟩, ⟨ICW3_SLAVE, PIC2_DATA⟩, ⟨ICW4, PIC1_DATA⟩, ⟨ICW4, PIC2_DATA⟩,
    ⟨masterMask, PIC1_DATA⟩, ⟨slaveMask, PIC2_DATA⟩]

/-- The part of `enable_irq` below the choice of the port. -/
def unmask (port irqNum : Nat) (pair : ControllerPair) : Option ControllerPair :=
  let value : BitVec 8 := (inb pair port &&& ~~~((1 : Word) <<< irqNum)).setWidth 8
  outb pair ⟨value.toNat, port⟩

def enableIrq (irqNum : Nat) (pair : ControllerPair) : Option ControllerPair :=
  if irqNum < 8 then unmask PIC1_DATA irqNum pair
  else do
    -- `enable_irq(2)`
    let pair ← unmask PIC1_DATA 2 pair
    unmask PIC2_DATA (irqNum - 8) pair

def disableIrq (irqNum : Nat) (pair : ControllerPair) : Option ControllerPair :=
  let port := if irqNum < 8 then PIC1_DATA else PIC2_DATA
  let irqNum := if irqNum < 8 then irqNum else irqNum - 8
  let value : BitVec 8 := (inb pair port ||| (1 : Word) <<< irqNum).setWidth 8
  outb pair ⟨value.toNat, port⟩

inductive ControllerInput where
  /-- A device raises its line. -/
  | raise (line : Fin 16)
  /-- The processor takes an interrupt. -/
  | interrupt
  /-- The handler has sent its end of interrupt. -/
  | handled
  | enable (line : Fin 16)
  | disable (line : Fin 16)
deriving DecidableEq, Repr

/-- `running` is the vector whose handler has not come to `send_eoi`, which keeps interrupts off,
and `delivered` are all vectors the processor got. -/
structure ControllerSystem where
  pair : ControllerPair
  running : Option Nat
  delivered : List Nat
deriving DecidableEq, Repr

namespace ControllerSystem

def raise (system : ControllerSystem) (line : Fin 16) : Option ControllerSystem :=
  let pair := system.pair
  if line.val = cascadeLine then none
  else if master : line < 8 then
    some { system with pair := { pair with master := pair.master.raise ⟨line, master⟩ } }
  else
    some { system with pair := { pair with slave := pair.slave.raise ⟨line - 8, by omega⟩ } }

def interrupt (system : ControllerSystem) : Option ControllerSystem :=
  if system.running.isSome then none
  else do
    let (vector, pair) ← system.pair.acknowledge cascadeLine
    return { pair, running := some vector, delivered := system.delivered ++ [vector] }

/-- The stub of a vector passes on how far it lies behind the master's first. -/
def handled (system : ControllerSystem) : Option ControllerSystem := do
  let vector ← system.running
  let pair ← outbs system.pair (sendEoi (vector - ICW2_MASTER))
  return { system with pair, running := none }

def setPair (system : ControllerSystem) (change : ControllerPair → Option ControllerPair) :
    Option ControllerSystem :=
  (change system.pair).map fun pair => { system with pair }

end ControllerSystem

def controllerSystem : Transitions ControllerSystem ControllerInput where
  step
    | system, .raise line => system.raise line
    | system, .interrupt => system.interrupt
    | system, .handled => system.handled
    | system, .enable line => system.setPair (enableIrq line)
    | system, .disable line => system.setPair (disableIrq line)

/-- Sixteen lines with priorities, one served at a time.  Lines from 8 on pass line 2. -/
structure IrqLines where
  enabled : Fin 16 → Bool
  raised : Fin 16 → Bool
  serving : Option (Fin 16)
  delivered : List (Fin 16)

namespace IrqLines

/-- By falling priority. -/
def order : List (Fin 16) := [0, 1, 8, 9, 10, 11, 12, 13, 14, 15, 3, 4, 5, 6, 7]

def asks (lines : IrqLines) (line : Fin 16) : Bool :=
  lines.raised line && lines.enabled line && (decide (line < 8) || lines.enabled 2)

def raise (lines : IrqLines) (line : Fin 16) : Option IrqLines :=
  if line = 2 then none
  else some { lines with raised := Function.update lines.raised line true }

def interrupt (lines : IrqLines) : Option IrqLines :=
  if lines.serving.isSome then none
  else do
    let line ← order.find? lines.asks
    return { lines with
      raised := Function.update lines.raised line false
      serving := some line
      delivered := lines.delivered ++ [line] }

def handled (lines : IrqLines) : Option IrqLines :=
  if lines.serving.isSome then some { lines with serving := none } else none

def enable (lines : IrqLines) (line : Fin 16) : IrqLines :=
  let enabled := if line < 8 then lines.enabled else Function.update lines.enabled 2 true
  { lines with enabled := Function.update enabled line true }

def disable (lines : IrqLines) (line : Fin 16) : IrqLines :=
  { lines with enabled := Function.update lines.enabled line false }

def masked : IrqLines := ⟨fun _ => false, fun _ => false, none, []⟩

end IrqLines

def irqLines : Transitions IrqLines ControllerInput where
  step
    | lines, .raise line => lines.raise line
    | lines, .interrupt => lines.interrupt
    | lines, .handled => lines.handled
    | lines, .enable line => some (lines.enable line)
    | lines, .disable line => some (lines.disable line)

/-- What `i8259_init` leaves a controller configured as. -/
structure Configured (controller : InterruptController) (base cascade : BitVec 8) : Prop where
  stage : controller.stage = .ready
  icw1 : controller.icw1 = BitVec.ofNat 8 ICW1
  icw4 : controller.icw4 = BitVec.ofNat 8 ICW4
  vectorBase : controller.vectorBase = base
  cascade : controller.cascade = cascade

variable {controller : InterruptController} {base cascade : BitVec 8} {pair : ControllerPair}

theorem eoi_byte (line : Fin 8) :
    (BitVec.ofNat 8 (EOI ||| line)).getLsbD 4 = false ∧
      BitVec.ofNat 8 (EOI ||| line) &&& 0xF8 = 0x60 ∧
      (BitVec.ofNat 8 (EOI ||| line) &&& 7).toNat = line := by
  decide +revert

theorem writeCommand_eoi (controller : InterruptController) (line : Fin 8) :
    controller.writeCommand (BitVec.ofNat 8 (EOI ||| line)) =
      some { controller with inService := clearBit controller.inService line } := by
  obtain ⟨notInitial, isEoi, names⟩ := eoi_byte line
  rw [InterruptController.writeCommand, notInitial, if_neg Bool.false_ne_true, if_pos isEoi, names]

theorem Configured.writeData (configured : Configured controller base cascade) (value : BitVec 8) :
    controller.writeData value = { controller with mask := value } := by
  rw [InterruptController.writeData, configured.stage]

theorem Configured.acknowledge (configured : Configured controller base cascade) (line : Fin 8) :
    controller.acknowledge line = { controller with
      requested := clearBit controller.requested line
      inService := setBit controller.inService line } := by
  rw [InterruptController.acknowledge, configured.icw4, if_neg (by decide)]

theorem truncate_clear (mask : BitVec 8) (line : Nat) :
    BitVec.ofNat 8 ((mask.setWidth 32 &&& ~~~((1 : Word) <<< line)).setWidth 8).toNat =
      clearBit mask line := by
  have one : (1 : Word) = 1#32 := rfl
  rw [one, BitVec.ofNat_toNat, BitVec.setWidth_eq]
  apply BitVec.eq_of_getLsbD_eq
  intro bit inside
  rw [clearBit_getLsbD inside, BitVec.getLsbD_setWidth, BitVec.getLsbD_and, BitVec.getLsbD_setWidth,
    BitVec.getLsbD_not, one_shiftLeft_getLsbD (by omega)]
  have wide : bit < 32 := by omega
  simp [inside, wide]

theorem truncate_set (mask : BitVec 8) (line : Nat) :
    BitVec.ofNat 8 ((mask.setWidth 32 ||| (1 : Word) <<< line).setWidth 8).toNat =
      setBit mask line := by
  have one : (1 : Word) = 1#32 := rfl
  rw [one, BitVec.ofNat_toNat, BitVec.setWidth_eq]
  apply BitVec.eq_of_getLsbD_eq
  intro bit inside
  rw [setBit_getLsbD inside, BitVec.getLsbD_setWidth, BitVec.getLsbD_or, BitVec.getLsbD_setWidth,
    one_shiftLeft_getLsbD (by omega)]
  have wide : bit < 32 := by omega
  simp [inside, wide]

theorem outb_pic1Command (pair : ControllerPair) (value : Nat) : outb pair ⟨value, PIC1_COMMAND⟩ =
    (pair.master.writeCommand (BitVec.ofNat 8 value)).map fun master => { pair with master } := by
  rw [outb, if_pos rfl]

theorem outb_pic2Command (pair : ControllerPair) (value : Nat) : outb pair ⟨value, PIC2_COMMAND⟩ =
    (pair.slave.writeCommand (BitVec.ofNat 8 value)).map fun slave => { pair with slave } := by
  rw [outb, if_neg (show PIC2_COMMAND ≠ PIC1_COMMAND by decide), if_pos rfl]

theorem outb_pic1Data (pair : ControllerPair) (value : Nat) : outb pair ⟨value, PIC1_DATA⟩ =
    some { pair with master := pair.master.writeData (BitVec.ofNat 8 value) } := by
  rw [outb, if_neg (show PIC1_DATA ≠ PIC1_COMMAND by decide),
    if_neg (show PIC1_DATA ≠ PIC2_COMMAND by decide), if_pos rfl]

theorem outb_pic2Data (pair : ControllerPair) (value : Nat) : outb pair ⟨value, PIC2_DATA⟩ =
    some { pair with slave := pair.slave.writeData (BitVec.ofNat 8 value) } := by
  rw [outb, if_neg (show PIC2_DATA ≠ PIC1_COMMAND by decide),
    if_neg (show PIC2_DATA ≠ PIC2_COMMAND by decide),
    if_neg (show PIC2_DATA ≠ PIC1_DATA by decide), if_pos rfl]

theorem unmask_master (ready : Configured pair.master base cascade) (line : Fin 8) :
    unmask PIC1_DATA line pair =
      some { pair with master := { pair.master with mask := clearBit pair.master.mask line } } := by
  rw [unmask, outb_pic1Data, ready.writeData, inb, if_pos rfl, InterruptController.readData,
    truncate_clear]

theorem unmask_slave (ready : Configured pair.slave base cascade) (line : Fin 8) :
    unmask PIC2_DATA line pair =
      some { pair with slave := { pair.slave with mask := clearBit pair.slave.mask line } } := by
  rw [unmask, outb_pic2Data, ready.writeData, inb, if_neg (by decide), InterruptController.readData,
    truncate_clear]

/-- The bits of a configured controller. -/
structure Tracks (controller : InterruptController) (base cascade : BitVec 8)
    (enabled raised served : Fin 8 → Bool) : Prop
    extends Configured controller base cascade where
  mask : ∀ line : Fin 8, controller.mask.getLsbD line = !enabled line
  requested : ∀ line : Fin 8, controller.requested.getLsbD line = raised line
  inService : ∀ line : Fin 8, controller.inService.getLsbD line = served line

variable {enabled raised served : Fin 8 → Bool}

theorem val_decide {line other : Fin 8} : decide (other.val = line.val) = decide (other = line) :=
  decide_eq_decide.mpr Fin.ext_iff.symm

theorem Tracks.raise (tracks : Tracks controller base cascade enabled raised served)
    (line : Fin 8) :
    Tracks (controller.raise line) base cascade enabled (Function.update raised line true)
      served where
  toConfigured := { tracks.toConfigured with }
  mask := tracks.mask
  requested other := by
    rw [InterruptController.raise, setBit_getLsbD other.isLt, tracks.requested, val_decide,
      Function.update_apply]
    by_cases same : other = line <;> simp [same]
  inService := tracks.inService

theorem Tracks.unmask (tracks : Tracks controller base cascade enabled raised served)
    (line : Fin 8) :
    Tracks { controller with mask := clearBit controller.mask line } base cascade
      (Function.update enabled line true) raised served where
  toConfigured := { tracks.toConfigured with }
  mask other := by
    rw [clearBit_getLsbD other.isLt, tracks.mask, val_decide, Function.update_apply]
    by_cases same : other = line <;> simp [same]
  requested := tracks.requested
  inService := tracks.inService

theorem Tracks.disable (tracks : Tracks controller base cascade enabled raised served)
    (line : Fin 8) :
    Tracks { controller with mask := setBit controller.mask line } base cascade
      (Function.update enabled line false) raised served where
  toConfigured := { tracks.toConfigured with }
  mask other := by
    rw [setBit_getLsbD other.isLt, tracks.mask, val_decide, Function.update_apply]
    by_cases same : other = line <;> simp [same]
  requested := tracks.requested
  inService := tracks.inService

theorem Tracks.acknowledge (tracks : Tracks controller base cascade enabled raised served)
    (line : Fin 8) :
    Tracks (controller.acknowledge line) base cascade enabled (Function.update raised line false)
      (Function.update served line true) where
  toConfigured := { tracks.toConfigured with }
  mask := tracks.mask
  requested other := by
    rw [tracks.toConfigured.acknowledge, clearBit_getLsbD other.isLt, tracks.requested, val_decide,
      Function.update_apply]
    by_cases same : other = line <;> simp [same]
  inService other := by
    rw [tracks.toConfigured.acknowledge, setBit_getLsbD other.isLt, tracks.inService, val_decide,
      Function.update_apply]
    by_cases same : other = line <;> simp [same]

theorem Tracks.ended (tracks : Tracks controller base cascade enabled raised served)
    (line : Fin 8) :
    Tracks { controller with inService := clearBit controller.inService line } base cascade enabled
      raised (Function.update served line false) where
  toConfigured := { tracks.toConfigured with }
  mask := tracks.mask
  requested := tracks.requested
  inService other := by
    rw [clearBit_getLsbD other.isLt, tracks.inService, val_decide, Function.update_apply]
    by_cases same : other = line <;> simp [same]

theorem mask_master (ready : Configured pair.master base cascade) (line : Fin 8) :
    disableIrq line pair =
      some { pair with master := { pair.master with mask := setBit pair.master.mask line } } := by
  have below : line.val < 8 := line.isLt
  rw [disableIrq, if_pos below, if_pos below, outb_pic1Data, ready.writeData, inb, if_pos rfl,
    InterruptController.readData, truncate_set]

theorem mask_slave (ready : Configured pair.slave base cascade) (line : Fin 8) :
    disableIrq (8 + line) pair =
      some { pair with slave := { pair.slave with mask := setBit pair.slave.mask line } } := by
  have notBelow : ¬ 8 + line.val < 8 := by omega
  rw [disableIrq, if_neg notBelow, if_neg notBelow, Nat.add_sub_cancel_left, outb_pic2Data,
    ready.writeData, inb, if_neg (by decide), InterruptController.readData, truncate_set]

def ofMaster (line : Fin 8) : Fin 16 := ⟨line, by omega⟩

def ofSlave (line : Fin 8) : Fin 16 := ⟨8 + line, by omega⟩

/-- The line of the master that `line` comes in by. -/
def masterLine (line : Fin 16) : Fin 8 := if inside : line < 8 then ⟨line, inside⟩ else cascadeLine

theorem line_cases (line : Fin 16) :
    (∃ inner : Fin 8, line = ofMaster inner) ∨ ∃ inner : Fin 8, line = ofSlave inner := by
  decide +revert

/-- The state of the hardware and the lines it stands for. -/
structure Represents (system : ControllerSystem) (lines : IrqLines) : Prop where
  master : Tracks system.pair.master (BitVec.ofNat 8 ICW2_MASTER) (BitVec.ofNat 8 ICW3_MASTER)
    (lines.enabled ∘ ofMaster) (lines.raised ∘ ofMaster)
    (fun line => decide (lines.serving.map masterLine = some line))
  slave : Tracks system.pair.slave (BitVec.ofNat 8 ICW2_SLAVE) (BitVec.ofNat 8 ICW3_SLAVE)
    (lines.enabled ∘ ofSlave) (lines.raised ∘ ofSlave)
    (fun line => decide (lines.serving = some (ofSlave line)))
  wire : lines.raised 2 = false
  running : system.running = lines.serving.map (ICW2_MASTER + ·.val)
  delivered : system.delivered = lines.delivered.map (ICW2_MASTER + ·.val)

variable {system : ControllerSystem} {lines : IrqLines}

theorem ofMaster_injective : Function.Injective ofMaster := by
  intro line other same
  exact Fin.ext (Fin.mk.inj same)

theorem ofSlave_injective : Function.Injective ofSlave := by
  intro line other same
  exact Fin.ext (Nat.add_left_cancel (Fin.mk.inj same))

theorem ofMaster_ne_ofSlave (line other : Fin 8) : ofMaster line ≠ ofSlave other := by
  decide +revert

/-- A controller after the four initialization words and the mask. -/
def initialized (base cascade : BitVec 8) : InterruptController where
  stage := .ready
  icw1 := BitVec.ofNat 8 ICW1
  vectorBase := base
  cascade
  icw4 := BitVec.ofNat 8 ICW4
  mask := 0xFF
  requested := 0
  inService := 0

/-- The four initialization words and the mask, sent to one controller. -/
def program (controller : InterruptController) (base cascade : BitVec 8) :
    Option InterruptController :=
  (controller.writeCommand (BitVec.ofNat 8 ICW1)).map fun controller =>
    (((controller.writeData base).writeData cascade).writeData (BitVec.ofNat 8 ICW4)).writeData 0xFF

theorem program_eq (controller : InterruptController) {base cascade : BitVec 8}
    (aligned : base &&& 0xF8 = base) :
    program controller base cascade = some (initialized base cascade) := by
  have starts : (BitVec.ofNat 8 ICW1).getLsbD 4 = true := by decide
  have cascaded : (BitVec.ofNat 8 ICW1).getLsbD 1 = false := by decide
  have withIcw4 : (BitVec.ofNat 8 ICW1).getLsbD 0 = true := by decide
  simp only [program, InterruptController.writeCommand, starts, if_true, Option.map_some,
    InterruptController.writeData, cascaded, Bool.false_eq_true, if_false,
    InterruptController.lastStage, withIcw4, aligned, initialized]

theorem initialized_tracks (base cascade : BitVec 8) :
    Tracks (initialized base cascade) base cascade (fun _ => false) (fun _ => false)
      (fun _ => false) where
  stage := rfl
  icw1 := rfl
  icw4 := rfl
  vectorBase := rfl
  cascade := rfl
  mask := by
    change ∀ line : Fin 8, (0xFF : BitVec 8).getLsbD line = true
    decide
  requested := by
    change ∀ line : Fin 8, (0 : BitVec 8).getLsbD line = false
    decide
  inService := by
    change ∀ line : Fin 8, (0 : BitVec 8).getLsbD line = false
    decide

/-- The two controllers with all lines masked. -/
def maskedControllers : ControllerPair where
  master := initialized (BitVec.ofNat 8 ICW2_MASTER) (BitVec.ofNat 8 ICW3_MASTER)
  slave := initialized (BitVec.ofNat 8 ICW2_SLAVE) (BitVec.ofNat 8 ICW3_SLAVE)

theorem i8259Init_initializes (pair : ControllerPair) :
    outbs pair i8259Init = some maskedControllers := by
  have master : program pair.master (BitVec.ofNat 8 ICW2_MASTER) (BitVec.ofNat 8 ICW3_MASTER) =
      some _ := program_eq _ (by decide)
  have slave : program pair.slave (BitVec.ofNat 8 ICW2_SLAVE) (BitVec.ofNat 8 ICW3_SLAVE) =
      some _ := program_eq _ (by decide)
  obtain ⟨startedMaster, starts, master⟩ := Option.map_eq_some_iff.mp master
  obtain ⟨startedSlave, startsSlave, slave⟩ := Option.map_eq_some_iff.mp slave
  rw [maskedControllers, ← master, ← slave]
  simp only [outbs, i8259Init, List.foldlM_cons, List.foldlM_nil, outb_pic1Command,
    outb_pic2Command, outb_pic1Data, outb_pic2Data, starts, startsSlave, Option.map_some,
    Option.bind_eq_bind, Option.bind_some]
  rfl

theorem masked_represents : Represents ⟨maskedControllers, none, []⟩ IrqLines.masked where
  master := initialized_tracks _ _
  slave := initialized_tracks _ _
  wire := rfl
  running := rfl
  delivered := rfl

theorem Represents.raise (represents : Represents system lines) (line : Fin 16) :
    Option.Rel Represents (system.raise line) (lines.raise line) := by
  rcases line_cases line with ⟨inner, rfl⟩ | ⟨inner, rfl⟩
  · by_cases wire : inner = cascadeLine
    · subst inner
      exact .none
    · have notWire : (ofMaster inner).val ≠ cascadeLine.val := fun same => wire (Fin.ext same)
      have notTwo : ofMaster inner ≠ 2 := fun same => notWire (congrArg Fin.val same)
      have below : ofMaster inner < 8 := inner.isLt
      rw [ControllerSystem.raise, if_neg notWire, dif_pos below, IrqLines.raise, if_neg notTwo]
      refine .some { represents with master := ?_, slave := ?_, wire := ?_ }
      · rw [Function.update_comp_eq_of_injective _ ofMaster_injective]
        exact represents.master.raise _
      · rw [Function.update_comp_eq_of_forall_ne _ _
          fun other same => ofMaster_ne_ofSlave _ _ same.symm]
        exact represents.slave
      · exact (Function.update_of_ne (Ne.symm notTwo) _ _).trans represents.wire
  · have notWire : (ofSlave inner).val ≠ cascadeLine.val := by
      change 8 + inner.val ≠ 2
      omega
    have notTwo : ofSlave inner ≠ 2 := fun same => notWire (congrArg Fin.val same)
    have notBelow : ¬ ofSlave inner < 8 := by
      change ¬ 8 + inner.val < 8
      omega
    rw [ControllerSystem.raise, if_neg notWire, dif_neg notBelow, IrqLines.raise, if_neg notTwo]
    have back : (⟨(ofSlave inner).val - 8, by omega⟩ : Fin 8) = inner :=
      Fin.ext (Nat.add_sub_cancel_left ..)
    refine .some { represents with master := ?_, slave := ?_, wire := ?_ }
    · rw [Function.update_comp_eq_of_forall_ne _ _ fun other => ofMaster_ne_ofSlave _ _]
      exact represents.master
    · rw [Function.update_comp_eq_of_injective _ ofSlave_injective, back]
      exact represents.slave.raise _
    · exact (Function.update_of_ne (Ne.symm notTwo) _ _).trans represents.wire

theorem update_ofSlave {values : Fin 16 → Bool} (line : Fin 8) (value : Bool) :
    Function.update values (ofMaster line) value ∘ ofSlave = values ∘ ofSlave :=
  Function.update_comp_eq_of_forall_ne _ _ fun _ same => ofMaster_ne_ofSlave _ _ same.symm

theorem update_ofMaster {values : Fin 16 → Bool} (line : Fin 8) (value : Bool) :
    Function.update values (ofSlave line) value ∘ ofMaster = values ∘ ofMaster :=
  Function.update_comp_eq_of_forall_ne _ _ fun _ => ofMaster_ne_ofSlave _ _

theorem Represents.enable (represents : Represents system lines) (line : Fin 16) :
    Option.Rel Represents (system.setPair (enableIrq line)) (some (lines.enable line)) := by
  rcases line_cases line with ⟨inner, rfl⟩ | ⟨inner, rfl⟩
  · have below : (ofMaster inner).val < 8 := inner.isLt
    have small : ofMaster inner < 8 := below
    have unmasked := unmask_master represents.master.toConfigured inner
    rw [ControllerSystem.setPair, enableIrq, if_pos below, IrqLines.enable, if_pos small]
    change Option.Rel _ (Option.map _ (unmask PIC1_DATA inner system.pair)) _
    rw [unmasked]
    refine .some { represents with master := ?_, slave := ?_ }
    · rw [Function.update_comp_eq_of_injective _ ofMaster_injective]
      exact represents.master.unmask _
    · rw [update_ofSlave]
      exact represents.slave
  · have notBelow : ¬ (ofSlave inner).val < 8 := by
      change ¬ 8 + inner.val < 8
      omega
    have notSmall : ¬ ofSlave inner < 8 := notBelow
    have first := unmask_master represents.master.toConfigured cascadeLine
    let cascading : ControllerPair := { system.pair with
      master := { system.pair.master with mask := clearBit system.pair.master.mask cascadeLine } }
    have slaveReady : Configured cascading.slave _ _ := represents.slave.toConfigured
    have second := unmask_slave slaveReady inner
    have offset : (ofSlave inner).val - 8 = inner.val := Nat.add_sub_cancel_left ..
    have two : (2 : Fin 16) = ofMaster cascadeLine := rfl
    rw [ControllerSystem.setPair, enableIrq, if_neg notBelow, IrqLines.enable, if_neg notSmall,
      offset, two]
    change Option.Rel _ (Option.map _ ((unmask PIC1_DATA cascadeLine system.pair).bind
      fun pair => unmask PIC2_DATA inner pair)) _
    rw [first, Option.bind_some, second]
    refine .some { represents with master := ?_, slave := ?_ }
    · rw [update_ofMaster, Function.update_comp_eq_of_injective _ ofMaster_injective]
      exact represents.master.unmask _
    · rw [Function.update_comp_eq_of_injective _ ofSlave_injective, update_ofSlave]
      exact represents.slave.unmask _

theorem Represents.disable (represents : Represents system lines) (line : Fin 16) :
    Option.Rel Represents (system.setPair (disableIrq line)) (some (lines.disable line)) := by
  rcases line_cases line with ⟨inner, rfl⟩ | ⟨inner, rfl⟩
  · have masked := mask_master represents.master.toConfigured inner
    rw [ControllerSystem.setPair, IrqLines.disable]
    change Option.Rel _ (Option.map _ (disableIrq inner system.pair)) _
    rw [masked]
    refine .some { represents with master := ?_, slave := ?_ }
    · rw [Function.update_comp_eq_of_injective _ ofMaster_injective]
      exact represents.master.disable _
    · rw [update_ofSlave]
      exact represents.slave
  · have masked := mask_slave represents.slave.toConfigured inner
    rw [ControllerSystem.setPair, IrqLines.disable]
    change Option.Rel _ (Option.map _ (disableIrq (8 + inner) system.pair)) _
    rw [masked]
    refine .some { represents with master := ?_, slave := ?_ }
    · rw [update_ofMaster]
      exact represents.master
    · rw [Function.update_comp_eq_of_injective _ ofSlave_injective]
      exact represents.slave.disable _

theorem masterLine_ofMaster (line : Fin 8) : masterLine (ofMaster line) = line := by
  decide +revert

theorem masterLine_ofSlave (line : Fin 8) : masterLine (ofSlave line) = cascadeLine := by
  decide +revert

/-- A lone bit in service that an end of interrupt clears. -/
theorem ended_alone (line : Fin 8) : Function.update
    (fun other => decide ((some line : Option (Fin 8)) = some other)) line false =
      fun _ => false := by
  apply funext
  decide +revert

theorem ended_slave (line : Fin 8) : Function.update
    (fun other => decide (some (ofSlave line) = some (ofSlave other))) line false =
      fun _ => false := by
  apply funext
  decide +revert

theorem served_master (line : Fin 8) :
    (fun other => decide (some (ofMaster line) = some (ofSlave other))) = fun _ => false := by
  apply funext
  decide +revert

theorem idle_ended (line : Fin 8) :
    Function.update (fun _ => false) line false = fun _ : Fin 8 => false :=
  Function.update_eq_self_iff.mpr rfl

theorem none_served {α : Type} [DecidableEq α] (target : Fin 8 → α) :
    (fun line => decide (none = some (target line))) = fun _ => false :=
  funext fun _ => decide_eq_false nofun

/-- What is sent for the line that is served, or for any line when none is. -/
theorem Represents.ends (represents : Represents system lines) (line : Fin 16)
    (serving : lines.serving = none ∨ lines.serving = some line) :
    ∃ pair, outbs system.pair (sendEoi line) = some pair ∧
      Represents { system with pair, running := none } { lines with serving := none } := by
  have master := represents.master
  have slave := represents.slave
  have nothing : (fun other : Fin 8 => decide ((none : Option (Fin 16)).map masterLine =
      some other)) = fun _ => false := none_served id
  rcases line_cases line with ⟨inner, rfl⟩ | ⟨inner, rfl⟩
  · have notSlave : ¬ (ofMaster inner).val ≥ 8 := by
      change ¬ inner.val ≥ 8
      omega
    have sent : outbs system.pair (sendEoi (ofMaster inner)) = some { system.pair with
        master := { system.pair.master with
          inService := clearBit system.pair.master.inService inner } } := by
      rw [sendEoi, if_neg notSlave]
      change (outb system.pair ⟨EOI ||| inner.val, PIC1_COMMAND⟩).bind some = _
      rw [outb_pic1Command, writeCommand_eoi]
      rfl
    have ended := master.ended inner
    refine ⟨_, sent, ?_, ?_, represents.wire, rfl, represents.delivered⟩
    · rw [nothing]
      rcases serving with idle | served
      · rw [idle, nothing, idle_ended] at ended
        exact ended
      · rw [served, Option.map_some, masterLine_ofMaster, ended_alone] at ended
        exact ended
    · rw [none_served]
      rcases serving with idle | served
      · rw [idle, none_served] at slave
        exact slave
      · rw [served, served_master] at slave
        exact slave
  · have isSlave : (ofSlave inner).val ≥ 8 := by
      change 8 + inner.val ≥ 8
      omega
    have back : (ofSlave inner).val - 8 = inner.val := Nat.add_sub_cancel_left ..
    have sent : outbs system.pair (sendEoi (ofSlave inner)) = some
        { master := { system.pair.master with
            inService := clearBit system.pair.master.inService cascadeLine }
          slave := { system.pair.slave with
            inService := clearBit system.pair.slave.inService inner } } := by
      rw [sendEoi, if_pos isSlave, back]
      change (outb system.pair ⟨EOI ||| inner.val, PIC2_COMMAND⟩).bind (fun pair =>
        (outb pair ⟨EOI ||| cascadeLine.val, PIC1_COMMAND⟩).bind some) = _
      rw [outb_pic2Command, writeCommand_eoi, Option.map_some, Option.bind_some, outb_pic1Command,
        writeCommand_eoi]
      rfl
    have ended := master.ended cascadeLine
    have endedSlave := slave.ended inner
    refine ⟨_, sent, ?_, ?_, represents.wire, rfl, represents.delivered⟩
    · rw [nothing]
      rcases serving with idle | served
      · rw [idle, nothing, idle_ended] at ended
        exact ended
      · rw [served, Option.map_some, masterLine_ofSlave, ended_alone] at ended
        exact ended
    · rw [none_served]
      rcases serving with idle | served
      · rw [idle, none_served, idle_ended] at endedSlave
        exact endedSlave
      · rw [served, ended_slave] at endedSlave
        exact endedSlave

theorem Represents.handled (represents : Represents system lines) :
    Option.Rel Represents system.handled lines.handled := by
  have running := represents.running
  cases serving : lines.serving with
  | none =>
      rw [serving] at running
      rw [ControllerSystem.handled, running, IrqLines.handled, serving]
      exact .none
  | some line =>
      rw [serving] at running
      obtain ⟨pair, sent, ended⟩ := represents.ends line (.inr serving)
      have offset : ICW2_MASTER + line.val - ICW2_MASTER = line.val := Nat.add_sub_cancel_left ..
      rw [ControllerSystem.handled, running, IrqLines.handled, serving]
      change Option.Rel _ ((outbs system.pair (sendEoi (ICW2_MASTER + line.val - ICW2_MASTER))).bind
        fun pair => some { system with pair, running := none }) _
      rw [offset, sent]
      exact .some ended

/-- The lines that come in by a line of the master. -/
def behind (line : Fin 8) : List (Fin 16) :=
  if line = cascadeLine then (List.finRange 8).map ofSlave else [ofMaster line]

theorem order_behind : IrqLines.order = (List.finRange 8).flatMap behind := by
  decide

theorem find_order (lines : IrqLines) : IrqLines.order.find? lines.asks =
    (List.finRange 8).findSome? fun line => (behind line).find? lines.asks := by
  rw [order_behind, List.find?_flatMap]

theorem Tracks.asks (tracks : Tracks controller base cascade enabled raised served) (line : Fin 8) :
    controller.asks line = (raised line && enabled line) := by
  rw [InterruptController.asks, tracks.requested, tracks.mask, Bool.not_not]

theorem asks_ofMaster (lines : IrqLines) (line : Fin 8) :
    lines.asks (ofMaster line) = (lines.raised (ofMaster line) && lines.enabled (ofMaster line)) := by
  have below : ofMaster line < 8 := line.isLt
  rw [IrqLines.asks, decide_eq_true below, Bool.true_or, Bool.and_true]

theorem asks_ofSlave (lines : IrqLines) (line : Fin 8) : lines.asks (ofSlave line) =
    (lines.raised (ofSlave line) && lines.enabled (ofSlave line) && lines.enabled 2) := by
  have notBelow : ¬ ofSlave line < 8 := by
    change ¬ 8 + line.val < 8
    omega
  rw [IrqLines.asks, decide_eq_false notBelow, Bool.false_or]

/-- What the slave asks for, when nothing is in service. -/
theorem Represents.pendingSlave (represents : Represents system lines)
    (idle : lines.serving = none) : (behind cascadeLine).find? lines.asks =
      if lines.enabled 2 then system.pair.slave.pending.map ofSlave else none := by
  have nothing : ∀ line : Fin 8, system.pair.slave.inService.getLsbD line = false := by
    intro line
    rw [represents.slave.inService, idle]
    exact decide_eq_false nofun
  rw [behind, if_pos rfl, List.find?_map, InterruptController.pending_idle nothing]
  cases cascaded : lines.enabled 2 with
  | true =>
      have same : lines.asks ∘ ofSlave = system.pair.slave.asks := by
        funext line
        rw [Function.comp_apply, asks_ofSlave, represents.slave.asks, cascaded, Bool.and_true]
        rfl
      rw [same, if_pos rfl]
  | false =>
      have never : lines.asks ∘ ofSlave = fun _ => false := by
        funext line
        rw [Function.comp_apply, asks_ofSlave, cascaded, Bool.and_false]
      rw [never, if_neg Bool.false_ne_true]
      rfl

theorem Represents.driven (represents : Represents system lines) (idle : lines.serving = none) :
    (system.pair.driven cascadeLine).asks = fun line =>
      ((behind line).find? lines.asks).isSome := by
  have waiting := represents.pendingSlave idle
  have closed := represents.master.mask
  have asked := represents.master.requested
  funext line
  rw [InterruptController.asks, ControllerPair.driven_requested]
  change (_ && !system.pair.master.mask.getLsbD line) = _
  rw [closed, Bool.not_not]
  by_cases wire : line = cascadeLine
  · subst line
    have two : (lines.enabled ∘ ofMaster) cascadeLine = lines.enabled 2 := rfl
    rw [waiting, if_pos rfl, two]
    cases lines.enabled 2 with
    | true => rw [if_pos rfl, Option.isSome_map, Bool.and_true]
    | false => rw [if_neg Bool.false_ne_true, Bool.and_false, Option.isSome_none]
  · rw [if_neg wire, asked, behind, if_neg wire, List.find?_singleton, asks_ofMaster]
    change (lines.raised (ofMaster line) && lines.enabled (ofMaster line)) = _
    cases lines.raised (ofMaster line) && lines.enabled (ofMaster line) <;> rfl

theorem Tracks.driven (tracks : Tracks pair.master base cascade enabled raised served) :
    Tracks (pair.driven cascadeLine) base cascade enabled
      (Function.update raised cascadeLine pair.slave.pending.isSome) served where
  toConfigured := { tracks.toConfigured with }
  mask := tracks.mask
  requested other := by
    rw [ControllerPair.driven_requested, Function.update_apply, tracks.requested]
  inService := tracks.inService

theorem vector_master (ready : Configured controller (BitVec.ofNat 8 ICW2_MASTER) cascade)
    (line : Fin 8) : controller.vector line = ICW2_MASTER + (ofMaster line).val := by
  rw [InterruptController.vector, ready.vectorBase]
  decide +revert

theorem vector_slave (ready : Configured controller (BitVec.ofNat 8 ICW2_SLAVE) cascade)
    (line : Fin 8) : controller.vector line = ICW2_MASTER + (ofSlave line).val := by
  rw [InterruptController.vector, ready.vectorBase]
  decide +revert

/-- What a lone line in service looks like to its controller. -/
theorem served_alone (line : Fin 8) : Function.update (fun _ => false) line true =
    fun other => decide ((some line : Option (Fin 8)) = some other) := by
  apply funext
  decide +revert

theorem served_slave (line : Fin 8) : Function.update (fun _ => false) line true =
    fun other => decide (some (ofSlave line) = some (ofSlave other)) := by
  apply funext
  decide +revert

theorem Represents.nothing (represents : Represents system lines) (idle : lines.serving = none)
    (line : Fin 8) : (system.pair.driven cascadeLine).inService.getLsbD line = false := by
  have bit := represents.master.inService line
  rw [idle] at bit
  exact bit.trans (decide_eq_false nofun)

/-- The line of the master that is taken, and what it stands for. -/
theorem Represents.found (represents : Represents system lines) (idle : lines.serving = none) :
    IrqLines.order.find? lines.asks = (system.pair.driven cascadeLine).pending.bind fun line =>
      (behind line).find? lines.asks := by
  rw [InterruptController.pending_idle (represents.nothing idle), represents.driven idle,
    find?_isSome_bind, find_order]

theorem Represents.asked (represents : Represents system lines) (idle : lines.serving = none)
    {line : Fin 8} (pending : (system.pair.driven cascadeLine).pending = some line) :
    ((behind line).find? lines.asks).isSome := by
  rw [InterruptController.pending_idle (represents.nothing idle), represents.driven idle] at pending
  exact List.find?_some (p := fun line => ((behind line).find? lines.asks).isSome) pending

/-- The line that is taken, as both levels have it then. -/
structure Taken (system : ControllerSystem) (lines : IrqLines) (line : Fin 16)
    (pair : ControllerPair) : Prop where
  found : IrqLines.order.find? lines.asks = some line
  acknowledged : system.pair.acknowledge cascadeLine = some (ICW2_MASTER + line.val, pair)
  represents : Represents
    ⟨pair, some (ICW2_MASTER + line.val), system.delivered ++ [ICW2_MASTER + line.val]⟩
    { lines with
      raised := Function.update lines.raised line false
      serving := some line
      delivered := lines.delivered ++ [line] }

theorem Represents.acknowledge (represents : Represents system lines)
    (idle : lines.serving = none) :
    (IrqLines.order.find? lines.asks = none ∧ system.pair.acknowledge cascadeLine = none) ∨
      ∃ line pair, Taken system lines line pair := by
  have found := represents.found idle
  have master := represents.master
  have slave := represents.slave
  have waiting := represents.pendingSlave idle
  have logged (line : Fin 16) : system.delivered ++ [ICW2_MASTER + line.val] =
      (lines.delivered ++ [line]).map (ICW2_MASTER + ·.val) := by
    rw [represents.delivered, List.map_append, List.map_singleton]
  rw [idle] at master slave
  rw [Option.map_none, none_served] at master
  rw [none_served] at slave
  cases pending : (system.pair.driven cascadeLine).pending with
  | none =>
      rw [pending, Option.bind_none] at found
      refine .inl ⟨found, ?_⟩
      rw [ControllerPair.acknowledge, pending]
  | some line =>
      rw [pending, Option.bind_some] at found
      have asked := represents.asked idle pending
      by_cases wire : line = cascadeLine
      · subst line
        rw [waiting] at asked found
        have cascaded : lines.enabled 2 = true := by
          by_contra closed
          rw [if_neg closed] at asked
          cases asked
        rw [if_pos cascaded] at asked found
        cases inner : system.pair.slave.pending with
        | none =>
            rw [inner] at asked
            cases asked
        | some inside =>
            rw [inner, Option.map_some] at found
            have answers : !system.pair.master.icw1.getLsbD 1 ∧
                system.pair.master.cascade.getLsbD cascadeLine := by
              rw [master.icw1, master.cascade]
              decide
            have named : system.pair.slave.cascade.toNat % 8 = cascadeLine := by
              rw [slave.cascade]
              decide
            refine .inr ⟨_, ⟨(system.pair.driven cascadeLine).acknowledge cascadeLine,
              system.pair.slave.acknowledge inside⟩, found, ?_, ?_⟩
            · simp only [ControllerPair.acknowledge, pending, true_and, if_pos answers, inner,
                if_pos named, vector_slave slave.toConfigured]
            · have cleared : Function.update (Function.update (lines.raised ∘ ofMaster) cascadeLine
                  system.pair.slave.pending.isSome) cascadeLine false = lines.raised ∘ ofMaster := by
                rw [Function.update_idem]
                exact Function.update_eq_self_iff.mpr represents.wire.symm
              have taken := master.driven.acknowledge cascadeLine
              have takenSlave := slave.acknowledge inside
              rw [cleared, served_alone] at taken
              rw [served_slave] at takenSlave
              refine ⟨?_, ?_, ?_, rfl, logged _⟩
              · rw [update_ofMaster, Option.map_some, masterLine_ofSlave]
                exact taken
              · rw [Function.update_comp_eq_of_injective _ ofSlave_injective]
                exact takenSlave
              · exact (Function.update_of_ne (ofMaster_ne_ofSlave cascadeLine inside) _ _).trans
                  represents.wire
      · have direct : (behind line).find? lines.asks = some (ofMaster line) := by
          rw [behind, if_neg wire, List.find?_singleton] at asked ⊢
          split at asked
          · rename_i wants
            rw [if_pos wants]
          · cases asked
        rw [direct] at found
        have taken := master.acknowledge line
        rw [served_alone] at taken
        have notTwo : (2 : Fin 16) ≠ ofMaster line :=
          fun same => wire (ofMaster_injective same.symm)
        refine .inr ⟨_, { system.pair with master := system.pair.master.acknowledge line }, found,
          ?_, ?_⟩
        · have elsewhere : ¬ (line = cascadeLine ∧ !system.pair.master.icw1.getLsbD 1 ∧
              system.pair.master.cascade.getLsbD cascadeLine) := fun both => wire both.1
          rw [ControllerPair.acknowledge, pending]
          change (if _ then _ else _) = _
          rw [if_neg elsewhere, vector_master master.toConfigured]
        · refine ⟨?_, ?_, ?_, rfl, logged _⟩
          · rw [Function.update_comp_eq_of_injective _ ofMaster_injective, Option.map_some,
              masterLine_ofMaster]
            exact taken
          · rw [update_ofSlave, served_master]
            exact slave
          · exact (Function.update_of_ne notTwo _ _).trans represents.wire

theorem Represents.interrupt (represents : Represents system lines) :
    Option.Rel Represents system.interrupt lines.interrupt := by
  have running := represents.running
  cases serving : lines.serving with
  | some line =>
      rw [serving] at running
      rw [ControllerSystem.interrupt, running, IrqLines.interrupt, serving]
      exact .none
  | none =>
      rw [serving] at running
      rw [ControllerSystem.interrupt, running, IrqLines.interrupt, serving]
      change Option.Rel _ ((system.pair.acknowledge cascadeLine).bind _)
        ((IrqLines.order.find? lines.asks).bind _)
      rcases represents.acknowledge serving with ⟨nothing, refused⟩ | ⟨line, pair, taken⟩
      · rw [nothing, refused]
        exact .none
      · rw [taken.found, taken.acknowledged]
        exact .some taken.represents

theorem Represents.step (input : ControllerInput) (system : ControllerSystem) (lines : IrqLines)
    (represents : Represents system lines) :
    Option.Rel Represents (controllerSystem.step system input) (irqLines.step lines input) := by
  cases input with
  | raise line => exact represents.raise line
  | interrupt => exact represents.interrupt
  | handled => exact represents.handled
  | enable line => exact represents.enable line
  | disable line => exact represents.disable line

/-- From any state of the two controllers, `i8259_init` makes them sixteen lines of fixed
priorities: every run delivers what these lines deliver, and stops where they stop. -/
theorem controllers_serve_lines (pair : ControllerPair) : ∃ ready, outbs pair i8259Init = some ready ∧
    ∀ inputs, (controllerSystem.run ⟨ready, none, []⟩ inputs).map ControllerSystem.delivered =
      (irqLines.run IrqLines.masked inputs).map fun lines =>
        lines.delivered.map (ICW2_MASTER + ·.val) := by
  refine ⟨_, i8259Init_initializes pair, fun inputs => ?_⟩
  have related := Transitions.run_lockstep Represents.step masked_represents inputs
  revert related
  generalize controllerSystem.run _ inputs = concrete
  generalize irqLines.run _ inputs = spec
  intro related
  cases related with
  | none => rfl
  | some represents => exact congrArg some represents.delivered

/-- What `entry` does to the controllers. -/
def bootInputs : List ControllerInput := [.enable 1, .enable 8]

/-- No `enable_irq` or `disable_irq`, of which there is none after `entry`. -/
def ControllerInput.keepsMasks : ControllerInput → Prop
  | .enable _ | .disable _ => False
  | _ => True

/-- Only the keyboard, the clock and the line between the controllers are enabled, and only the
first two of them were served. -/
structure IrqLines.Booted (lines : IrqLines) : Prop where
  enabled : ∀ line, lines.enabled line = true ↔ line = 1 ∨ line = 2 ∨ line = 8
  delivered : ∀ line ∈ lines.delivered, line = 1 ∨ line = 8

theorem order_without_wire {line : Fin 16} (member : line ∈ IrqLines.order) : line ≠ 2 := by
  decide +revert

theorem IrqLines.Booted.step {next : IrqLines} {input : ControllerInput} (booted : lines.Booted)
    (keeps : input.keepsMasks) (stepped : irqLines.step lines input = some next) :
    next.Booted := by
  cases input with
  | raise line =>
      change lines.raise line = some next at stepped
      rw [IrqLines.raise] at stepped
      split at stepped
      · cases stepped
      · cases stepped
        exact ⟨booted.enabled, booted.delivered⟩
  | interrupt =>
      change lines.interrupt = some next at stepped
      rw [IrqLines.interrupt] at stepped
      split at stepped
      · cases stepped
      · obtain ⟨line, found, taken⟩ := Option.bind_eq_some_iff.mp stepped
        cases taken
        refine ⟨booted.enabled, ?_⟩
        intro other member
        rcases List.mem_append.mp member with earlier | now
        · exact booted.delivered other earlier
        · have same := List.mem_singleton.mp now
          subst other
          have asks := List.find?_some found
          have unmasked : lines.enabled line = true := by
            rw [IrqLines.asks, Bool.and_eq_true, Bool.and_eq_true] at asks
            exact asks.1.2
          have notWire := order_without_wire (List.mem_of_find?_eq_some found)
          rcases (booted.enabled line).mp unmasked with one | two | eight
          · exact .inl one
          · exact absurd two notWire
          · exact .inr eight
  | handled =>
      change lines.handled = some next at stepped
      rw [IrqLines.handled] at stepped
      split at stepped
      · cases stepped
        exact ⟨booted.enabled, booted.delivered⟩
      · cases stepped
  | enable line => cases keeps
  | disable line => cases keeps

theorem boot_enables : ∃ lines, irqLines.run IrqLines.masked bootInputs = some lines ∧
    lines.Booted := by
  refine ⟨_, rfl, ?_, nofun⟩
  decide

/-- Whatever the controllers held before `entry`, and whatever the devices do: every interrupt
that the processor takes while nothing else is enabled enters the stub of the keyboard or of the
clock, with interrupts off. -/
theorem interrupts_reach_stubs {address : Linkage → Word} {low high : BitVec 16}
    {pair ready : ControllerPair} {inputs : List ControllerInput} {final : ControllerSystem}
    {vector : Nat} (programmed : outbs pair i8259Init = some ready)
    (keeps : ∀ input ∈ inputs, input.keepsMasks)
    (ran : controllerSystem.run ⟨ready, none, []⟩ (bootInputs ++ inputs) = some final)
    (member : vector ∈ final.delivered) (cpl : Nat) :
    ∃ linkage, (linkage = .irq1Wrapper ∨ linkage = .irq8Wrapper) ∧
      takeGate (idtInitialize address low high zeroIdt vector).value false cpl =
        .enters 16 (address linkage).toNat true := by
  obtain ⟨_, program, served⟩ := controllers_serve_lines pair
  rw [programmed] at program
  cases program
  have same := served (bootInputs ++ inputs)
  rw [ran] at same
  obtain ⟨lines, ranLines, delivered⟩ := Option.map_eq_some_iff.mp same.symm
  obtain ⟨middle, first, rest⟩ := Transitions.run_append.mp ranLines
  obtain ⟨booted, enabled, initial⟩ := boot_enables
  rw [enabled] at first
  cases first
  have respects : irqLines.Respects (fun _ input => input.keepsMasks) middle inputs :=
    Transitions.respects_of_forall _ fun input inside _ => keeps input inside
  have kept : lines.Booted := (Transitions.always_of_respects
    (fun _ _ _ holds kept stepped => holds.step kept stepped) initial respects).last rest
  rw [← delivered] at member
  obtain ⟨line, inLines, rfl⟩ := List.mem_map.mp member
  have dispatches := idt_dispatches address low high
  rcases kept.delivered line inLines with rfl | rfl
  · exact ⟨.irq1Wrapper, .inl rfl, dispatches.linked _ _ cpl (by decide) (by decide)⟩
  · exact ⟨.irq8Wrapper, .inr rfl, dispatches.linked _ _ cpl (by decide) (by decide)⟩

/-- The clock ticks while the handler of a key runs, and is served after that. -/
def tickBehindKey : List ControllerInput := [.raise 1, .interrupt, .raise 8, .handled, .interrupt]

theorem interrupts_reach_stubs_clock : ∃ final,
    controllerSystem.run ⟨maskedControllers, none, []⟩ (bootInputs ++ tickBehindKey) = some final ∧
      final.delivered = [33, 40] ∧
      ∃ linkage : Linkage, (linkage = .irq1Wrapper ∨ linkage = .irq8Wrapper) ∧
        takeGate (idtInitialize (fun _ => 0x400000) 0 0 zeroIdt 40).value false 3 =
          .enters 16 0x400000 true := by
  have programmed : outbs maskedControllers i8259Init = some maskedControllers :=
    i8259Init_initializes maskedControllers
  have keeps : ∀ input ∈ tickBehindKey, input.keepsMasks := by
    intro input member
    simp only [tickBehindKey, List.mem_cons, List.not_mem_nil, or_false] at member
    rcases member with rfl | rfl | rfl | rfl | rfl <;> trivial
  have ends : ((controllerSystem.run ⟨maskedControllers, none, []⟩
      (bootInputs ++ tickBehindKey)).map ControllerSystem.delivered) = some [33, 40] := by
    decide
  obtain ⟨final, ran, delivered⟩ := Option.map_eq_some_iff.mp ends
  have member : 40 ∈ final.delivered := by
    rw [delivered]
    decide
  exact ⟨final, ran, delivered, interrupts_reach_stubs programmed keeps ran member 3⟩

end Ece391
