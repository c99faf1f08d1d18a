import Ece391.Terminal.Console
import Ece391.Process.Step

namespace Ece391

open Library

/-! # The kernel with its keyboard and its screen

The console functions at the addresses the kernel uses: the video page of the
process that runs, which reaches the cached frame or the one in the page table,
and the line buffer of the terminal that is shown.
-/

namespace Kernel

variable (image : Image) (behind : BehindTables)

def console (kernel : Kernel) (cached : Nat → Bool) : Console where
  cells offset := kernel.video (kernel.videoFrame (cached offset)) offset
  x := kernel.screenX
  y := kernel.screenY
  lineBuffer := (kernel.terminals kernel.oldTerminal).lineBuffer
  bufferI := (kernel.terminals kernel.oldTerminal).bufferI

def setConsole (kernel : Kernel) (cached : Nat → Bool) (console : Console) : Kernel :=
  { (kernel.storeVideo cached (fun _ => True) console.cells).setCursor console.x console.y with
    terminals := Function.update kernel.terminals kernel.oldTerminal
      { kernel.terminals kernel.oldTerminal with
        lineBuffer := console.lineBuffer
        bufferI := console.bufferI } }

/-- The element of `terminals[]` at an index. -/
def terminalAt (index : Int) : Option TerminalId :=
  allTerminals.find? fun term => ((term : Nat) : Int) = index

/-- `terminals[index].buffer_i = 0`. -/
def resetLine (kernel : Kernel) (index : Int) : Outcome Kernel :=
  match terminalAt index with
  | some term => .done (kernel.setTerminal term { kernel.terminals term with bufferI := 0 })
  | none => .outOfBounds

/-- With the value returned comes the list of the characters printed. -/
def terminalWrite (cached : Nat → Bool) (buf : UserMemory) (nbytes : Int) (kernel : Kernel) :
    Outcome (Int × List Byte × Kernel) := do
  let curProgramid ← findProgramid kernel.cr3
  let term := kernel.findTerminal curProgramid
  let (printed, console) ← (kernel.console cached).terminalWrite buf nbytes
  let kernel ← (kernel.setConsole cached console).resetLine term
  return (0, printed, kernel)

/-- `syscall_write` of a driver.  The one of the RTC takes the number of bytes
for the frequency. -/
def driverWrite (cached : Nat → Bool) (buf : UserMemory) (nbytes : Int) (kernel : Kernel) :
    SysOps → Outcome (Int × List Byte × Kernel)
  | .rtcOps => .done ((kernel.rtcWrite nbytes).1, [], (kernel.rtcWrite nbytes).2)
  | .terminalOps => kernel.terminalWrite cached buf nbytes
  | .directoryOps => .done (-1, [], kernel)
  | .fileOps => .done (-1, [], kernel)
  | .null => .pageFault
  | .stray _ => .outOfBounds

def sysWrite (cached : Nat → Bool) (fd : Int) (buf : UserMemory) (nbytes : Int) (kernel : Kernel) :
    Outcome (Int × List Byte × Kernel) := do
  let curProgramid ← findProgramid kernel.cr3
  let descriptor := (kernel.pcb curProgramid).fd fd.toNat
  if fd < 0 ∨ fd > 7 ∨ fd = 0 ∨ descriptor.flags = 0 then return (-1, [], kernel)
  else do
    let (value, printed, kernel) ← kernel.driverWrite cached buf nbytes descriptor.sysopsPtr
    if value = 0 then do
      let length ← strlen buf
      return (int32 length, printed, kernel)
    else return (-1, printed, kernel)

/-- `terminal_read` up to its loop. -/
def awaitLine (kernel : Kernel) : Outcome Kernel := do
  let curProgramid ← findProgramid kernel.cr3
  kernel.resetLine (kernel.findTerminal curProgramid)

/-- The loop of `terminal_read` ends. -/
def LineEntered (terminal : Terminal) : Prop :=
  terminal.bufferI ≠ 0 ∧ terminal.lineBuffer (terminal.bufferI - 1) = 10

instance (terminal : Terminal) : Decidable (LineEntered terminal) :=
  inferInstanceAs (Decidable (_ ∧ _))

/-- `terminal_read` from the end of its loop on. -/
def takeLine (buf : Nat → Byte) (kernel : Kernel) : Outcome (Int × (Nat → Byte) × Kernel) := do
  let curProgramid ← findProgramid kernel.cr3
  match terminalAt (kernel.findTerminal curProgramid) with
  | some term =>
      if LineEntered (kernel.terminals term) then
        let (value, after, console) := (kernel.console fun _ => false).keyboardRead buf
        return (value, after, kernel.setConsole (fun _ => false) console)
      else .spins
  | none => .outOfBounds

end Kernel

structure TerminalDriver where
  kernel : Kernel
  keyboard : Keyboard

/-- A call of the running process, of which `write` is to descriptor 1 and `puts`
prints a message of the kernel, a key, or a store of a user program through the
pointer that `vidmap` gives. -/
inductive ConsoleInput where
  | call (event : Event)
  | key (scancode : Byte) (irq : IrqFrame) (frame : CallFrame) (tlb : TlbUse)
      (cached : Nat → Bool)
  | write (buf : UserMemory) (nbytes : Int) (cached : Nat → Bool)
  | puts (text : List Byte) (cached : Nat → Bool)
  | awaitLine
  | takeLine
  | store (bytes : Nat → Option Byte) (cached : Nat → Bool)

namespace Console

def puts : List Byte → Console → Outcome Console
  | [], console => .done console
  | char :: text, console => do
      let console ← console.putc char
      puts text console

end Console

namespace TerminalDriver

variable (image : Image) (behind : BehindTables)

/-- `irq1_wrapper` and `terminal_key_pressed` up to a call of `terminal_switch`. -/
def keyHandled (scancode : Byte) (irq : IrqFrame) (cached : Nat → Bool) (driver : TerminalDriver) :
    Outcome (Option Int × TerminalDriver) := do
  let kernel := { driver.kernel with esp_0 := irq.esp_0, ebp_0 := irq.ebp_0 }
  let kernel := kernel.setTerminal kernel.oldTerminal
    { kernel.terminals kernel.oldTerminal with active := 1 }
  let (term, keyboard, console) ←
    (kernel.console cached).terminalKeyPressed behind driver.keyboard scancode
  return (term, ⟨kernel.setConsole cached console, keyboard⟩)

def keyPressed (scancode : Byte) (irq : IrqFrame) (frame : CallFrame) (tlb : TlbUse)
    (cached : Nat → Bool) (driver : TerminalDriver) : Outcome TerminalDriver := do
  let (term, driver) ← driver.keyHandled behind scancode irq cached
  match term with
  | some term => do
      let (_, kernel) ← driver.kernel.keyboardSwitch image term irq frame tlb
      return { driver with kernel }
  | none => return driver

def step (driver : TerminalDriver) : ConsoleInput → Option TerminalDriver
  | .call event => (driver.kernel.step image event).map fun kernel => { driver with kernel }
  | .key scancode irq frame tlb cached =>
      (driver.keyPressed image behind scancode irq frame tlb cached).toOption
  | .write buf nbytes cached =>
      (driver.kernel.sysWrite cached 1 buf nbytes).toOption.map fun result =>
        { driver with kernel := result.2.2 }
  | .puts text cached =>
      ((driver.kernel.console cached).puts text).toOption.map fun console =>
        { driver with kernel := driver.kernel.setConsole cached console }
  | .awaitLine =>
      driver.kernel.awaitLine.toOption.map fun kernel => { driver with kernel }
  | .takeLine =>
      (driver.kernel.takeLine fun _ => 0).toOption.map fun result =>
        { driver with kernel := result.2.2 }
  | .store bytes cached =>
      some { driver with
        kernel := driver.kernel.storeVideo cached
          (fun offset => offset < MEM_4KB ∧ bytes offset ≠ none) fun offset =>
            (bytes offset).getD 0 }

/-- Every switch of the step that starts a terminal gets its shell. -/
def StartsShells (driver : TerminalDriver) : ConsoleInput → Prop
  | .call event => ShellStarts image driver.kernel event
  | .key scancode irq frame tlb cached =>
      ∀ term handled, driver.keyHandled behind scancode irq cached = .done (some term, handled) →
        ShellStarts image handled.kernel (.terminalSwitch term irq frame tlb)
  | _ => True

end TerminalDriver

def consoleSystem (image : Image) (behind : BehindTables) :
    Transitions TerminalDriver ConsoleInput :=
  ⟨TerminalDriver.step image behind⟩

end Ece391
