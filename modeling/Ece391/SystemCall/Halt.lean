import Ece391.SystemCall.Files
import Ece391.SystemCall.Execute

namespace Ece391.Kernel

/-! # halt (systemcall.c) -/

/-- The scheduling banner of `halt`. -/
def scheduleHalt (kernel : Kernel) (curProgramid : Nat) (parentProgramid : Int) : Kernel :=
  { kernel with
    tasks :=
      let terminalNumber := kernel.findTerminal curProgramid
      if terminalNumber = -1 then kernel.tasks
      else
        let tasks :=
          if kernel.openTasks curProgramid ≠ 0 then removeTaskFromQueue kernel.tasks terminalNumber
          else kernel.tasks
        addTaskToQueue tasks kernel.currentTaskIdx (kernel.findTerminal parentProgramid) }

/-- `close` of each descriptor in turn, results ignored. -/
def closeDescriptors : List Nat → Kernel → Outcome Kernel
  | [], kernel => .done kernel
  | fd :: rest, kernel => do
      let (_, kernel) ← kernel.sysClose fd
      closeDescriptors rest kernel

/-- A root process is entered again from its start.  Any other one leaves for
its parent: CR3 is the parent's before the closing loop runs. -/
def halt (status : Byte) (kernel : Kernel) : Outcome (Control × Kernel) := do
  let curProgramid ← findProgramid kernel.cr3
  let parentProgramid := kernel.openTasks curProgramid
  let kernel := { kernel with currStatus := status.toNat }
  let kernel := kernel.scheduleHalt curProgramid parentProgramid
  if parentProgramid = 0 then return (.iret kernel.firstShellEntryPoint, kernel)
  else
    let kernel := kernel.setTerminal kernel.oldTerminal
      { kernel.terminals kernel.oldTerminal with programId := parentProgramid }
    let kernel ← kernel.setProgrampage parentProgramid
    let kernel := { kernel with openTasks := Function.update kernel.openTasks curProgramid (-1) }
    let kernel ← closeDescriptors [2, 3, 4, 5, 6, 7] kernel
    let parentPcb := kernel.pcb parentProgramid.toNat
    return (.haltRetLabel parentPcb.esp parentPcb.ebp,
      { kernel with tssEsp0 := stackTop parentProgramid })

end Ece391.Kernel
