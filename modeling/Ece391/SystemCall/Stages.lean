import Ece391.SystemCall.Execute
import Ece391.SystemCall.Halt

namespace Ece391

/-! # execute and halt, one store at a time

The system call gate is a trap gate, so that a handler can be interrupted
between any two of its accesses to the globals.  Here the bodies of `execute`
and `halt` are cut at these places; run in one piece they are the functions.
-/

universe u

/-- Carry a value through a list of steps, the first failure ending it. -/
def Outcome.through {α : Type u} {σ : Type} (step : σ → α → Outcome α) : List σ → α → Outcome α
  | [], value => .done value
  | stage :: rest, value => step stage value >>= Outcome.through step rest

/-- The variables of `execute` that live past its checks. -/
structure ExecuteLocals where
  curProgramid : Nat
  fileName : CString
  savedArgument : CString
  entryPoint : Word
  frame : CallFrame

/-- The banners of `execute` behind the claim of the slot, in order. -/
inductive LaunchStage where
  | schedule
  | setUp
  | save
  | load
  | enter
deriving DecidableEq, Repr

namespace LaunchStage

def next : LaunchStage → Option LaunchStage
  | schedule => some setUp
  | setUp => some save
  | save => some load
  | load => some enter
  | enter => none

def all : List LaunchStage := [schedule, setUp, save, load, enter]

end LaunchStage

namespace Kernel

/-- `execute` up to the search for a slot: the locals, or `none` where it
returns -1. -/
def beginExecute (image : Image) (command : Option CString) (frame : CallFrame) (kernel : Kernel) :
    Outcome (Option ExecuteLocals × Kernel) :=
  match command with
  | none => .spins
  | some command => do
      match ← parseCommand command with
      | none => return (none, kernel)
      | some (fileName, savedArgument) =>
          match ← checkExecutable image fileName frame.buf with
          | none => return (none, kernel)
          | some entryPoint =>
              let curProgramid ← findProgramid kernel.cr3
              let kernel :=
                if curProgramid = 0 then { kernel with firstShellEntryPoint := entryPoint }
                else kernel
              return (some ⟨curProgramid, fileName, savedArgument, entryPoint, frame⟩, kernel)

def launchStage (image : Image) (locals : ExecuteLocals) (slot : Nat) (stage : LaunchStage)
    (kernel : Kernel) : Outcome Kernel :=
  match stage with
  | .schedule => .done (kernel.scheduleLaunch locals.curProgramid slot)
  | .setUp => .done (kernel.setUpPcb slot locals.savedArgument)
  | .save => .done (kernel.saveCaller locals.curProgramid locals.frame)
  | .load => kernel.pageLoader image locals.fileName slot
  | .enter => .done (kernel.enterProgram locals.curProgramid slot)

/-- `execute` is its beginning, the search, the claim and the stages behind it. -/
theorem execute_eq_stages (image : Image) (command : Option CString) (frame : CallFrame)
    (kernel : Kernel) :
    kernel.execute image command frame = (do
      match ← kernel.beginExecute image command frame with
      | (none, kernel) => return (.returns (-1), kernel)
      | (some locals, kernel) =>
          match (findSlot kernel.openTasks).2 with
          | none => .spins
          | some slot =>
              let kernel ← Outcome.through (launchStage image locals slot) LaunchStage.all
                (kernel.claimSlot locals.curProgramid slot)
              return (.iret locals.entryPoint, kernel)) := by
  cases command with
  | none => rfl
  | some command =>
      simp only [execute, beginExecute]
      cases parseCommand command with
      | done words =>
          cases words with
          | none => rfl
          | some words =>
              obtain ⟨fileName, savedArgument⟩ := words
              simp only [Outcome.done_bind]
              cases checkExecutable image fileName frame.buf with
              | done entry =>
                  cases entry with
                  | none => rfl
                  | some entryPoint =>
                      simp only [Outcome.done_bind, launch]
                      cases findProgramid kernel.cr3 with
                      | done curProgramid =>
                          simp only [Outcome.done_bind, Outcome.pure_eq, LaunchStage.all,
                            Outcome.through, launchStage]
                          generalize (if curProgramid = 0 then
                            { kernel with firstShellEntryPoint := entryPoint } else kernel) = stored
                          cases (findSlot stored.openTasks).2 with
                          | none => rfl
                          | some slot =>
                              dsimp only
                              cases pageLoader image fileName _ _ <;> rfl
                      | spins => rfl
                      | outOfBounds => rfl
                      | pageFault => rfl
              | spins => rfl
              | outOfBounds => rfl
              | pageFault => rfl
      | spins => rfl
      | outOfBounds => rfl
      | pageFault => rfl

end Kernel

/-- The stores of `halt`, in order.  A root process leaves after `schedule`. -/
inductive HaltStage where
  | status
  | schedule
  | terminal
  | page
  | free
  | close
  | stack
  | jump
deriving DecidableEq, Repr

namespace HaltStage

def next : HaltStage → HaltStage
  | status => schedule
  | schedule => terminal
  | terminal => page
  | page => free
  | free => close
  | close => stack
  | stack => jump
  | jump => jump

def leaving : List HaltStage := [terminal, page, free, close, stack]

end HaltStage

namespace Kernel

/-- `jump` stands for the loads of ESP and EBP and the jump, which change
nothing in memory. -/
def haltStage (status : Byte) (curProgramid : Nat) (parentProgramid : Int) (stage : HaltStage)
    (kernel : Kernel) : Outcome Kernel :=
  match stage with
  | .status => .done { kernel with currStatus := status.toNat }
  | .schedule => .done (kernel.scheduleHalt curProgramid parentProgramid)
  | .terminal => .done (kernel.setTerminal kernel.oldTerminal
      { kernel.terminals kernel.oldTerminal with programId := parentProgramid })
  | .page => kernel.setProgrampage parentProgramid
  | .free => .done { kernel with
      openTasks := Function.update kernel.openTasks curProgramid (-1) }
  | .close => closeDescriptors [2, 3, 4, 5, 6, 7] kernel
  | .stack => .done { kernel with tssEsp0 := stackTop parentProgramid }
  | .jump => .done kernel

/-- `halt` is its stages, and the jump goes where the parent's block says. -/
theorem halt_eq_stages (status : Byte) (kernel : Kernel) :
    kernel.halt status = (do
      let curProgramid ← findProgramid kernel.cr3
      let parentProgramid := kernel.openTasks curProgramid
      let stage := haltStage status curProgramid parentProgramid
      let kernel ← Outcome.through stage [.status, .schedule] kernel
      if parentProgramid = 0 then return (.iret kernel.firstShellEntryPoint, kernel)
      else
        let kernel ← Outcome.through stage HaltStage.leaving kernel
        let parentPcb := kernel.pcb parentProgramid.toNat
        return (.haltRetLabel parentPcb.esp parentPcb.ebp, kernel)) := by
  simp only [halt]
  cases findProgramid kernel.cr3 with
  | done curProgramid =>
      simp only [Outcome.done_bind, Outcome.through, haltStage, HaltStage.leaving, Outcome.pure_eq]
      split
      · rfl
      · simp only [setProgrampage]
        cases pageDirectoryOf (kernel.openTasks curProgramid) with
        | none => rfl
        | some cr3 =>
            simp only [Outcome.done_bind]
            cases closeDescriptors [2, 3, 4, 5, 6, 7] _ <;> rfl
  | spins => rfl
  | outOfBounds => rfl
  | pageFault => rfl

end Kernel

end Ece391
