import Ece391.SystemCall.Stages
import Ece391.Process.Starting

namespace Ece391

open Library

/-! # The kernel under interrupts

A system call is taken one step at a time and a keyboard interrupt may come
between any two steps; the interrupt itself is not interrupted.  A C statement
is one step, and the way out of syscall_wrapper (idt_linkage.S) goes instruction
by instruction; the module Instructions does the same for the way in.

Beside the kernel's memory there is, for each terminal, the point that control
has reached there and the calls of `execute` waiting for a child.  The code
does not keep these in variables: they are what the kernel stacks hold.
-/

/-- Handlers 3 to 8.  `other` is `write`, `getargs` or `vidmap`, which touch
nothing that is followed here, with any result. -/
inductive Service where
  | sysOpen (filename : CString)
  | sysClose (fd : Int)
  | sysRead (fd : Int) (buf : Option (Nat → Byte)) (nbytes : Int)
  | other (value : Int)

/-- What a program puts in its registers before `int $0x80`. -/
inductive Request where
  | halt (status : Byte)
  | execute (command : Option CString) (frame : CallFrame)
  | service (service : Service)
  /-- A call number outside 1 to 8. -/
  | invalid

def Kernel.serve (image : Image) (kernel : Kernel) : Service → Outcome (Int × Kernel)
  | .sysOpen filename => kernel.sysOpen image filename
  | .sysClose fd => kernel.sysClose fd
  | .sysRead fd buf nbytes => do
      let (value, _, kernel) ← kernel.sysRead image fd buf nbytes
      return (value, kernel)
  | .other value => .done (value, kernel)

/-- How far control has come on a terminal.  `result` is what the handler
computed, a record that no step reads. -/
inductive Point where
  | user
  | handler (service : Service)
  /-- In `execute`, before the test of `openTasks[i]`. -/
  | search (locals : ExecuteLocals) (i : Nat)
  /-- The test succeeded, `openTasks[slot]` is not yet filled. -/
  | claim (locals : ExecuteLocals) (slot : Nat)
  /-- Still on the caller's kernel stack. -/
  | launching (locals : ExecuteLocals) (stage : LaunchStage)
  | halting (status : Byte) (curProgramid : Nat) (parentProgramid : Int) (stage : HaltStage)
  /-- At `halt_ret_label`, before the load of `curr_status`. -/
  | haltRetLabel (result : Word)
  /-- The handler has returned, EAX is not yet stored. -/
  | returned (result eax : Word)
  /-- Between the two `movl` of `returnValue`, before and after `popa`. -/
  | stored (result : Word)
  | popped (result : Word)
  /-- Before `iret`. -/
  | loaded (result eax : Word)
  /-- Control went to a stack frame that is no longer there. -/
  | lost

/-- A call of `execute` whose child runs, and its stack registers. -/
structure WaitingCall where
  pid : Nat
  esp : Word
  ebp : Word

/-- The processes of a terminal.  While one is being launched `pid` is already
its slot. -/
structure Thread where
  pid : Nat
  point : Point
  waiting : List WaitingCall

namespace Thread

/-- Every process whose kernel stack the terminal's code may come back to. -/
def pids (thread : Thread) : List Nat := thread.pid :: thread.waiting.map WaitingCall.pid

/-- `halt` has given the slot of the running process back. -/
def freed (thread : Thread) : Bool :=
  match thread.point with
  | .halting _ _ _ .close => true
  | .halting _ _ _ .stack => true
  | .halting _ _ _ .jump => true
  | .lost => true
  | _ => false

/-- The processes that are live, newest first. -/
def live (thread : Thread) : List Nat :=
  if thread.freed then thread.waiting.map WaitingCall.pid else thread.pids

/-- What a value in EAX is when the terminal is shown again: `int_ret_helper`
does not restore it. -/
def spill (thread : Thread) (scratch : Word) : Thread :=
  { thread with
    point :=
      match thread.point with
      | .returned result _ => .returned result scratch
      | .loaded result _ => .loaded result scratch
      | point => point }

/-- Another process enters `slot` and takes over its memory and kernel stack. -/
def overrun (thread : Thread) (slot : Nat) : Thread :=
  if slot ∈ thread.pids then { thread with point := .lost } else thread

end Thread

structure Machine where
  kernel : Kernel
  /-- The global of `syscall_wrapper`. -/
  returnValue : Word
  threads : TerminalId → Option Thread
  /-- For each system call that returned to user mode, what its handler
  computed and what the caller got. -/
  delivered : List (Word × Word)

inductive Input where
  | call (request : Request)
  | advance
  /-- `scratch` is what EAX will hold when the terminal that is left is shown again. -/
  | interrupt (term : Int) (irq : IrqFrame) (frame : CallFrame) (tlb : TlbUse) (scratch : Word)

namespace Machine

/-- The shown terminal's processes after a step of theirs. -/
def become (machine : Machine) (kernel : Kernel) (thread : Thread) : Machine :=
  { machine with
    kernel
    threads := Function.update machine.threads machine.kernel.oldTerminal (some thread) }

/-- A new terminal's shell in user mode, alone in its slot. -/
def startShell (machine : Machine) (target : TerminalId) (slot : Nat) : Machine :=
  { machine with
    threads := Function.update (fun term => (machine.threads term).map (Thread.overrun · slot)) target
      (some ⟨slot, .user, []⟩) }

/-- `int $0x80` and `syscall_wrapper` up to the handler, in one step. -/
def call (image : Image) (machine : Machine) (thread : Thread) : Request → Outcome Machine
  | .halt status => do
      let curProgramid ← findProgramid machine.kernel.cr3
      let parentProgramid := machine.kernel.openTasks curProgramid
      return machine.become machine.kernel
        { thread with point := .halting status curProgramid parentProgramid .status }
  | .execute command frame => do
      match ← machine.kernel.beginExecute image command frame with
      | (none, kernel) => return machine.become kernel { thread with point := .returned (-1) (-1) }
      | (some locals, kernel) => return machine.become kernel { thread with point := .search locals 1 }
  | .service service => return machine.become machine.kernel { thread with point := .handler service }
  | .invalid => return machine.become machine.kernel { thread with point := .loaded (-1) (-1) }

/-- The jump of `halt` with the ESP and EBP of the parent's control block. -/
def jump (thread : Thread) (status : Byte) (esp ebp : Word) : Thread :=
  match thread.waiting with
  | caller :: waiting =>
      if esp = caller.esp ∧ ebp = caller.ebp then
        { pid := caller.pid, point := .haltRetLabel (BitVec.ofNat 32 status.toNat), waiting }
      else { thread with point := .lost }
  | [] => { thread with point := .lost }

/-- A step of `halt`. -/
def halting (machine : Machine) (thread : Thread) (status : Byte) (curProgramid : Nat)
    (parentProgramid : Int) (stage : HaltStage) : Outcome Machine := do
  let kernel ← machine.kernel.haltStage status curProgramid parentProgramid stage
  if stage = .schedule ∧ parentProgramid = 0 then
    return machine.become kernel { thread with point := .user }
  else if stage = .jump then
    let parentPcb := kernel.pcb parentProgramid.toNat
    return machine.become kernel (jump thread status parentPcb.esp parentPcb.ebp)
  else
    return machine.become kernel
      { thread with point := .halting status curProgramid parentProgramid stage.next }

/-- A step of `execute` behind the claim of the slot.  The new process starts
in user mode, and nothing else is left in its slot. -/
def launching (image : Image) (machine : Machine) (thread : Thread) (locals : ExecuteLocals)
    (stage : LaunchStage) : Outcome Machine := do
  let kernel ← machine.kernel.launchStage image locals thread.pid stage
  match stage.next with
  | some next => return machine.become kernel { thread with point := .launching locals next }
  | none =>
      let machine := { machine with
        threads := fun term => (machine.threads term).map (Thread.overrun · thread.pid) }
      return machine.become kernel { thread with point := .user }

/-- The next step of the code that runs on the shown terminal. -/
def advance (image : Image) (machine : Machine) (thread : Thread) : Outcome Machine :=
  match thread.point with
  | .user => .spins
  | .handler service => do
      let (value, kernel) ← machine.kernel.serve image service
      let result := BitVec.ofInt 32 value
      return machine.become kernel { thread with point := .returned result result }
  | .search locals i =>
      if machine.kernel.openTasks i = -1 then
        .done (machine.become machine.kernel { thread with point := .claim locals i })
      else if i = 7 then .spins
      else .done (machine.become machine.kernel { thread with point := .search locals (i + 1) })
  | .claim locals slot =>
      .done (machine.become (machine.kernel.claimSlot locals.curProgramid slot)
        { pid := slot
          point := .launching locals .schedule
          waiting := ⟨thread.pid, locals.frame.esp, locals.frame.ebp⟩ :: thread.waiting })
  | .launching locals stage => machine.launching image thread locals stage
  | .halting status curProgramid parentProgramid stage =>
      machine.halting thread status curProgramid parentProgramid stage
  | .haltRetLabel result =>
      .done (machine.become machine.kernel
        { thread with point := .returned result (BitVec.ofInt 32 machine.kernel.currStatus) })
  | .returned result eax =>
      .done { machine.become machine.kernel { thread with point := .stored result } with
        returnValue := eax }
  | .stored result =>
      .done (machine.become machine.kernel { thread with point := .popped result })
  | .popped result =>
      .done (machine.become machine.kernel { thread with point := .loaded result machine.returnValue })
  | .loaded result eax =>
      .done { machine.become machine.kernel { thread with point := .user } with
        delivered := machine.delivered ++ [(result, eax)] }
  | .lost => .spins

/-- A keyboard interrupt.  One that starts no terminal and leaves none returns
through `irq1_wrapper` with all registers as they were.  A new terminal whose
shell does not load is left out. -/
def interrupt (image : Image) (machine : Machine) (thread : Thread) (term : Int) (irq : IrqFrame)
    (frame : CallFrame) (tlb : TlbUse) (scratch : Word) : Option Machine :=
  match machine.kernel.keyboardSwitch image term irq frame tlb with
  | .done (.returns 0, kernel) => some { machine with kernel }
  | .done (.iret _, kernel) =>
      (findSlot machine.kernel.openTasks).2.map fun slot =>
        (machine.become kernel (thread.spill scratch)).startShell kernel.oldTerminal slot
  | .done (.intRetHelper _ _, kernel) => some (machine.become kernel (thread.spill scratch))
  | _ => none

def step (image : Image) (machine : Machine) (input : Input) : Option Machine :=
  match machine.threads machine.kernel.oldTerminal with
  | none => none
  | some thread =>
      match input, thread.point with
      | .call request, .user => (machine.call image thread request).toOption
      | .call _, _ => none
      | .advance, _ => (machine.advance image thread).toOption
      | .interrupt _ _ _ _ _, .lost => none
      | .interrupt term irq frame tlb scratch, _ =>
          machine.interrupt image thread term irq frame tlb scratch

/-- The first shell runs in user mode; it was started with interrupts off. -/
def start (kernel : Kernel) (returnValue : Word) : Machine where
  kernel
  returnValue
  threads := Function.update (fun _ => none) kernel.oldTerminal
    ((findProgramid kernel.cr3).toOption.map fun pid => ⟨pid, .user, []⟩)
  delivered := []

end Machine

def machineSystem (image : Image) : Transitions Machine Input := ⟨Machine.step image⟩

end Ece391
