import Ece391.Library.Transition
import Ece391.SystemCall.Halt
import Ece391.Terminal

namespace Ece391

open Library

/-! # Runs of the kernel

One step is one system call of the current process, or one keyboard interrupt
that calls `terminal_switch`; each is atomic here.
-/

/-- The two stack registers as `irq1_wrapper` stores them in its globals. -/
structure IrqFrame where
  esp_0 : Word
  ebp_0 : Word

inductive Event where
  | execute (command : Option CString) (frame : CallFrame)
  | halt (status : Byte)
  | terminalSwitch (term : Int) (irq : IrqFrame) (frame : CallFrame) (tlb : TlbUse)
  | sysOpen (filename : CString)
  | sysClose (fd : Int)
  | sysRead (fd : Int) (buf : Option (Nat → Byte)) (nbytes : Int)

namespace Kernel

def keyboardSwitch (image : Image) (term : Int) (irq : IrqFrame) (frame : CallFrame)
    (tlb : TlbUse) (kernel : Kernel) : Outcome (Control × Kernel) :=
  { kernel with esp_0 := irq.esp_0, ebp_0 := irq.ebp_0 }.terminalSwitch image term frame tlb

/-- A step that spins or faults has no successor. -/
def step (image : Image) (kernel : Kernel) : Event → Option Kernel
  | .execute command frame => (kernel.execute image command frame).toOption.map Prod.snd
  | .halt status => (kernel.halt status).toOption.map Prod.snd
  | .terminalSwitch term irq frame tlb =>
      (kernel.keyboardSwitch image term irq frame tlb).toOption.map Prod.snd
  | .sysOpen filename => (kernel.sysOpen image filename).toOption.map Prod.snd
  | .sysClose fd => (kernel.sysClose fd).toOption.map Prod.snd
  | .sysRead fd buf nbytes => (kernel.sysRead image fd buf nbytes).toOption.map (·.2.2)

end Kernel

def kernelSystem (image : Image) : Transitions Kernel Event := ⟨Kernel.step image⟩

/-- No `terminal_switch` of the step starts a terminal whose shell fails to
load: every `execute` it makes is a successful one. -/
def ShellStarts (image : Image) (kernel : Kernel) : Event → Prop
  | .terminalSwitch term irq frame tlb =>
      ∀ after, kernel.keyboardSwitch image term irq frame tlb ≠ .done (.returns (-1), after)
  | _ => True

def initialTerminal (terminal : Terminal) (term : TerminalId) : Terminal where
  x := 0
  y := 0
  lineBuffer := terminal.lineBuffer
  bufferI := 0
  esp := 0
  ebp := 0
  cr3 := .null
  kernelEsp := 0
  programId := 0
  active := if term = 0 then 1 else 0

/-- The kernel just before its own `execute("shell")`: the initialised globals,
`paging_initialize`, `init_bootBlock_address`, `terminal_init`, `clear` and the
first `add_task_to_queue`.  Everything else is what memory happened to hold. -/
def Kernel.boot (memory : Kernel) : Kernel :=
  let kernel : Kernel :=
    { memory with
      openTasks := fun i => if i < 7 then -1 else memory.openTasks i
      currStatus := -1
      firstShellEntryPoint := 0
      newterminalFlag := 0
      terminals := fun term => initialTerminal (memory.terminals term) term
      oldTerminal := 0
      tasks := addTaskToQueue (fun _ => none) 0 0
      currentTaskIdx := 0
      cr3 := .pageDirectory
      tssEsp0 := 0x800000
      esp_0 := 0
      ebp_0 := 0
      videoPage := fun _ => .screen
      tlbVideo := .screen
      video := fun frame offset =>
        match frame with
        | .screen => memory.video .screen offset
        | .termBuffer _ =>
            if offset < NUM_ROWS * NUM_COLS then 32 else memory.video frame offset
      currentDirIndex := 0
      rtcInterruptFlag := 0 }
  kernel.clear fun _ => false

namespace Kernel

variable (memory : Kernel)

theorem boot_openTasks (i : Nat) (inside : i < 7) : (boot memory).openTasks i = -1 := by
  simp only [boot, clear, storeVideo, if_pos inside]
@[simp] theorem boot_newterminalFlag : (boot memory).newterminalFlag = 0 := by
  simp only [boot, clear, storeVideo]
@[simp] theorem boot_terminals (term : TerminalId) :
    (boot memory).terminals term = initialTerminal (memory.terminals term) term := by
  simp only [boot, clear, storeVideo]
@[simp] theorem boot_oldTerminal : (boot memory).oldTerminal = 0 := by
  simp only [boot, clear, storeVideo]
@[simp] theorem boot_cr3 : (boot memory).cr3 = .pageDirectory := by
  simp only [boot, clear, storeVideo]
@[simp] theorem boot_tasks : (boot memory).tasks = addTaskToQueue (fun _ => none) 0 0 := by
  simp only [boot, clear, storeVideo]
@[simp] theorem boot_currentTaskIdx : (boot memory).currentTaskIdx = 0 := by
  simp only [boot, clear, storeVideo]
@[simp] theorem boot_screenX : (boot memory).screenX = memory.screenX := by
  simp only [boot, clear, storeVideo]
@[simp] theorem boot_screenY : (boot memory).screenY = memory.screenY := by
  simp only [boot, clear, storeVideo]
@[simp] theorem boot_pcb : (boot memory).pcb = memory.pcb := by
  simp only [boot, clear, storeVideo]

end Kernel

/-- The state right after the kernel's first `execute` of shell. -/
def FirstShell (image : Image) (kernel : Kernel) : Prop :=
  ∃ memory frame entry,
    (Kernel.boot memory).execute image (some shellCommand) frame = .done (.iret entry, kernel)

/-- The states of runs of any length. -/
def Reachable (image : Image) (kernel : Kernel) : Prop :=
  ∃ first events, FirstShell image first ∧ (kernelSystem image).run first events = some kernel

/-- An invariant of every step holds in every reachable state. -/
theorem Reachable.of_invariant {image : Image} {invariant : Kernel → Prop}
    (initial : ∀ first, FirstShell image first → invariant first)
    (preserved : ∀ kernel event next, invariant kernel →
      kernel.step image event = some next → invariant next)
    {kernel : Kernel} (reachable : Reachable image kernel) : invariant kernel := by
  obtain ⟨first, events, started, ran⟩ := reachable
  refine Transitions.run_preserves ?_ (initial first started) ran
  exact preserved

end Ece391
