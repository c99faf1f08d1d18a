import Ece391.SystemCall.Execute

namespace Ece391

/-! # Switching terminals (terminal.c, paging.c, clear of lib.c) -/

/-- Which accesses to the video page use the cached translation, by byte. -/
structure TlbUse where
  save : Nat → Bool
  clear : Nat → Bool
  restore : Nat → Bool

namespace Kernel

/-- The frame that the video address reaches. -/
def videoFrame (kernel : Kernel) (cached : Bool) : VideoFrame :=
  if cached then kernel.tlbVideo else kernel.videoPage (pageTableOf kernel.cr3)

/-- Stores of `source` to the bytes of the video page that `written` selects. -/
def storeVideo (kernel : Kernel) (cached : Nat → Bool) (written : Nat → Prop)
    [DecidablePred written] (source : Nat → Byte) : Kernel :=
  { kernel with
    video := fun frame offset =>
      if written offset ∧ kernel.videoFrame (cached offset) = frame then source offset
      else kernel.video frame offset }

/-- Spaces of attribute `ATTRIB` in all cells; the logical cursor stays. -/
def clear (kernel : Kernel) (cached : Nat → Bool) : Kernel :=
  kernel.storeVideo cached (· < 2 * (NUM_ROWS * NUM_COLS)) fun offset =>
    if offset % 2 = 0 then 32 else ATTRIB

def setCursor (kernel : Kernel) (x y : Int) : Kernel :=
  { kernel with screenX := x, screenY := y }

def videoMapping (kernel : Kernel) (programId : Int) : Kernel :=
  { kernel with
    videoPage := fun pid =>
      if 1 ≤ programId ∧ programId ≤ 6 ∧ (pid : Int) = programId then .screen
      else kernel.videoPage pid }

def nonVideoMapping (kernel : Kernel) (programId : Int) (terminal : TerminalId) : Kernel :=
  { kernel with
    videoPage := fun pid =>
      if 1 ≤ programId ∧ programId ≤ 6 ∧ (pid : Int) = programId then .termBuffer terminal
      else kernel.videoPage pid }

/-- `memcpy` of the video page to the backing buffer of a terminal. -/
def saveVideo (kernel : Kernel) (term : TerminalId) (cached : Nat → Bool) : Kernel :=
  { kernel with
    video := Function.update kernel.video (.termBuffer term) fun offset =>
      if offset < MEM_4KB then kernel.video (kernel.videoFrame (cached offset)) offset
      else kernel.video (.termBuffer term) offset }

/-- `memcpy` of the backing buffer of a terminal to the video page. -/
def restoreVideo (kernel : Kernel) (term : TerminalId) (cached : Nat → Bool) : Kernel :=
  kernel.storeVideo cached (· < MEM_4KB) (kernel.video (.termBuffer term))

def saveTerminal (kernel : Kernel) (term : TerminalId) (cached : Nat → Bool) : Outcome Kernel := do
  let programId ← findProgramid kernel.cr3
  let kernel := kernel.setTerminal term
    { kernel.terminals term with
      cr3 := kernel.cr3
      esp := kernel.esp_0
      ebp := kernel.ebp_0
      kernelEsp := kernel.tssEsp0
      programId := programId
      x := kernel.screenX
      y := kernel.screenY }
  let kernel := kernel.saveVideo term cached
  return kernel.nonVideoMapping programId term

/-- The first half of `terminal_switch`: save the terminal that is shown, show
`term` and clear the screen. -/
def leaveTerminal (term : TerminalId) (tlb : TlbUse) (kernel : Kernel) : Outcome Kernel := do
  let kernel ← kernel.saveTerminal kernel.oldTerminal tlb.save
  let kernel := { kernel with oldTerminal := term }
  return kernel.clear tlb.clear

/-- What `terminal_switch` does before it executes the shell of a new terminal. -/
def openTerminal (term : TerminalId) (kernel : Kernel) : Kernel :=
  { kernel with
    terminals := Function.update kernel.terminals term { kernel.terminals term with active := 1 }
    newterminalFlag := 1
    tasks := addTaskToQueue kernel.tasks kernel.currentTaskIdx term }

/-- What `terminal_switch` does to come back to an active terminal. -/
def resumeTerminal (term : TerminalId) (tlb : TlbUse) (kernel : Kernel) : Control × Kernel :=
  let termNew := kernel.terminals term
  let kernel := kernel.videoMapping termNew.programId
  let kernel := kernel.setCursor termNew.x termNew.y
  let kernel := kernel.loadCr3 termNew.cr3
  let kernel := kernel.restoreVideo term tlb.restore
  (.intRetHelper termNew.ebp termNew.esp,
    { kernel with tssEsp0 := stackTop (kernel.terminals term).programId })

section Resume

variable (kernel : Kernel) (term : TerminalId) (tlb : TlbUse)

@[simp] theorem resumeTerminal_openTasks :
    (kernel.resumeTerminal term tlb).2.openTasks = kernel.openTasks := by
  simp only [resumeTerminal, restoreVideo, storeVideo, loadCr3, setCursor, videoMapping]
@[simp] theorem resumeTerminal_newterminalFlag :
    (kernel.resumeTerminal term tlb).2.newterminalFlag = kernel.newterminalFlag := by
  simp only [resumeTerminal, restoreVideo, storeVideo, loadCr3, setCursor, videoMapping]
@[simp] theorem resumeTerminal_terminals :
    (kernel.resumeTerminal term tlb).2.terminals = kernel.terminals := by
  simp only [resumeTerminal, restoreVideo, storeVideo, loadCr3, setCursor, videoMapping]
@[simp] theorem resumeTerminal_oldTerminal :
    (kernel.resumeTerminal term tlb).2.oldTerminal = kernel.oldTerminal := by
  simp only [resumeTerminal, restoreVideo, storeVideo, loadCr3, setCursor, videoMapping]
@[simp] theorem resumeTerminal_tasks :
    (kernel.resumeTerminal term tlb).2.tasks = kernel.tasks := by
  simp only [resumeTerminal, restoreVideo, storeVideo, loadCr3, setCursor, videoMapping]
@[simp] theorem resumeTerminal_currentTaskIdx :
    (kernel.resumeTerminal term tlb).2.currentTaskIdx = kernel.currentTaskIdx := by
  simp only [resumeTerminal, restoreVideo, storeVideo, loadCr3, setCursor, videoMapping]
@[simp] theorem resumeTerminal_currStatus :
    (kernel.resumeTerminal term tlb).2.currStatus = kernel.currStatus := by
  simp only [resumeTerminal, restoreVideo, storeVideo, loadCr3, setCursor, videoMapping]
@[simp] theorem resumeTerminal_pcb :
    (kernel.resumeTerminal term tlb).2.pcb = kernel.pcb := by
  simp only [resumeTerminal, restoreVideo, storeVideo, loadCr3, setCursor, videoMapping]
@[simp] theorem resumeTerminal_cr3 :
    (kernel.resumeTerminal term tlb).2.cr3 = (kernel.terminals term).cr3 := by
  simp only [resumeTerminal, restoreVideo, storeVideo, loadCr3, setCursor, videoMapping]
@[simp] theorem resumeTerminal_tssEsp0 :
    (kernel.resumeTerminal term tlb).2.tssEsp0 =
      stackTop (kernel.terminals term).programId := by
  simp only [resumeTerminal, restoreVideo, storeVideo, loadCr3, setCursor, videoMapping]

@[simp] theorem resumeTerminal_videoPage :
    (kernel.resumeTerminal term tlb).2.videoPage =
      (kernel.videoMapping (kernel.terminals term).programId).videoPage := by
  simp only [resumeTerminal, restoreVideo, storeVideo, loadCr3, setCursor, videoMapping]
@[simp] theorem resumeTerminal_tlbVideo :
    (kernel.resumeTerminal term tlb).2.tlbVideo =
      (kernel.videoMapping (kernel.terminals term).programId).videoPage
        (pageTableOf (kernel.terminals term).cr3) := by
  simp only [resumeTerminal, restoreVideo, storeVideo, loadCr3, setCursor, videoMapping]

end Resume

/-- `terminal_switch` once it knows that another terminal is meant. -/
def switchTo (image : Image) (term : TerminalId) (frame : CallFrame) (tlb : TlbUse)
    (kernel : Kernel) : Outcome (Control × Kernel) := do
  let kernel ← kernel.leaveTerminal term tlb
  if (kernel.terminals term).active = 0 then
    (kernel.openTerminal term).execute image (some shellCommand) frame
  else return kernel.resumeTerminal term tlb

/-- A `term` that is out of range or already shown is ignored. -/
def terminalSwitch (image : Image) (term : Int) (frame : CallFrame) (tlb : TlbUse)
    (kernel : Kernel) : Outcome (Control × Kernel) :=
  if range : 0 ≤ term ∧ term ≤ 2 then
    let target : TerminalId := ⟨term.toNat, by omega⟩
    if kernel.oldTerminal = target then .done (.returns 0, kernel)
    else kernel.switchTo image target frame tlb
  else .done (.returns 0, kernel)

end Kernel

end Ece391
