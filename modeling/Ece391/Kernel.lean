import Ece391.FileSystem

namespace Ece391

/-! # The state of the kernel

The globals of systemcall.c, terminal.c, scheduler.c, paging.c and lib.c, the
process control blocks, and the two processor registers that name the current
process (CR3 and the `esp0` of the task state segment).
-/

def MB_8 : Int := 0x800000
def KB_8 : Int := 0x2000
def PREV : Int := 4
def PROGRAM_MEM : Nat := 0x08048000
def USER_START : Nat := 0x08000000
def USER_END : Nat := 0x08400000
def BUF_SIZE : Nat := 40
def NUM_FILE_DESCRIPTOR : Nat := 8
def MAXTERMS : Nat := 3
def NUM_COLS : Nat := 80
def NUM_ROWS : Nat := 25
def ATTRIB : Byte := 0x7
def MEM_4KB : Nat := 0x1000

/-- The `sysops_ptr` of a descriptor: one of the four driver tables, NULL, or
whatever an uninitialised control block holds. -/
inductive SysOps where
  | null
  | rtcOps
  | terminalOps
  | directoryOps
  | fileOps
  | stray (address : Word)
deriving DecidableEq, Repr

structure FileDescriptor where
  fileName : Nat → Byte
  inodePtr : Nat
  filePosition : Nat
  flags : Nat
  sysopsPtr : SysOps

/-- The values CR3 takes: the address of a page directory, or 0. -/
inductive Cr3 where
  | null
  | pageDirectory
  | task1PageDirectory
  | task2PageDirectory
  | task3PageDirectory
  | task4PageDirectory
  | task5PageDirectory
  | task6PageDirectory
deriving DecidableEq, Repr

structure Pcb where
  fd : Nat → FileDescriptor
  prevPcb : Int
  esp : Word
  ebp : Word
  cr3 : Cr3
  parentPid : Int
  argument : Nat → Byte

abbrev TerminalId := Fin 3

instance terminalId_neZero : @NeZero Nat Zero.ofOfNat0 3 := ⟨Nat.succ_ne_zero 2⟩

structure Terminal where
  x : Int
  y : Int
  lineBuffer : Nat → Byte
  bufferI : Nat
  esp : Word
  ebp : Word
  cr3 : Cr3
  kernelEsp : Word
  programId : Int
  active : Nat

/-- The frame behind the `VIDEO_PAGE` entry of a page table: 0xB8000 or the
backing buffer of a terminal. -/
inductive VideoFrame where
  | screen
  | termBuffer (term : TerminalId)
deriving DecidableEq, Repr

def VideoFrame.address : VideoFrame → Nat
  | .screen => 0xB8000
  | .termBuffer term => 0x600000 + 0x1000 * term

structure Kernel where
  /-- Entries 0 to 6 are the array, entry 7 is the word behind it. -/
  openTasks : Nat → Int
  currStatus : Int
  firstShellEntryPoint : Word
  newterminalFlag : Int
  terminals : TerminalId → Terminal
  oldTerminal : TerminalId
  /-- `some index` is the address `&terminals[index]`. -/
  tasks : Nat → Option Int
  currentTaskIdx : Nat
  pcb : Nat → Pcb
  cr3 : Cr3
  tssEsp0 : Word
  esp_0 : Word
  ebp_0 : Word
  screenX : Int
  screenY : Int
  /-- The `VIDEO_PAGE` entry of each process's page table. -/
  videoPage : Nat → VideoFrame
  /-- What the processor may still have cached of it since CR3 was loaded. -/
  tlbVideo : VideoFrame
  video : VideoFrame → Nat → Byte
  /-- The 4 MB user page of each process, from `USER_START` on. -/
  userPage : Nat → Nat → Byte
  currentDirIndex : Nat
  rtcInterruptFlag : Nat
  rtcRegA : Byte
  rtcRegB : Byte

/-- The top of a process's kernel stack. -/
def stackTop (programId : Int) : Word :=
  BitVec.ofInt 32 (MB_8 - KB_8 * (programId - 1) - PREV)

def findProgramid (cr3 : Cr3) : Outcome Nat :=
  match cr3 with
  | .pageDirectory => .done 0
  | .task1PageDirectory => .done 1
  | .task2PageDirectory => .done 2
  | .task3PageDirectory => .done 3
  | .task4PageDirectory => .done 4
  | .task5PageDirectory => .done 5
  | .task6PageDirectory => .done 6
  | .null => .spins

/-- The directory `set_programpage` loads for a process. -/
def pageDirectoryOf (programId : Int) : Option Cr3 :=
  if programId = 0 then some .pageDirectory
  else if programId = 1 then some .task1PageDirectory
  else if programId = 2 then some .task2PageDirectory
  else if programId = 3 then some .task3PageDirectory
  else if programId = 4 then some .task4PageDirectory
  else if programId = 5 then some .task5PageDirectory
  else if programId = 6 then some .task6PageDirectory
  else none

/-- The index of the page table a directory points to. -/
def pageTableOf (cr3 : Cr3) : Nat := (findProgramid cr3).toOption.getD 0

namespace Kernel

/-- Loading CR3 flushes the cached translation of the video page. -/
def loadCr3 (kernel : Kernel) (cr3 : Cr3) : Kernel :=
  { kernel with cr3, tlbVideo := kernel.videoPage (pageTableOf cr3) }

def setProgrampage (kernel : Kernel) (programId : Int) : Outcome Kernel :=
  match pageDirectoryOf programId with
  | some cr3 => .done (kernel.loadCr3 cr3)
  | none => .spins

def setTerminal (kernel : Kernel) (term : TerminalId) (terminal : Terminal) : Kernel :=
  { kernel with terminals := Function.update kernel.terminals term terminal }

def setPcb (kernel : Kernel) (programId : Nat) (pcb : Pcb) : Kernel :=
  { kernel with pcb := Function.update kernel.pcb programId pcb }

end Kernel

def Pcb.setFd (pcb : Pcb) (fd : Nat) (descriptor : FileDescriptor) : Pcb :=
  { pcb with fd := Function.update pcb.fd fd descriptor }

@[simp] theorem Kernel.setPcb_self (kernel : Kernel) (programId : Nat) (pcb : Pcb) :
    (kernel.setPcb programId pcb).pcb programId = pcb := by
  simp only [Kernel.setPcb, Function.update_self]

@[simp] theorem Pcb.setFd_self (pcb : Pcb) (fd : Nat) (descriptor : FileDescriptor) :
    (pcb.setFd fd descriptor).fd fd = descriptor := by
  simp only [Pcb.setFd, Function.update_self]

theorem Pcb.setFd_of_ne {pcb : Pcb} {fd other : Nat} (different : other ≠ fd)
    (descriptor : FileDescriptor) : (pcb.setFd fd descriptor).fd other = pcb.fd other := by
  simp only [Pcb.setFd, Function.update_of_ne different]

theorem findProgramid_lt {cr3 : Cr3} {programId : Nat}
    (found : findProgramid cr3 = .done programId) : programId ≤ 6 := by
  cases cr3 <;> simp [findProgramid] at found <;> omega

/-- `find_programid` and `set_programpage` use the same table. -/
theorem pageDirectoryOf_findProgramid {cr3 : Cr3} {programId : Nat} :
    findProgramid cr3 = .done programId ↔ pageDirectoryOf programId = some cr3 := by
  constructor
  · intro found
    cases cr3 <;> simp only [findProgramid, Outcome.done.injEq, reduceCtorEq] at found <;>
      subst found <;> rfl
  · intro directory
    unfold pageDirectoryOf at directory
    repeat' split at directory
    all_goals cases directory
    all_goals simp only [findProgramid, Outcome.done.injEq]; omega

/-- `set_programpage` knows the pids 0 to 6 and no other. -/
theorem pageDirectoryOf_eq_none {programId : Int} :
    pageDirectoryOf programId = none ↔ programId < 0 ∨ 6 < programId := by
  simp only [pageDirectoryOf]
  constructor
  · intro absent
    repeat' split at absent
    all_goals first | contradiction | omega
  · intro outside
    repeat rw [if_neg (by omega)]

theorem pageDirectoryOf_exists {programId : Nat} (bound : programId ≤ 6) :
    ∃ cr3, pageDirectoryOf programId = some cr3 := by
  cases directory : pageDirectoryOf (programId : Int) with
  | some cr3 => exact ⟨cr3, rfl⟩
  | none => have outside := pageDirectoryOf_eq_none.mp directory; omega

theorem pageDirectoryOf_injective {left right : Nat} {cr3 : Cr3}
    (ofLeft : pageDirectoryOf left = some cr3) (ofRight : pageDirectoryOf right = some cr3) :
    left = right := by
  have foundLeft := pageDirectoryOf_findProgramid.mpr ofLeft
  have foundRight := pageDirectoryOf_findProgramid.mpr ofRight
  rw [foundLeft] at foundRight
  exact Outcome.done.inj foundRight

namespace Kernel

variable {kernel : Kernel} {cr3 : Cr3} {term : TerminalId} {terminal : Terminal}
  {programId : Nat} {pcb : Pcb}

theorem setProgrampage_eq_done {after : Kernel} {programId : Int} :
    kernel.setProgrampage programId = .done after ↔
      ∃ cr3, pageDirectoryOf programId = some cr3 ∧ after = kernel.loadCr3 cr3 := by
  simp only [setProgrampage]
  cases pageDirectoryOf programId with
  | none => simp
  | some cr3 => simp [eq_comm]

@[simp] theorem loadCr3_openTasks : (kernel.loadCr3 cr3).openTasks = kernel.openTasks := rfl
@[simp] theorem loadCr3_terminals : (kernel.loadCr3 cr3).terminals = kernel.terminals := rfl
@[simp] theorem loadCr3_oldTerminal : (kernel.loadCr3 cr3).oldTerminal = kernel.oldTerminal := rfl
@[simp] theorem loadCr3_tasks : (kernel.loadCr3 cr3).tasks = kernel.tasks := rfl
@[simp] theorem loadCr3_pcb : (kernel.loadCr3 cr3).pcb = kernel.pcb := rfl
@[simp] theorem loadCr3_cr3 : (kernel.loadCr3 cr3).cr3 = cr3 := rfl
@[simp] theorem loadCr3_tssEsp0 : (kernel.loadCr3 cr3).tssEsp0 = kernel.tssEsp0 := rfl
@[simp] theorem loadCr3_newterminalFlag :
    (kernel.loadCr3 cr3).newterminalFlag = kernel.newterminalFlag := rfl

end Kernel

/-- Memory that is zero throughout. -/
def zeroedMemory : Kernel where
  openTasks _ := 0
  currStatus := 0
  firstShellEntryPoint := 0
  newterminalFlag := 0
  terminals _ := ⟨0, 0, fun _ => 0, 0, 0, 0, .null, 0, 0, 0⟩
  oldTerminal := 0
  tasks _ := none
  currentTaskIdx := 0
  pcb _ := ⟨fun _ => ⟨fun _ => 0, 0, 0, 0, .null⟩, 0, 0, 0, .null, 0, fun _ => 0⟩
  cr3 := .null
  tssEsp0 := 0
  esp_0 := 0
  ebp_0 := 0
  screenX := 0
  screenY := 0
  videoPage _ := .screen
  tlbVideo := .screen
  video _ _ := 0
  userPage _ _ := 0
  currentDirIndex := 0
  rtcInterruptFlag := 0
  rtcRegA := 0
  rtcRegB := 0

end Ece391
