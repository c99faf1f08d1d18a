import Mathlib.Data.List.TakeWhile
import Ece391.Scheduler

namespace Ece391

/-! # execute (systemcall.c)

`execute` is cut where the source has its banners: parsing, the check of the
executable, the search for a slot, scheduling, the control blocks, the loader
and the task state segment.
-/

/-- Where control goes when a piece of kernel code is left. -/
inductive Control where
  /-- Back to the C caller. -/
  | returns (value : Int)
  /-- To user mode, at the start of a program with a fresh user stack. -/
  | iret (eip : Word)
  /-- To `halt_ret_label` of the `execute` call that owns this stack frame. -/
  | haltRetLabel (esp ebp : Word)
  /-- To the interrupt frame at `esp`, through `int_ret_helper`. -/
  | intRetHelper (ebp esp : Word)
deriving DecidableEq, Repr

/-- What a call of `execute` finds in its own stack frame: the two stack
registers it will save, and the bytes `buf[BUF_SIZE]` happens to hold. -/
structure CallFrame where
  esp : Word
  ebp : Word
  buf : Nat → Byte

def skipSpaces : List Byte → List Byte
  | [] => []
  | byte :: rest => if byte = 32 then skipSpaces rest else byte :: rest

theorem skipSpaces_subset (bytes : List Byte) : ∀ byte ∈ skipSpaces bytes, byte ∈ bytes := by
  induction bytes with
  | nil => simp [skipSpaces]
  | cons first rest ih =>
      intro byte member
      simp only [skipSpaces] at member
      split at member
      · exact List.mem_cons_of_mem _ (ih byte member)
      · exact member

/-- The string that a character array holds after `stored` and a NUL. -/
def CString.ofStored (stored : List Byte) : CString where
  bytes := stored.takeWhile (· ≠ 0)
  nonzero byte member := by simpa using List.mem_takeWhile_imp member

theorem CString.ofStored_bytes (string : CString) : .ofStored string.bytes = string := by
  apply ext_bytes
  exact List.takeWhile_eq_self_iff.mpr fun byte member => by simpa using string.nonzero byte member

/-- One token loop: copy up to a newline, a space or the end into an array of
`size` bytes.  `none` is the branch taken when more than `limit` were stored. -/
def copyWord (size limit : Nat) : List Byte → List Byte → Outcome (Option (List Byte × List Byte))
  | [], stored => if stored.length < size then .done (some (stored, [])) else .outOfBounds
  | byte :: rest, stored =>
      if byte = 10 ∨ byte = 32 then
        if stored.length < size then .done (some (stored, byte :: rest)) else .outOfBounds
      else if stored.length < size then
        if stored.length + 1 > limit then .done none
        else copyWord size limit rest (stored ++ [byte])
      else .outOfBounds

/-- The name and the argument of a command.  A name that is too long makes
`execute` return -1, an argument that is too long makes it spin. -/
def parseCommand (command : CString) : Outcome (Option (CString × CString)) := do
  match ← copyWord 32 32 (skipSpaces command.bytes) [] with
  | none => return none
  | some (fileName, rest) =>
      match ← copyWord 128 128 (skipSpaces rest) [] with
      | none => .spins
      | some (savedArgument, _) =>
          return some (.ofStored fileName, .ofStored savedArgument)

/-- The bytes a token loop goes over. -/
def inWord (byte : Byte) : Bool := byte ≠ 10 ∧ byte ≠ 32

def commandName (command : CString) : CString where
  bytes := (skipSpaces command.bytes).takeWhile inWord
  nonzero byte member := command.nonzero byte
    (skipSpaces_subset _ byte ((List.takeWhile_sublist _).mem member))

def commandArgument (command : CString) : CString where
  bytes := (skipSpaces ((skipSpaces command.bytes).dropWhile inWord)).takeWhile inWord
  nonzero byte member := command.nonzero byte (skipSpaces_subset _ byte
    ((List.dropWhile_sublist _).mem
      (skipSpaces_subset _ byte ((List.takeWhile_sublist _).mem member))))

theorem copyWord_eq {size : Nat} {bytes stored : List Byte}
    (room : stored.length + (bytes.takeWhile inWord).length < size) :
    copyWord size size bytes stored =
      .done (some (stored ++ bytes.takeWhile inWord, bytes.dropWhile inWord)) := by
  induction bytes generalizing stored with
  | nil =>
      simp only [List.takeWhile_nil, List.length_nil, Nat.add_zero] at room
      simp only [copyWord, if_pos room, List.takeWhile_nil, List.append_nil, List.dropWhile_nil]
  | cons byte rest ih =>
      by_cases stops : byte = 10 ∨ byte = 32
      · have outside : inWord byte = false := by
          simp only [inWord, decide_eq_false_iff_not]
          exact fun both => stops.elim both.1 both.2
        simp only [List.takeWhile_cons, outside, Bool.false_eq_true, if_false, List.length_nil,
          Nat.add_zero] at room
        simp only [copyWord, if_pos stops, if_pos room, List.takeWhile_cons, List.dropWhile_cons,
          outside, Bool.false_eq_true, if_false, List.append_nil]
      · have inside : inWord byte = true := by
          simp only [inWord, decide_eq_true_eq]
          exact not_or.mp stops
        simp only [List.takeWhile_cons, inside, if_true, List.length_cons] at room
        have fits : stored.length < size := by omega
        have short : ¬ stored.length + 1 > size := by omega
        simp only [copyWord, if_neg stops, if_pos fits, if_neg short]
        rw [ih (by simp only [List.length_append, List.length_singleton]; omega)]
        simp only [List.takeWhile_cons, List.dropWhile_cons, inside, if_true, List.append_assoc,
          List.singleton_append]

/-- A name and an argument that fit their arrays are found as they stand. -/
theorem parseCommand_short {command : CString} (name : (commandName command).strlen < 32)
    (argument : (commandArgument command).strlen < 128) :
    parseCommand command = .done (some (commandName command, commandArgument command)) := by
  have first : copyWord 32 32 (skipSpaces command.bytes) [] =
      .done (some ([] ++ (commandName command).bytes, (skipSpaces command.bytes).dropWhile inWord)) :=
    copyWord_eq (by rw [List.length_nil, Nat.zero_add]; exact name)
  have second : copyWord 128 128 (skipSpaces ((skipSpaces command.bytes).dropWhile inWord)) [] =
      .done (some ([] ++ (commandArgument command).bytes, _)) :=
    copyWord_eq (by rw [List.length_nil, Nat.zero_add]; exact argument)
  simp only [List.nil_append] at first second
  simp only [parseCommand, first, second, Outcome.done_bind, Outcome.pure_eq,
    CString.ofStored_bytes]

def ElfMagic (buf : Nat → Byte) : Prop :=
  buf 0 = 0x7f ∧ buf 1 = 0x45 ∧ buf 2 = 0x4c ∧ buf 3 = 0x46

instance (buf : Nat → Byte) : Decidable (ElfMagic buf) := by
  unfold ElfMagic; infer_instance

def entryPoint (buf : Nat → Byte) : Word :=
  BitVec.ofNat 32 ((buf 27).toNat * 16777216 + (buf 26).toNat * 65536 +
    (buf 25).toNat * 256 + (buf 24).toNat)

/-- The entry point, or `none` where `execute` returns -1.  The result of the
header read is ignored. -/
def checkExecutable (image : Image) (fileName : CString) (buf : Nat → Byte) :
    Outcome (Option Word) := do
  if (← openFile image fileName) = -1 then return none
  else
    let (_, buf) ← readFileSysHelper image fileName buf BUF_SIZE
    if ElfMagic buf then return some (entryPoint buf) else return none

/-- The buffer behind the header read: bytes of the file as far as it was read,
and what the buffer held before from there on. -/
def headerBuf (image : Image) (inode : Nat) (buf : Nat → Byte) (j : Nat) : Byte :=
  if inode < image.numInode ∧ j < min BUF_SIZE (image.inodeLength inode) then fileByte image inode j
  else buf j

theorem readFileSysHelper_eq {image : Image} {filename : CString} {dentry : Dentry}
    (found : readDentryByName image filename = .done (some dentry)) (buf : Nat → Byte) :
    ∃ value, readFileSysHelper image filename buf BUF_SIZE =
      .done (value, headerBuf image dentry.inodeNum buf) := by
  have read : (readData image dentry.inodeNum 0 (some buf) BUF_SIZE).2.getD buf =
      headerBuf image dentry.inodeNum buf := by
    by_cases empty : image.inodeLength dentry.inodeNum = 0
    · have atEnd : readData image dentry.inodeNum (image.inodeLength dentry.inodeNum) (some buf)
          BUF_SIZE = (0, some buf) := readData_atEnd
      rw [empty] at atEnd
      funext j
      simp [atEnd, headerBuf, empty]
    by_cases valid : dentry.inodeNum < image.numInode
    · rw [readData_inside valid (by omega) (by decide)]
      funext j
      simp only [Option.getD_some, headerBuf, valid, true_and, Nat.sub_zero, Nat.zero_add]
    · have refused : readData image dentry.inodeNum 0 (some buf) BUF_SIZE = (-1, some buf) := by
        simp only [readData]
        rw [if_neg (by omega), if_pos (.inl (by omega))]
      funext j
      simp only [refused, Option.getD_some, headerBuf, valid, false_and, if_false]
  simp only [readFileSysHelper, found, Outcome.done_bind, Outcome.pure_eq]
  rw [read]
  split
  · exact ⟨_, rfl⟩
  · split <;> exact ⟨_, rfl⟩

theorem checkExecutable_absent {image : Image} {fileName : CString}
    (absent : readDentryByName image fileName = .done none) (buf : Nat → Byte) :
    checkExecutable image fileName buf = .done none := by
  simp [checkExecutable, openFile, absent]

/-- A name that is found is accepted on the first four bytes of the buffer. -/
theorem checkExecutable_found {image : Image} {fileName : CString} {dentry : Dentry}
    (found : readDentryByName image fileName = .done (some dentry)) (buf : Nat → Byte) :
    checkExecutable image fileName buf =
      .done (if ElfMagic (headerBuf image dentry.inodeNum buf)
        then some (entryPoint (headerBuf image dentry.inodeNum buf)) else none) := by
  obtain ⟨value, read⟩ := readFileSysHelper_eq found buf
  simp only [checkExecutable, openFile, found, read, Outcome.done_bind, Outcome.pure_eq]
  rw [if_neg (by decide)]
  split <;> rfl

/-- A program that execute accepts and the loader can load. -/
structure ValidProgram (image : Image) (name : CString) (dentry : Dentry) : Prop where
  found : readDentryByName image name = .done (some dentry)
  inode : dentry.inodeNum < image.numInode
  header : 28 ≤ image.inodeLength dentry.inodeNum
  fits : image.inodeLength dentry.inodeNum ≤ USER_END - PROGRAM_MEM
  magic : ElfMagic (fileByte image dentry.inodeNum)

theorem ValidProgram.checkExecutable {image : Image} {name : CString} {dentry : Dentry}
    (valid : ValidProgram image name dentry) (buf : Nat → Byte) :
    ∃ entry, Ece391.checkExecutable image name buf = .done (some entry) := by
  have read : ∀ j, j < 4 → headerBuf image dentry.inodeNum buf j =
      fileByte image dentry.inodeNum j := by
    intro j below
    have header := valid.header
    exact if_pos ⟨valid.inode, by unfold BUF_SIZE; omega⟩
  have magic : ElfMagic (headerBuf image dentry.inodeNum buf) := by
    simp only [ElfMagic]
    rw [read 0 (by decide), read 1 (by decide), read 2 (by decide), read 3 (by decide)]
    exact valid.magic
  exact ⟨_, by rw [checkExecutable_found valid.found, if_pos magic]⟩

/-- The search loop from `openTasks[i]` on: the indices it reads and the slot
it stops at.  Without one the code spins at `i == 7`. -/
def searchSlot (openTasks : Nat → Int) : (remaining i : Nat) → List Nat × Option Nat
  | 0, _ => ([], none)
  | remaining + 1, i =>
      if openTasks i = -1 then ([i], some i)
      else
        let (reads, slot) := searchSlot openTasks remaining (i + 1)
        (i :: reads, slot)

/-- `for (i = 1; i < 8; i++)` -/
def findSlot (openTasks : Nat → Int) : List Nat × Option Nat := searchSlot openTasks 7 1

namespace Kernel

/-- Fill the slot, as a root when a new terminal is being started. -/
def claimSlot (kernel : Kernel) (curProgramid slot : Nat) : Kernel :=
  { kernel with
    openTasks := Function.update kernel.openTasks slot
      (if kernel.newterminalFlag = 1 then 0 else curProgramid)
    newterminalFlag := if kernel.newterminalFlag = 1 then 0 else kernel.newterminalFlag }

/-- The scheduling banner of `execute`: `find_terminal` is asked for the new
program before any terminal shows it. -/
def scheduleLaunch (kernel : Kernel) (curProgramid slot : Nat) : Kernel :=
  { kernel with
    tasks :=
      let terminalNumber := kernel.findTerminal curProgramid
      if terminalNumber = -1 then kernel.tasks
      else
        let tasks :=
          if kernel.openTasks slot ≠ 0 then removeTaskFromQueue kernel.tasks terminalNumber
          else kernel.tasks
        addTaskToQueue tasks kernel.currentTaskIdx (kernel.findTerminal slot) }

/-- Standard input or output of a new process. -/
def terminalDescriptor (descriptor : FileDescriptor) : FileDescriptor :=
  { descriptor with flags := 1, sysopsPtr := .terminalOps }

/-- Descriptors 0 and 1 are opened, the loop `for (i = 2; i < 7; i++)` clears
the flags of five more. -/
def initialFd (fd : Nat → FileDescriptor) (i : Nat) : FileDescriptor :=
  if i < 2 then terminalDescriptor (fd i)
  else if i < 7 then { fd i with flags := 0 }
  else fd i

def initialPcb (pcb : Pcb) (savedArgument : CString) : Pcb :=
  { pcb with fd := initialFd pcb.fd, argument := strcpy pcb.argument savedArgument }

def setUpPcb (kernel : Kernel) (slot : Nat) (savedArgument : CString) : Kernel :=
  { kernel with
    terminals := Function.update kernel.terminals kernel.oldTerminal
      { kernel.terminals kernel.oldTerminal with programId := slot }
    pcb := Function.update kernel.pcb slot (initialPcb (kernel.pcb slot) savedArgument) }

/-- Save CR3, ESP and EBP in the caller's control block; the kernel's own first
call has none. -/
def saveCaller (kernel : Kernel) (curProgramid : Nat) (frame : CallFrame) : Kernel :=
  { kernel with
    pcb :=
      if curProgramid = 0 then kernel.pcb
      else Function.update kernel.pcb curProgramid
        { kernel.pcb curProgramid with cr3 := kernel.cr3, esp := frame.esp, ebp := frame.ebp } }

/-- Where `PROGRAM_MEM` lies in the user page. -/
def programOffset : Nat := PROGRAM_MEM - USER_START

/-- The bytes from `PROGRAM_MEM` to the end of the user page. -/
def programRoom : Nat := USER_END - PROGRAM_MEM

def pageLoader (image : Image) (file : CString) (programId : Nat) (kernel : Kernel) :
    Outcome Kernel := do
  match ← readDentryByName image file with
  | none => .spins
  | some fileDentry =>
      let inodeNum := fileDentry.inodeNum
      let numBytes := image.inodeLength inodeNum
      let kernel ← kernel.setProgrampage programId
      let page := kernel.userPage programId
      let (value, after) := readData image inodeNum 0
        (some fun k => page (programOffset + k)) numBytes
      if value = -1 then .spins
      -- a longer file runs into the page behind the user page, which is absent
      else if programRoom < numBytes then .pageFault
      else
        return { kernel with
          userPage := Function.update kernel.userPage programId fun offset =>
            if programOffset ≤ offset then (after.getD fun _ => 0) (offset - programOffset)
            else page offset }

/-- The new control block's CR3 and links, and the kernel stack in the TSS. -/
def enterProgram (kernel : Kernel) (curProgramid slot : Nat) : Kernel :=
  { kernel with
    pcb := Function.update kernel.pcb slot
      { kernel.pcb slot with
        cr3 := kernel.cr3, prevPcb := curProgramid, parentPid := curProgramid }
    tssEsp0 := stackTop slot }

/-- `execute` from the first use of the process table on. -/
def launch (image : Image) (fileName savedArgument : CString) (entryPoint : Word)
    (frame : CallFrame) (kernel : Kernel) : Outcome (Control × Kernel) := do
  let curProgramid ← findProgramid kernel.cr3
  let kernel :=
    if curProgramid = 0 then { kernel with firstShellEntryPoint := entryPoint } else kernel
  match (findSlot kernel.openTasks).2 with
  | none => .spins
  | some slot =>
      let kernel := kernel.claimSlot curProgramid slot
      let kernel := kernel.scheduleLaunch curProgramid slot
      let kernel := kernel.setUpPcb slot savedArgument
      let kernel := kernel.saveCaller curProgramid frame
      let kernel ← kernel.pageLoader image fileName slot
      return (.iret entryPoint, kernel.enterProgram curProgramid slot)

/-- `command` is `none` for NULL. -/
def execute (image : Image) (command : Option CString) (frame : CallFrame) (kernel : Kernel) :
    Outcome (Control × Kernel) :=
  match command with
  | none => .spins
  | some command => do
      match ← parseCommand command with
      | none => return (.returns (-1), kernel)
      | some (fileName, savedArgument) =>
          match ← checkExecutable image fileName frame.buf with
          | none => return (.returns (-1), kernel)
          | some entryPoint => kernel.launch image fileName savedArgument entryPoint frame

end Kernel

end Ece391
