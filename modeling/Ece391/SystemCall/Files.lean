import Ece391.Kernel

namespace Ece391

/-! # open, read and close (systemcall.c) and the drivers behind them -/

/-- The `uint32_t` that an `int32_t` argument converts to. -/
def uint32 (value : Int) : Nat := (value % 4294967296).toNat

/-- The divider loop of `rtc_write`: `mask` doubles and `divd` counts down
until `mask` is the frequency or has been shifted out. -/
def rtcDivider (freq : Nat) : (remaining mask divd : Nat) → Nat × Nat
  | 0, mask, divd => (mask, divd)
  | remaining + 1, mask, divd =>
      if mask = 0 then (mask, divd)
      else
        let divd := wrap (divd + 4294967295)
        if mask = freq then (mask, divd)
        else rtcDivider freq remaining (wrap (2 * mask)) divd

namespace Kernel

variable (image : Image)

def rtcWrite (kernel : Kernel) (freq : Int) : Int × Kernel :=
  if freq > 1024 ∨ freq ≤ 0 then (-1, kernel)
  else
    let (mask, divd) := rtcDivider (uint32 freq) 33 1 16
    if mask ≠ uint32 freq then (-1, kernel)
    else
      (0, { kernel with
        rtcRegA := (kernel.rtcRegA &&& 0xF0) ||| UInt8.ofNat (wrap (divd + 4294967295))
        rtcRegB := kernel.rtcRegB ||| 0x40 })

/-- The wait for the tick is left only by an interrupt. -/
def rtcRead (kernel : Kernel) : Outcome (Int × Kernel) :=
  if kernel.rtcInterruptFlag = 0 then .spins
  else .done (0, { kernel with rtcInterruptFlag := 0 })

/-- `syscall_open` of the driver a directory entry selects. -/
def driverOpen (kernel : Kernel) (filename : CString) : SysOps → Outcome (Int × Kernel)
  | .rtcOps => .done (kernel.rtcWrite 2)
  | .terminalOps => .done (0, kernel)
  | .directoryOps => .done (0, kernel)
  | .fileOps => do return (← openFile image filename, kernel)
  | .null | .stray _ => .pageFault

/-- The lowest descriptor from 2 on whose `flags` are 0. -/
def freeDescriptor (pcb : Pcb) : Option Nat :=
  (List.range' 2 (NUM_FILE_DESCRIPTOR - 2)).find? fun i => (pcb.fd i).flags = 0

/-- What `open` stores in the descriptor it took, by the type of the entry;
the last case is the one that returns -1 with the descriptor taken. -/
def describe (filename : CString) (dentry : Dentry) (descriptor : FileDescriptor) :
    FileDescriptor :=
  let taken := { descriptor with flags := 1, filePosition := 0 }
  if dentry.fileType = 0 then { taken with sysopsPtr := .rtcOps, inodePtr := 0 }
  else if dentry.fileType = 1 then { taken with sysopsPtr := .directoryOps }
  else if dentry.fileType = 2 then
    { taken with
      sysopsPtr := .fileOps
      inodePtr := getInodeptr dentry.inodeNum
      fileName := strcpy descriptor.fileName filename }
  else taken

def sysOpen (kernel : Kernel) (filename : CString) : Outcome (Int × Kernel) :=
  if filename.char 0 = 0 then .done (-1, kernel)
  else do
    let curProgramid ← findProgramid kernel.cr3
    match ← readDentryByName image filename with
    | none => return (-1, kernel)
    | some tempDentry =>
        let currPCB := kernel.pcb curProgramid
        match freeDescriptor currPCB with
        | none => return (-1, kernel)
        | some fdUsed =>
            let descriptor := describe filename tempDentry (currPCB.fd fdUsed)
            let kernel := kernel.setPcb curProgramid (currPCB.setFd fdUsed descriptor)
            if tempDentry.fileType > 2 then return (-1, kernel)
            else
              let (value, kernel) ← kernel.driverOpen image filename descriptor.sysopsPtr
              return (if value = 0 then (fdUsed : Int) else -1, kernel)

section Open

variable {kernel : Kernel} {pcb : Pcb} {filename : CString} {dentry : Dentry} {cur fd : Nat}

theorem freeDescriptor_eq_some : freeDescriptor pcb = some fd ↔
    2 ≤ fd ∧ fd ≤ 7 ∧ (pcb.fd fd).flags = 0 ∧ ∀ i, 2 ≤ i → i < fd → (pcb.fd i).flags ≠ 0 := by
  simp only [freeDescriptor]
  rw [List.find?_range'_eq_some]
  simp only [List.mem_range'_1, NUM_FILE_DESCRIPTOR, decide_eq_true_eq, Bool.not_eq_true',
    decide_eq_false_iff_not]
  constructor
  · rintro ⟨free, range, first⟩
    exact ⟨range.1, by omega, free, first⟩
  · rintro ⟨low, high, free, first⟩
    exact ⟨free, by omega, first⟩

theorem freeDescriptor_eq_none : freeDescriptor pcb = none ↔
    ∀ i, 2 ≤ i → i ≤ 7 → (pcb.fd i).flags ≠ 0 := by
  simp only [freeDescriptor]
  simp only [List.find?_eq_none, List.mem_range'_1, NUM_FILE_DESCRIPTOR, decide_eq_true_eq]
  constructor
  · exact fun used i low high => used i (by omega)
  · exact fun used i range => used i range.1 (by omega)

/-- A name that `open` can open: it is not empty, and the entry it resolves to
has one of the three types. -/
structure Openable (image : Image) (filename : CString) (dentry : Dentry) : Prop where
  nonempty : filename.char 0 ≠ 0
  found : readDentryByName image filename = .done (some dentry)
  fileType : dentry.fileType ≤ 2

theorem rtcWrite_two (kernel : Kernel) : (kernel.rtcWrite 2).1 = 0 := rfl

theorem driverOpen_describe {image : Image} (openable : Openable image filename dentry)
    (kernel : Kernel) (descriptor : FileDescriptor) :
    kernel.driverOpen image filename (describe filename dentry descriptor).sysopsPtr =
      .done (0, if dentry.fileType = 0 then (kernel.rtcWrite 2).2 else kernel) := by
  have known := openable.fileType
  simp only [describe]
  by_cases rtc : dentry.fileType = 0
  · simp only [rtc, if_true, driverOpen, ← rtcWrite_two kernel]
  by_cases directory : dentry.fileType = 1
  · simp only [directory, if_true, driverOpen]
    rfl
  have file : dentry.fileType = 2 := by omega
  simp only [file, driverOpen, openFile, openable.found, Outcome.done_bind, Outcome.pure_eq]
  rfl

/-- `open` takes the lowest free descriptor of the current process. -/
theorem sysOpen_openable {image : Image} (openable : Openable image filename dentry)
    (current : findProgramid kernel.cr3 = .done cur)
    (free : freeDescriptor (kernel.pcb cur) = some fd) :
    kernel.sysOpen image filename =
      let taken := kernel.setPcb cur
        ((kernel.pcb cur).setFd fd (describe filename dentry ((kernel.pcb cur).fd fd)))
      .done (fd, if dentry.fileType = 0 then (taken.rtcWrite 2).2 else taken) := by
  have known := openable.fileType
  simp only [sysOpen, if_neg openable.nonempty, current, openable.found, free, Outcome.done_bind,
    Outcome.pure_eq]
  rw [if_neg (by omega), driverOpen_describe openable]
  simp only [Outcome.done_bind, if_true]

theorem sysOpen_full {image : Image} (openable : Openable image filename dentry)
    (current : findProgramid kernel.cr3 = .done cur)
    (full : freeDescriptor (kernel.pcb cur) = none) :
    kernel.sysOpen image filename = .done (-1, kernel) := by
  simp only [sysOpen, if_neg openable.nonempty, current, openable.found, full, Outcome.done_bind,
    Outcome.pure_eq]

theorem describe_flags (filename : CString) (dentry : Dentry) (descriptor : FileDescriptor) :
    (describe filename dentry descriptor).flags = 1 := by
  simp only [describe]
  split
  · rfl
  split
  · rfl
  split <;> rfl

@[simp] theorem rtcWrite_pcb (freq : Int) : (kernel.rtcWrite freq).2.pcb = kernel.pcb := by
  unfold rtcWrite
  split
  · rfl
  · dsimp only; split <;> rfl

@[simp] theorem rtcWrite_cr3 (freq : Int) : (kernel.rtcWrite freq).2.cr3 = kernel.cr3 := by
  unfold rtcWrite
  split
  · rfl
  · dsimp only; split <;> rfl

end Open

/-- What `close` leaves of an open descriptor. -/
def closed (descriptor : FileDescriptor) : FileDescriptor :=
  { descriptor with flags := 0, sysopsPtr := .null, filePosition := 0 }

def sysClose (kernel : Kernel) (fd : Int) : Outcome (Int × Kernel) :=
  if fd < 2 ∨ fd > 7 then .done (-1, kernel)
  else do
    let curProgramid ← findProgramid kernel.cr3
    let curPcb := kernel.pcb curProgramid
    let descriptor := curPcb.fd fd.toNat
    if descriptor.flags = 0 then return (-1, kernel)
    else
      return (0, kernel.setPcb curProgramid (curPcb.setFd fd.toNat (closed descriptor)))

def readFile (kernel : Kernel) (curProgramid fd : Nat) (buf : Option (Nat → Byte)) (bytes : Int) :
    Outcome (Int × Option (Nat → Byte) × Kernel) :=
  let currPCB := kernel.pcb curProgramid
  let descriptor := currPCB.fd fd
  match stringAt descriptor.fileName CHAR_LENGTH 0 with
  | none => .outOfBounds
  | some filename => do
      match ← readDentryByName image filename with
      | none => return (-1, buf, kernel)
      | some tempDentry =>
          let offset := descriptor.filePosition
          let (byteRead, after) := readData image tempDentry.inodeNum offset buf (uint32 bytes)
          if byteRead = -1 then return (-1, after, kernel)
          else
            let position :=
              if byteRead = 0 then image.inodeLength tempDentry.inodeNum
              else uint32 (byteRead + offset)
            return (byteRead, after, kernel.setPcb curProgramid
              (currPCB.setFd fd { descriptor with filePosition := position }))

def readDirectory (kernel : Kernel) (buf : Option (Nat → Byte)) :
    Outcome (Int × Option (Nat → Byte) × Kernel) :=
  if (kernel.currentDirIndex : Int) + 1 > int32 image.numDirectory then
    .done (0, buf, { kernel with currentDirIndex := 0 })
  else
    match buf, stringAt image.byte 4294967296 (64 + 64 * kernel.currentDirIndex) with
    | some bytes, some name =>
        .done (name.strlen, some (strcpy bytes name),
          { kernel with currentDirIndex := kernel.currentDirIndex + 1 })
    | none, _ => .pageFault
    | _, none => .outOfBounds

/-- The result of `read` is the value returned, the buffer and the kernel.  The
terminal driver waits for a newline that only the keyboard interrupt brings. -/
def sysRead (kernel : Kernel) (fd : Int) (buf : Option (Nat → Byte)) (nbytes : Int) :
    Outcome (Int × Option (Nat → Byte) × Kernel) := do
  let curProgramid ← findProgramid kernel.cr3
  let descriptor := (kernel.pcb curProgramid).fd fd.toNat
  if fd < 0 ∨ fd > 7 ∨ fd = 1 ∨ descriptor.flags = 0 then return (-1, buf, kernel)
  else
    match descriptor.sysopsPtr with
    | .fileOps => kernel.readFile image curProgramid fd.toNat buf nbytes
    | .directoryOps => kernel.readDirectory image buf
    | .rtcOps => do
        let (value, kernel) ← kernel.rtcRead
        return (value, buf, kernel)
    | .terminalOps => .spins
    | .null => .pageFault
    | .stray _ => .outOfBounds

end Kernel

end Ece391
