import Ece391.FileSystem.Slice
import Ece391.Library.Stores
import Ece391.Process.Parsing
import Ece391.SystemCall.Paging

namespace Ece391

open Library Kernel

/-! # page_loader and the page directory it stores through

`read_data` is given a pointer into the user page of the new process, so every
store of its loop goes through the directory that `set_programpage` loaded.  The
image is read from the page of the kernel, which is no task's frame.
-/

/-- The copy loop of `read_data` with `buf` a virtual address. -/
def storeLoop (image : Image) (inode : Nat) (place : Nat → Option Nat) (buf : Nat) :
    (remaining i : Nat) → CopyState → (Nat → Byte) → Stores Byte
  | 0, _, _, memory => .none memory
  | remaining + 1, i, state, memory =>
      match place (buf + i) with
      | none => ⟨memory, [buf + i], some (buf + i)⟩
      | some here =>
          let behind := storeLoop image inode place buf remaining (i + 1)
            (copyByte image inode i state) (Function.update memory here (image.byte state.dataPtr))
          { behind with addresses := (buf + i) :: behind.addresses }

/-- `read_data` into the memory behind a pointer: the value, which a call that
faults does not return, and its stores. -/
def readDataAt (image : Image) (inode offset : Nat) (place : Nat → Option Nat)
    (buf length : Nat) (memory : Nat → Byte) : Option Int × Stores Byte :=
  let blockNUM := offset / FOUR_KILOBYTES
  let blockOffset := offset % FOUR_KILOBYTES
  let dataLength := image.inodeLength inode
  if offset = dataLength then (some 0, .none memory)
  else if inode ≥ image.numInode ∨ buf = 0 ∨ length = 0 then (some (-1), .none memory)
  else
    let left := wrap (dataLength + 4294967296 - offset)
    let length := if length ≥ left then left else length
    let dataPtr := wrap (image.blockPtr inode blockNUM + blockOffset)
    let dataEnd := wrap (dataPtr + FOUR_KILOBYTES - blockOffset - 1)
    let stores := storeLoop image inode place buf length 0
      { blockNUM, dataPtr, dataEnd, buf := fun _ => 0 } memory
    (if stores.fault = none then some (int32 length) else none, stores)

/-- `page_loader` on the memory of the machine. -/
def pageLoaderAt (image : Image) (tables : PageTables) (file : CString) (programId : Nat)
    (memory : Nat → Byte) : Outcome (Stores Byte) := do
  match ← readDentryByName image file with
  | none => .spins
  | some fileDentry =>
      let inodeNum := fileDentry.inodeNum
      let numBytes := image.inodeLength inodeNum
      match pageDirectoryOf programId with
      | none => .spins
      | some cr3 =>
          let (value, stores) := readDataAt image inodeNum 0 (translate tables cr3 false)
            PROGRAM_MEM numBytes memory
          if value = some (-1) then .spins else return stores

/-- What a process reads from an address in user mode. -/
def userByte (tables : PageTables) (programId : Nat) (memory : Nat → Byte) (address : Nat) :
    Option Byte := do
  let cr3 ← pageDirectoryOf programId
  let place ← translate tables cr3 true address
  return memory place

/-- The loader ends with the whole file in the page of the process, and has
stored to that page alone. -/
structure StaysInside (image : Image) (tables : PageTables) (inode programId : Nat)
    (memory : Nat → Byte) (stores : Stores Byte) : Prop where
  ends : stores.fault = none
  loaded : ∀ k < image.inodeLength inode,
    userByte tables programId stores.memory (PROGRAM_MEM + k) = (dataBytes image inode)[k]?
  below : ∀ address ∈ stores.addresses, address < USER_END
  others : ∀ cr3 frame, taskFrame cr3 = some frame → pageDirectoryOf programId ≠ some cr3 →
    ∀ offset < 0x400000, stores.memory (frame + offset) = memory (frame + offset)

/-- The bytes of a file from `position` on. -/
def fileSlice (image : Image) (inode position count : Nat) : List Byte :=
  (List.range count).map fun k => fileByte image inode (position + k)

variable {image : Image} {tables : PageTables} {inode programId buf i position remaining : Nat}
  {place : Nat → Option Nat} {memory : Nat → Byte} {state : CopyState} {cr3 : Cr3} {frame : Nat}

theorem fileSlice_length (image : Image) (inode position count : Nat) :
    (fileSlice image inode position count).length = count := by
  simp [fileSlice]

theorem fileSlice_succ (image : Image) (inode position count : Nat) :
    fileSlice image inode position (count + 1) =
      fileByte image inode position :: fileSlice image inode (position + 1) count := by
  simp only [fileSlice, List.range_succ_eq_map, List.map_cons, List.map_map, Nat.add_zero]
  congr 1
  apply List.map_congr_left
  intro k _
  simp only [Function.comp_apply, Nat.succ_eq_add_one]
  rw [Nat.add_assoc, Nat.add_comm 1 k]

theorem storeLoop_eq (points : PointsAt image inode position state) :
    storeLoop image inode place buf remaining i state memory =
      storeThrough place (buf + i) (fileSlice image inode position remaining) memory := by
  induction remaining generalizing i position state memory with
  | zero => rfl
  | succ remaining ih =>
      obtain ⟨next, _⟩ := copyByte_pointsAt (i := i) points
      have byte : image.byte state.dataPtr = fileByte image inode position := by
        rw [points.dataPtr]
        rfl
      rw [fileSlice_succ]
      simp only [storeLoop, storeThrough]
      cases mapped : place (buf + i) with
      | none => rfl
      | some here =>
          simp only [byte]
          rw [ih next, Nat.add_assoc]

/-- The stores of the loader for the process with the directory `cr3`. -/
def programStores (image : Image) (tables : PageTables) (cr3 : Cr3) (inode : Nat)
    (memory : Nat → Byte) : Stores Byte :=
  storeThrough (translate tables cr3 false) PROGRAM_MEM
    (fileSlice image inode 0 (image.inodeLength inode)) memory

theorem readDataAt_whole (valid : ValidInode image inode) (tables : PageTables) (cr3 : Cr3)
    (memory : Nat → Byte) :
    ∃ value, value ≠ some (-1) ∧
      readDataAt image inode 0 (translate tables cr3 false) PROGRAM_MEM
        (image.inodeLength inode) memory = (value, programStores image tables cr3 inode memory) := by
  by_cases empty : image.inodeLength inode = 0
  · refine ⟨some 0, by decide, ?_⟩
    simp only [readDataAt, programStores, empty, if_true]
    rfl
  have bounded := valid.length
  unfold NUM_DATA_BLOCK FOUR_KILOBYTES at bounded
  have left : wrap (image.inodeLength inode + 4294967296 - 0) = image.inodeLength inode :=
    bytesLeft_inside (Nat.zero_le _)
  have accepted : ¬ (inode ≥ image.numInode ∨ PROGRAM_MEM = 0 ∨ image.inodeLength inode = 0) := by
    have listed := valid.listed
    unfold PROGRAM_MEM
    omega
  have read : readDataAt image inode 0 (translate tables cr3 false) PROGRAM_MEM
      (image.inodeLength inode) memory =
      (if (programStores image tables cr3 inode memory).fault = none
        then some (int32 (image.inodeLength inode)) else none,
        programStores image tables cr3 inode memory) := by
    simp only [readDataAt, left, ge_iff_le, Nat.le_refl, if_true]
    rw [if_neg (Ne.symm empty), if_neg accepted, storeLoop_eq (PointsAt.start image inode 0 _)]
    rfl
  refine ⟨_, ?_, read⟩
  split
  · rw [int32_of_lt (by omega)]
    intro failed
    have value := Option.some.inj failed
    omega
  · simp

theorem pageLoaderAt_eq {file : CString} {dentry : Dentry}
    (found : readDentryByName image file = .done (some dentry))
    (valid : ValidInode image dentry.inodeNum) (directory : pageDirectoryOf programId = some cr3)
    (memory : Nat → Byte) :
    pageLoaderAt image tables file programId memory =
      .done (programStores image tables cr3 dentry.inodeNum memory) := by
  obtain ⟨value, returned, read⟩ := readDataAt_whole valid tables cr3 memory
  simp only [pageLoaderAt, found, Outcome.done_bind, directory, read, if_neg returned]
  rfl

theorem translate_program {user : Bool} {k : Nat} (mapped : taskFrame cr3 = some frame)
    (inside : k < programRoom) :
    translate tables cr3 user (PROGRAM_MEM + k) = some (frame + programOffset + k) := by
  have address : PROGRAM_MEM + k = USER_START + (programOffset + k) := by
    unfold PROGRAM_MEM programOffset USER_START PROGRAM_MEM
    omega
  have bound : programOffset + k < 0x400000 := by
    unfold programRoom USER_END PROGRAM_MEM at inside
    unfold programOffset USER_START PROGRAM_MEM
    omega
  rw [address, translate_userPage mapped bound, Nat.add_assoc]

theorem translate_beyond {user : Bool} {k : Nat} (beyond : programRoom ≤ k)
    (bound : k < NUM_DATA_BLOCK * FOUR_KILOBYTES) :
    translate tables cr3 user (PROGRAM_MEM + k) = none := by
  unfold programRoom at beyond
  unfold NUM_DATA_BLOCK FOUR_KILOBYTES at bound
  have order : PROGRAM_MEM ≤ USER_END := by decide
  apply translate_behind
  · omega
  · unfold PROGRAM_MEM USER_END at *
    omega

/-- A file that fits is stored to the end. -/
theorem programStores_fits (mapped : taskFrame cr3 = some frame)
    (fits : image.inodeLength inode ≤ programRoom) (tables : PageTables) (memory : Nat → Byte) :
    (programStores image tables cr3 inode memory).fault = none ∧
      ∀ k < image.inodeLength inode,
        (programStores image tables cr3 inode memory).memory (frame + programOffset + k) =
          fileByte image inode k := by
  have places : ∀ k < (fileSlice image inode 0 (image.inodeLength inode)).length,
      translate tables cr3 false (PROGRAM_MEM + k) = some (frame + programOffset + k) := by
    intro k inside
    rw [fileSlice_length] at inside
    exact translate_program mapped (by omega)
  constructor
  · apply storeThrough_fault_none
    intro k inside
    rw [places k inside]
    exact Option.some_ne_none _
  · intro k inside
    have stored : Stored (programStores image tables cr3 inode memory).memory
        (frame + programOffset) (fileSlice image inode 0 (image.inodeLength inode)) :=
      storeThrough_stored places
    have byte := (stored_iff 0).mp stored k (by rw [fileSlice_length]; exact inside)
    rw [byte, fileSlice]
    simp [inside]

/-- A longer file makes the loader store behind the page. -/
theorem programStores_longer (valid : ValidInode image inode) (mapped : taskFrame cr3 = some frame)
    (longer : programRoom < image.inodeLength inode) (memory : Nat → Byte) :
    (programStores image tables cr3 inode memory).fault = some USER_END := by
  have isEnd : USER_END = PROGRAM_MEM + programRoom := by decide
  rw [isEnd]
  apply storeThrough_fault
  · intro k inside
    rw [translate_program mapped inside]
    exact Option.some_ne_none _
  · exact translate_beyond (Nat.le_refl _) (Nat.lt_of_lt_of_le longer valid.length)
  · rw [fileSlice_length]
    exact longer

/-- The frames of the other tasks are left alone, whatever the length. -/
theorem programStores_others {other : Cr3} {otherFrame offset : Nat}
    (valid : ValidInode image inode) (mapped : taskFrame cr3 = some frame)
    (otherMapped : taskFrame other = some otherFrame) (different : other ≠ cr3)
    (inside : offset < 0x400000) :
    (programStores image tables cr3 inode memory).memory (otherFrame + offset) =
      memory (otherFrame + offset) := by
  apply storeThrough_elsewhere
  intro k below
  rw [fileSlice_length] at below
  by_cases within : k < programRoom
  · rw [translate_program mapped within]
    intro same
    have equal := Option.some.inj same
    have bound : programOffset + programRoom = 0x400000 := by decide
    have apart := taskFrame_apart mapped otherMapped different
    omega
  · rw [translate_beyond (Nat.le_of_not_lt within) (Nat.lt_of_lt_of_le below valid.length)]
    exact nofun

theorem userByte_program {k : Nat} (directory : pageDirectoryOf programId = some cr3)
    (mapped : taskFrame cr3 = some frame) (inside : k < programRoom) :
    userByte tables programId memory (PROGRAM_MEM + k) =
      some (memory (frame + programOffset + k)) := by
  simp only [userByte, directory, Option.bind_eq_bind, Option.bind_some,
    translate_program mapped inside]
  rfl

theorem programStores_staysInside (inMemory : InMemory image) (valid : ValidInode image inode)
    (directory : pageDirectoryOf programId = some cr3) (mapped : taskFrame cr3 = some frame)
    (fits : image.inodeLength inode ≤ programRoom) (memory : Nat → Byte) :
    StaysInside image tables inode programId memory
      (programStores image tables cr3 inode memory) := by
  obtain ⟨ends, stored⟩ := programStores_fits mapped fits tables memory
  refine ⟨ends, fun k inside => ?_, fun address member => ?_, ?_⟩
  · rw [userByte_program directory mapped (by omega), stored k inside]
    exact (valid.dataBytes_getElem? inMemory inside).symm
  · obtain ⟨_, high⟩ := storeThrough_addresses member
    have room : PROGRAM_MEM + programRoom = USER_END := by decide
    rw [fileSlice_length] at high
    omega
  · intro other otherFrame otherMapped different offset inside
    refine programStores_others valid mapped otherMapped ?_ inside
    rintro rfl
    exact different directory

/-- The program of a command as the check of `execute` takes it: the name is
found, its inode is one of the format, and the first bytes are accepted. -/
structure Executable (image : Image) (command : CString) (frame : CallFrame) (dentry : Dentry) :
    Prop where
  found : readDentryByName image (commandName command) = .done (some dentry)
  inode : ValidInode image dentry.inodeNum
  magic : ElfMagic (headerBuf image dentry.inodeNum frame.buf)

/-- `execute` does not return once it has accepted the program. -/
theorem Executable.not_returned {command : CString} {frame : CallFrame} {dentry : Dentry}
    (executable : Executable image command frame dentry) {kernel after : Kernel} {value : Int} :
    kernel.execute image (some command) frame ≠ .done (.returns value, after) := by
  intro done
  have name := (readDentryByName_eq_some.mp executable.found).1
  have accepted := checkExecutable_found executable.found frame.buf
  rw [if_pos executable.magic] at accepted
  by_cases argument : (commandArgument command).strlen < 128
  · simp only [execute, parseCommand_short name argument, Outcome.done_bind, accepted] at done
    cases (launch_eq_done done).1
  · have overruns : parseCommand command = .outOfBounds :=
      parseCommand_outOfBounds_iff.mpr fun inside =>
        argument (parsing_inside_iff.mp inside).argument
    simp only [execute, overruns, Outcome.outOfBounds_bind, reduceCtorEq] at done

/-- The user pages are the frames of the tasks in the memory of the machine. -/
def PagesIn (kernel : Kernel) (memory : Nat → Byte) : Prop :=
  ∀ programId : Nat, ∀ cr3 frame, pageDirectoryOf programId = some cr3 →
    taskFrame cr3 = some frame →
      ∀ offset < 0x400000, kernel.userPage programId offset = memory (frame + offset)

theorem programStores_around {offset : Nat} (mapped : taskFrame cr3 = some frame)
    (fits : image.inodeLength inode ≤ programRoom)
    (around : ∀ k < image.inodeLength inode, offset ≠ programOffset + k) :
    (programStores image tables cr3 inode memory).memory (frame + offset) =
      memory (frame + offset) := by
  apply storeThrough_elsewhere
  intro k below
  rw [fileSlice_length] at below
  rw [translate_program mapped (by omega)]
  intro same
  have equal := Option.some.inj same
  exact around k below (by omega)

theorem readData_program (valid : ValidInode image inode) (bytes : Nat → Byte) :
    ∃ value, value ≠ -1 ∧ readData image inode 0 (some bytes) (image.inodeLength inode) =
      (value, some fun k => if k < image.inodeLength inode then fileByte image inode k
        else bytes k) := by
  by_cases empty : image.inodeLength inode = 0
  · refine ⟨0, by decide, ?_⟩
    have atEnd : readData image inode (image.inodeLength inode) (some bytes)
        (image.inodeLength inode) = (0, some bytes) := readData_atEnd
    rw [empty] at atEnd
    simp only [empty, atEnd, Nat.not_lt_zero, if_false]
  · have bounded := valid.length
    unfold NUM_DATA_BLOCK FOUR_KILOBYTES at bounded
    refine ⟨_, ?_, readData_whole bytes valid.listed (Nat.pos_of_ne_zero empty)⟩
    rw [int32_of_lt (by omega)]
    omega

theorem pageLoader_faults {file : CString} {dentry : Dentry} (kernel : Kernel)
    (found : readDentryByName image file = .done (some dentry))
    (valid : ValidInode image dentry.inodeNum) (high : programId ≤ 6)
    (longer : programRoom < image.inodeLength dentry.inodeNum) :
    kernel.pageLoader image file programId = .pageFault := by
  obtain ⟨cr3, directory⟩ := pageDirectoryOf_exists high
  obtain ⟨value, returned, read⟩ := readData_program valid
    fun k => kernel.userPage programId (programOffset + k)
  simp only [pageLoader, found, Outcome.done_bind, setProgrampage, directory, loadCr3, read,
    if_neg returned, if_pos longer]

/-- The loader of the kernel's state is the loader of the machine's memory, seen
through the pages. -/
theorem pageLoader_simulates {kernel : Kernel} {file : CString} {dentry : Dentry}
    (found : readDentryByName image file = .done (some dentry))
    (valid : ValidInode image dentry.inodeNum) (low : 1 ≤ programId) (high : programId ≤ 6)
    (pages : PagesIn kernel memory) :
    ∃ stores, pageLoaderAt image tables file programId memory = .done stores ∧
      match kernel.pageLoader image file programId with
      | .done after => stores.fault = none ∧ PagesIn after stores.memory
      | .pageFault => stores.fault = some USER_END
      | _ => False := by
  obtain ⟨cr3, frame, directory, mapped⟩ := taskFrame_exists low high
  refine ⟨_, pageLoaderAt_eq found valid directory memory, ?_⟩
  by_cases longer : programRoom < image.inodeLength dentry.inodeNum
  · rw [pageLoader_faults kernel found valid high longer]
    exact programStores_longer valid mapped longer memory
  have fits := Nat.le_of_not_lt longer
  obtain ⟨ends, stored⟩ := programStores_fits mapped fits tables memory
  obtain ⟨value, returned, read⟩ := readData_program valid
    fun k => kernel.userPage programId (programOffset + k)
  simp only [pageLoader, found, Outcome.done_bind, setProgrampage, directory, loadCr3, read,
    if_neg returned, if_neg longer]
  refine ⟨ends, ?_⟩
  intro other otherCr3 otherFrame otherDirectory otherMapped offset inside
  by_cases same : other = programId
  · subst same
    obtain rfl := Option.some.inj (directory.symm.trans otherDirectory)
    obtain rfl := Option.some.inj (mapped.symm.trans otherMapped)
    have before := pages other cr3 _ directory mapped
    simp only [Function.update_self]
    by_cases behind : programOffset ≤ offset
    · obtain ⟨k, rfl⟩ := Nat.exists_eq_add_of_le behind
      rw [if_pos behind, Option.getD_some, Nat.add_sub_cancel_left]
      by_cases inFile : k < image.inodeLength dentry.inodeNum
      · rw [if_pos inFile, ← stored k inFile, Nat.add_assoc]
      · rw [if_neg inFile, programStores_around mapped fits (fun j below => by omega),
          before _ inside]
    · rw [if_neg behind, programStores_around mapped fits (fun k below => by omega),
        before offset inside]
  · have different : otherCr3 ≠ cr3 := by
      rintro rfl
      exact same (pageDirectoryOf_injective otherDirectory directory)
    simp only [Function.update_of_ne same]
    rw [programStores_others valid mapped otherMapped different inside]
    exact pages other otherCr3 otherFrame otherDirectory otherMapped offset inside

/-- The loader stays inside the page of the process, or the file cannot fit
there and `execute` rejects it. -/
def LoadedOrRejected (image : Image) (tables : PageTables) (command : CString) (dentry : Dentry)
    (frame : CallFrame) (programId : Nat) (memory : Nat → Byte) (kernel : Kernel) : Prop :=
  (∃ stores, pageLoaderAt image tables (commandName command) programId memory = .done stores ∧
    StaysInside image tables dentry.inodeNum programId memory stores) ∨
  programRoom < image.inodeLength dentry.inodeNum ∧
    ∃ after, kernel.execute image (some command) frame = .done (.returns (-1), after)

section Loading

variable {command : CString} {dentry : Dentry} {callFrame : CallFrame}

/-- What `execute` does instead, as soon as a slot of 1 to 6 is free. -/
theorem Executable.faults {kernel : Kernel} {cur slot : Nat} (short : ShortCommand command)
    (executable : Executable image command callFrame dentry)
    (current : findProgramid kernel.cr3 = .done cur)
    (free : (findSlot kernel.openTasks).2 = some slot) (bound : slot ≤ 6)
    (longer : programRoom < image.inodeLength dentry.inodeNum) :
    kernel.execute image (some command) callFrame = .pageFault := by
  have accepted := checkExecutable_found executable.found callFrame.buf
  rw [if_pos executable.magic] at accepted
  simp only [execute_short short, accepted, Outcome.done_bind, launch, current, Outcome.pure_eq]
  have same : ∀ entryPoint, (if cur = 0 then { kernel with firstShellEntryPoint := entryPoint }
      else kernel).openTasks = kernel.openTasks := by
    intro entryPoint
    split <;> rfl
  simp only [same, free, pageLoader_faults _ executable.found executable.inode bound longer,
    Outcome.pageFault_bind]

theorem not_loadedOrRejected (executable : Executable image command callFrame dentry)
    (low : 1 ≤ programId) (high : programId ≤ 6)
    (longer : programRoom < image.inodeLength dentry.inodeNum) (tables : PageTables)
    (memory : Nat → Byte) (kernel : Kernel) :
    ¬ LoadedOrRejected image tables command dentry callFrame programId memory kernel := by
  rintro (⟨stores, loading, inside⟩ | ⟨_, after, returned⟩)
  · obtain ⟨cr3, frame, directory, mapped⟩ := taskFrame_exists low high
    rw [pageLoaderAt_eq executable.found executable.inode directory] at loading
    have ends := inside.ends
    rw [← Outcome.done.inj loading, programStores_longer executable.inode mapped longer] at ends
    cases ends
  · exact executable.not_returned returned

/-- Nothing compares the length of a file with the room in the page. -/
theorem page_loader_inside_iff (inMemory : InMemory image)
    (executable : Executable image command callFrame dentry) (low : 1 ≤ programId)
    (high : programId ≤ 6) (tables : PageTables) (memory : Nat → Byte) (kernel : Kernel) :
    LoadedOrRejected image tables command dentry callFrame programId memory kernel ↔
      image.inodeLength dentry.inodeNum ≤ USER_END - PROGRAM_MEM := by
  constructor
  · intro holds
    by_contra longer
    exact not_loadedOrRejected executable low high (Nat.lt_of_not_le longer) tables memory kernel
      holds
  · intro fits
    obtain ⟨cr3, frame, directory, mapped⟩ := taskFrame_exists low high
    exact .inl ⟨_, pageLoaderAt_eq executable.found executable.inode directory memory,
      programStores_staysInside inMemory executable.inode directory mapped fits memory⟩

end Loading

theorem page_loader_inside_iff_shell :
    LoadedOrRejected shellImage ⟨fun _ => 0, fun _ _ => 0⟩ shellCommand (shellImage.dirEntry 0)
        zeroedFrame 6 (fun _ => 0) zeroedMemory ↔
      shellImage.inodeLength (shellImage.dirEntry 0).inodeNum ≤ USER_END - PROGRAM_MEM := by
  apply page_loader_inside_iff
  · decide
  · exact ⟨shellImage_valid.found, shellImage_validInode, by decide +kernel⟩
  · decide
  · decide

/-- The shell with one byte more than the page has room for; its inode lists the
one data block 952 times. -/
def longShellImage : Image where
  byte offset :=
    if offset = 4096 then 0x01
    else if offset = 4097 then 0x80
    else if offset = 4098 then 0x3B
    else shellImage.byte offset

theorem longShellImage_dataBlock {index : Nat} (inside : index < NUM_DATA_BLOCK) :
    longShellImage.dataBlock 0 index = 0 := by
  unfold NUM_DATA_BLOCK at inside
  have zero : ∀ offset, 4100 ≤ offset → offset < 8192 →
      longShellImage.byte (wrap offset) = 0 := by
    intro offset low high
    rw [wrap_of_lt (by omega)]
    simp only [longShellImage, shellImage]
    repeat rw [if_neg (by omega)]
  have start : getInodeptr 0 = 4096 := by decide
  simp only [Image.dataBlock, Image.word, start]
  rw [zero _ (by omega) (by omega), zero _ (by omega) (by omega), zero _ (by omega) (by omega),
    zero _ (by omega) (by omega)]
  rfl

theorem longShellImage_length : longShellImage.inodeLength 0 = programRoom + 1 := by
  decide +kernel

theorem longShellImage_validInode : ValidInode longShellImage 0 := by
  have whole := longShellImage_length
  have room : programRoom + 1 ≤ NUM_DATA_BLOCK * FOUR_KILOBYTES := by decide
  refine ⟨by decide +kernel, by omega, fun position inside => ?_⟩
  have block : position / FOUR_KILOBYTES < NUM_DATA_BLOCK := by
    unfold FOUR_KILOBYTES at room ⊢
    omega
  rw [longShellImage_dataBlock block]
  decide +kernel

theorem longShellImage_executable :
    Executable longShellImage shellCommand zeroedFrame (longShellImage.dirEntry 0) where
  found := readDentryByName_eq_some.mpr
    ⟨by decide, 0, ⟨by decide, by decide +kernel, nofun⟩, rfl⟩
  inode := longShellImage_validInode
  magic := by decide +kernel

/-- The first byte that does not fit is stored behind the page. -/
theorem long_shell_not_rejected :
    InMemory longShellImage ∧
      Executable longShellImage shellCommand zeroedFrame (longShellImage.dirEntry 0) ∧
      ¬ LoadedOrRejected longShellImage ⟨fun _ => 0, fun _ _ => 0⟩ shellCommand
        (longShellImage.dirEntry 0) zeroedFrame 1 (fun _ => 0) (boot zeroedMemory) ∧
      (boot zeroedMemory).execute longShellImage (some shellCommand) zeroedFrame = .pageFault := by
  have whole : longShellImage.inodeLength (longShellImage.dirEntry 0).inodeNum = programRoom + 1 :=
    longShellImage_length
  have longer : programRoom < longShellImage.inodeLength (longShellImage.dirEntry 0).inodeNum := by
    omega
  have free : (findSlot (boot zeroedMemory).openTasks).2 = some 1 :=
    findSlot_eq_some.mpr ⟨by decide, by decide, boot_openTasks zeroedMemory 1 (by decide),
      fun j low high => by omega⟩
  refine ⟨by decide +kernel, longShellImage_executable, ?_, ?_⟩
  · exact not_loadedOrRejected longShellImage_executable (by decide) (by decide) longer _ _ _
  · exact longShellImage_executable.faults shellCommand_short (by rw [boot_cr3]; rfl) free
      (by decide) longer

end Ece391
