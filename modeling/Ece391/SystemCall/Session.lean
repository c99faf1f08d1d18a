import Mathlib.Data.List.Find
import Ece391.Library.FileTable
import Ece391.FileSystem.Slice
import Ece391.SystemCall.Files

namespace Ece391

open Library Kernel

/-! # Descriptors as open files

A process that opens, reads and closes regular files: its descriptors 2 to 7
refine a `FileTable` whose cursors run over the contents of the files.
-/

def fileContents (image : Image) (inode : Nat) : List Byte :=
  (List.range (image.inodeLength inode)).map (fileByte image inode)

/-- The name of an entry of the directory that is a regular file. -/
structure RegularFile (image : Image) (name : CString) (dentry : Dentry) : Prop where
  short : name.strlen < CHAR_LENGTH
  nonempty : name.strlen ≠ 0
  listed : ∃ index < image.numDirectory, FirstMatch image name index ∧
    dentry = image.dirEntry index
  fileType : dentry.fileType = 2

/-- The regular files of the directory have inodes, lengths and blocks that exist. -/
structure WellFormed (image : Image) : Prop where
  inode : ∀ index < image.numDirectory, (image.dirEntry index).fileType = 2 →
    (image.dirEntry index).inodeNum < image.numInode
  length : ∀ index < image.numDirectory, (image.dirEntry index).fileType = 2 →
    image.inodeLength (image.dirEntry index).inodeNum ≤ NUM_DATA_BLOCK * FOUR_KILOBYTES
  blocks : ∀ index < image.numDirectory, (image.dirEntry index).fileType = 2 →
    ∀ position < image.inodeLength (image.dirEntry index).inodeNum,
      image.dataBlock (image.dirEntry index).inodeNum (position / FOUR_KILOBYTES) <
        image.numDataBlock

theorem RegularFile.openable {image : Image} {name : CString} {dentry : Dentry}
    (file : RegularFile image name dentry) : Openable image name dentry := by
  obtain ⟨index, _, firstMatch, same⟩ := file.listed
  have nonempty := file.nonempty
  refine ⟨fun zero => ?_, readDentryByName_eq_some.mpr ⟨file.short, index, firstMatch, same⟩, ?_⟩
  · have empty := CString.char_eq_zero_iff.mp zero
    omega
  · exact file.fileType.le

inductive FileCall where
  | sysOpen (name : CString)
  | sysRead (fd : Int) (buf : Nat → Byte) (nbytes : Int)
  | sysClose (fd : Int)

/-- Names of 1 to 31 bytes that are no special files, reads of at least one
byte of anything but the keyboard, and all calls of close. -/
def FileCall.Allowed (image : Image) : FileCall → Prop
  | .sysOpen name => name.strlen ≠ 0 ∧ name.strlen < CHAR_LENGTH ∧
      ∀ index, FirstMatch image name index →
        index < image.numDirectory ∧ (image.dirEntry index).fileType = 2
  | .sysRead fd _ nbytes => fd ≠ 0 ∧ 0 < nbytes ∧ nbytes < 2147483648
  | .sysClose _ => True

/-- The kernel, and what the process has seen: the name it last opened each
descriptor under and the bytes its reads have brought since. -/
structure Session where
  kernel : Kernel
  name : Nat → CString
  delivered : Nat → List Byte

namespace Session

def begin (kernel : Kernel) : Session := ⟨kernel, fun _ => .empty, fun _ => []⟩

def step (image : Image) (session : Session) : FileCall → Option Session
  | .sysOpen name =>
      (session.kernel.sysOpen image name).toOption.map fun (fd, kernel) =>
        if 0 ≤ fd then
          { kernel
            name := Function.update session.name fd.toNat name
            delivered := Function.update session.delivered fd.toNat [] }
        else { session with kernel }
  | .sysRead fd buf nbytes =>
      (session.kernel.sysRead image fd (some buf) nbytes).toOption.map fun (value, after, kernel) =>
        { session with
          kernel
          delivered := Function.update session.delivered fd.toNat
            (session.delivered fd.toNat ++ (List.range value.toNat).map (after.getD buf)) }
  | .sysClose fd =>
      (session.kernel.sysClose fd).toOption.map fun (_, kernel) => { session with kernel }

end Session

def sessionSystem (image : Image) : Transitions Session FileCall := ⟨Session.step image⟩

def fileSlots : List Nat := List.range' 2 (NUM_FILE_DESCRIPTOR - 2)

/-- A descriptor that is reading a regular file. -/
structure HandleMatches (image : Image) (descriptor : FileDescriptor) (name : CString)
    (delivered : List Byte) (cursor : Cursor Byte) : Prop where
  flags : descriptor.flags ≠ 0
  sysopsPtr : descriptor.sysopsPtr = .fileOps
  fileName : stringAt descriptor.fileName CHAR_LENGTH 0 = some name
  resolves : ∃ dentry, RegularFile image name dentry ∧
    cursor.contents = fileContents image dentry.inodeNum
  filePosition : descriptor.filePosition = cursor.position
  delivered : delivered = cursor.delivered

def SlotMatches (image : Image) (descriptor : FileDescriptor) (name : CString)
    (delivered : List Byte) : Option (Cursor Byte) → Prop
  | none => descriptor.flags = 0
  | some cursor => HandleMatches image descriptor name delivered cursor

structure Refines (image : Image) (cur : Nat) (session : Session) (table : FileTable Byte) :
    Prop where
  current : findProgramid session.kernel.cr3 = .done cur
  slots : ∀ fd, 2 ≤ fd → fd ≤ 7 → SlotMatches image ((session.kernel.pcb cur).fd fd)
    (session.name fd) (session.delivered fd) (table fd)

section Refinement

variable {image : Image} {session : Session} {table : FileTable Byte} {cur : Nat}

theorem Refines.free_iff (refines : Refines image cur session table) {fd : Nat} (low : 2 ≤ fd)
    (high : fd ≤ 7) : ((session.kernel.pcb cur).fd fd).flags = 0 ↔ table fd = none := by
  have slot := refines.slots fd low high
  cases handle : table fd with
  | none =>
      rw [handle] at slot
      exact ⟨fun _ => rfl, fun _ => slot⟩
  | some cursor =>
      rw [handle] at slot
      exact ⟨fun free => absurd free slot.flags, nofun⟩

theorem Refines.lowestFree (refines : Refines image cur session table) :
    freeDescriptor (session.kernel.pcb cur) = FileTable.lowestFree fileSlots table := by
  apply List.find?_congr
  intro fd member
  obtain ⟨low, high⟩ := List.mem_range'_1.mp member
  unfold NUM_FILE_DESCRIPTOR at high
  rw [Bool.eq_iff_iff, decide_eq_true_iff, refines.free_iff low (by omega),
    Option.isNone_iff_eq_none]

/-- Storing to one descriptor leaves the others refined. -/
theorem Refines.update (refines : Refines image cur session table) {fd : Nat}
    {descriptor : FileDescriptor} {handle : Option (Cursor Byte)} {after : Session}
    (kernel : after.kernel = session.kernel.setPcb cur
      ((session.kernel.pcb cur).setFd fd descriptor))
    (name : ∀ i, i ≠ fd → after.name i = session.name i)
    (delivered : ∀ i, i ≠ fd → after.delivered i = session.delivered i)
    (slot : SlotMatches image descriptor (after.name fd) (after.delivered fd) handle) :
    Refines image cur after (Function.update table fd handle) := by
  refine ⟨by rw [kernel]; exact refines.current, fun i low high => ?_⟩
  have fds : (after.kernel.pcb cur).fd =
      Function.update (session.kernel.pcb cur).fd fd descriptor := by
    simp only [kernel, setPcb, Pcb.setFd, Function.update_self]
  rw [fds]
  by_cases same : i = fd
  · subst same
    rw [Function.update_self, Function.update_self]
    exact slot
  · rw [Function.update_of_ne same, Function.update_of_ne same, name i same, delivered i same]
    exact refines.slots i low high

/-! ### open -/

theorem Refines.sysOpen_free (refines : Refines image cur session table) {name : CString}
    {dentry : Dentry} (file : RegularFile image name dentry) {fd : Nat}
    (free : FileTable.lowestFree fileSlots table = some fd) :
    session.kernel.sysOpen image name = .done (fd, session.kernel.setPcb cur
      ((session.kernel.pcb cur).setFd fd
        (describe name dentry ((session.kernel.pcb cur).fd fd)))) := by
  have opened := sysOpen_openable file.openable refines.current (refines.lowestFree.trans free)
  have regular := file.fileType
  rw [opened]
  dsimp only
  rw [if_neg (by omega)]

theorem describe_matches {name : CString} {dentry : Dentry} (file : RegularFile image name dentry)
    (descriptor : FileDescriptor) :
    HandleMatches image (describe name dentry descriptor) name []
      (.start (fileContents image dentry.inodeNum)) := by
  have described : describe name dentry descriptor =
      { descriptor with
        flags := 1, filePosition := 0, sysopsPtr := .fileOps
        inodePtr := getInodeptr dentry.inodeNum
        fileName := strcpy descriptor.fileName name } := by
    simp only [describe, file.fileType]
    rfl
  rw [described]
  exact ⟨Nat.one_ne_zero, rfl, stringAt_strcpy file.short, ⟨dentry, file, rfl⟩, rfl, rfl⟩

theorem Refines.sysOpen_full (refines : Refines image cur session table) {name : CString}
    {dentry : Dentry} (file : RegularFile image name dentry)
    (full : FileTable.lowestFree fileSlots table = none) :
    session.kernel.sysOpen image name = .done (-1, session.kernel) :=
  Kernel.sysOpen_full file.openable refines.current (refines.lowestFree.trans full)

theorem Refines.sysOpen_absent (refines : Refines image cur session table) {name : CString}
    (nonempty : name.strlen ≠ 0) (absent : readDentryByName image name = .done none) :
    session.kernel.sysOpen image name = .done (-1, session.kernel) := by
  have first : name.char 0 ≠ 0 := CString.char_ne_zero (Nat.pos_of_ne_zero nonempty)
  simp only [Kernel.sysOpen, if_neg first, refines.current, absent, Outcome.done_bind,
    Outcome.pure_eq]

/-- A name that a session may open is absent or that of a regular file. -/
theorem FileCall.Allowed.resolves {name : CString}
    (allowed : FileCall.Allowed image (.sysOpen name)) :
    readDentryByName image name = .done none ∨ ∃ dentry, RegularFile image name dentry := by
  obtain ⟨nonempty, short, regular⟩ := allowed
  have looked : readDentryByName image name = _ := readDentryByName_of_short short
  cases found : (findEntry image name.char NUM_DIR_ENTRIES 0).map image.dirEntry with
  | none => exact .inl (found ▸ looked)
  | some dentry =>
      rw [found] at looked
      obtain ⟨_, index, firstMatch, rfl⟩ := readDentryByName_eq_some.mp looked
      obtain ⟨listed, fileType⟩ := regular index firstMatch
      exact .inr ⟨_, short, nonempty, ⟨index, listed, firstMatch, rfl⟩, fileType⟩

theorem Refines.stepOpen (refines : Refines image cur session table) {name : CString}
    (allowed : FileCall.Allowed image (.sysOpen name)) :
    ∃ after actions next, session.step image (.sysOpen name) = some after ∧
      (FileTable.system fileSlots).run table actions = some next ∧
      Refines image cur after next := by
  have unchanged : session.kernel.sysOpen image name = .done (-1, session.kernel) →
      ∃ after actions next, session.step image (.sysOpen name) = some after ∧
        (FileTable.system fileSlots).run table actions = some next ∧
        Refines image cur after next := by
    intro refused
    refine ⟨session, [], table, ?_, rfl, refines⟩
    simp only [Session.step, refused, Outcome.toOption_done, Option.map_some]
    rfl
  rcases allowed.resolves with absent | ⟨dentry, file⟩
  · exact unchanged (refines.sysOpen_absent allowed.1 absent)
  cases free : FileTable.lowestFree fileSlots table with
  | none => exact unchanged (refines.sysOpen_full file free)
  | some fd =>
      have opened := refines.sysOpen_free file free
      refine ⟨⟨session.kernel.setPcb cur ((session.kernel.pcb cur).setFd fd
          (describe name dentry ((session.kernel.pcb cur).fd fd))),
        Function.update session.name fd name, Function.update session.delivered fd []⟩,
        [.start (fileContents image dentry.inodeNum)], _, ?_, Transitions.run_singleton.trans rfl, ?_⟩
      · simp only [Session.step, opened, Outcome.toOption_done, Option.map_some,
          if_pos (Int.natCast_nonneg fd), Int.toNat_natCast]
      · simp only [FileTable.act, free, Option.elim_some]
        refine refines.update rfl (fun i other => ?_) (fun i other => ?_) ?_
        · exact Function.update_of_ne other ..
        · exact Function.update_of_ne other ..
        · simp only [Function.update_self]
          exact describe_matches file _

/-! ### close -/

theorem sysClose_refused {kernel : Kernel} {fd : Int}
    (current : findProgramid kernel.cr3 = .done cur)
    (refused : fd < 2 ∨ fd > 7 ∨ ((kernel.pcb cur).fd fd.toNat).flags = 0) :
    kernel.sysClose fd = .done (-1, kernel) := by
  simp only [sysClose]
  split
  · rfl
  · rename_i inRange
    have free := refused.resolve_left (fun low => inRange (.inl low)) |>.resolve_left
      fun high => inRange (.inr high)
    simp only [current, Outcome.done_bind, if_pos free, Outcome.pure_eq]

theorem sysClose_open {kernel : Kernel} {fd : Int}
    (current : findProgramid kernel.cr3 = .done cur) (low : 2 ≤ fd) (high : fd ≤ 7)
    (isOpen : ((kernel.pcb cur).fd fd.toNat).flags ≠ 0) :
    kernel.sysClose fd = .done (0, kernel.setPcb cur
      ((kernel.pcb cur).setFd fd.toNat (closed ((kernel.pcb cur).fd fd.toNat)))) := by
  simp only [sysClose]
  rw [if_neg (by omega), current]
  simp only [Outcome.done_bind, if_neg isOpen, Outcome.pure_eq]

theorem Refines.stepClose (refines : Refines image cur session table) (fd : Int) :
    ∃ after actions next, session.step image (.sysClose fd) = some after ∧
      (FileTable.system fileSlots).run table actions = some next ∧
      Refines image cur after next := by
  by_cases refused : fd < 2 ∨ fd > 7 ∨ ((session.kernel.pcb cur).fd fd.toNat).flags = 0
  · refine ⟨session, [], table, ?_, rfl, refines⟩
    simp only [Session.step, sysClose_refused refines.current refused, Outcome.toOption_done,
      Option.map_some]
  · simp only [not_or] at refused
    obtain ⟨low, high, isOpen⟩ := refused
    have done := sysClose_open refines.current (by omega) (by omega) isOpen
    refine ⟨{ session with
        kernel := session.kernel.setPcb cur ((session.kernel.pcb cur).setFd fd.toNat
          (closed ((session.kernel.pcb cur).fd fd.toNat))) },
      [.close fd.toNat], _, ?_, Transitions.run_singleton.trans rfl, ?_⟩
    · simp only [Session.step, done, Outcome.toOption_done, Option.map_some]
    · exact refines.update rfl (fun _ _ => rfl) (fun _ _ => rfl) rfl

/-! ### read -/

theorem sysRead_refused {kernel : Kernel} {fd nbytes : Int} {buf : Option (Nat → Byte)}
    (current : findProgramid kernel.cr3 = .done cur)
    (refused : fd < 0 ∨ fd > 7 ∨ fd = 1 ∨ ((kernel.pcb cur).fd fd.toNat).flags = 0) :
    kernel.sysRead image fd buf nbytes = .done (-1, buf, kernel) := by
  simp only [sysRead, current, Outcome.done_bind, if_pos refused, Outcome.pure_eq]

theorem fileContents_next {cursor : Cursor Byte} {inode : Nat}
    (contents : cursor.contents = fileContents image inode) (count j : Nat) (rest : Byte) :
    (cursor.next count).getD j rest =
      if j < min count (image.inodeLength inode - cursor.position) then
        fileByte image inode (cursor.position + j)
      else rest := by
  simp only [Cursor.next, contents, fileContents, List.getD_eq_getElem?_getD, List.getElem?_take,
    List.getElem?_drop, List.getElem?_map]
  by_cases inside : j < min count (image.inodeLength inode - cursor.position)
  · rw [if_pos (by omega), if_pos inside, List.getElem?_range (by omega)]
    rfl
  · rw [if_neg inside]
    split
    · rw [List.getElem?_eq_none (by rw [List.length_range]; omega)]
      rfl
    · rfl

/-- A read brings what is next in the file and moves the position behind it. -/
theorem sysRead_open {kernel : Kernel} {fd nbytes : Int} {name : CString}
    {delivered : List Byte} {cursor : Cursor Byte} (wellFormed : WellFormed image)
    (current : findProgramid kernel.cr3 = .done cur) (low : 2 ≤ fd) (high : fd ≤ 7)
    (handle : HandleMatches image ((kernel.pcb cur).fd fd.toNat) name delivered cursor)
    (buf : Nat → Byte) (positive : 0 < nbytes) (small : nbytes < 2147483648) :
    kernel.sysRead image fd (some buf) nbytes =
      .done ((cursor.next nbytes.toNat).length,
        some fun j => (cursor.next nbytes.toNat).getD j (buf j),
        kernel.setPcb cur ((kernel.pcb cur).setFd fd.toNat
          { (kernel.pcb cur).fd fd.toNat with
            filePosition := (cursor.advance nbytes.toNat).position })) := by
  obtain ⟨dentry, file, contents⟩ := handle.resolves
  obtain ⟨index, listed, firstMatch, rfl⟩ := file.listed
  have found := file.openable.found
  have inode := wellFormed.inode index listed file.fileType
  have bound := wellFormed.length index listed file.fileType
  have total : NUM_DATA_BLOCK * FOUR_KILOBYTES < 2147483648 := by decide
  have length : cursor.contents.length =
      image.inodeLength (image.dirEntry index).inodeNum := by
    rw [contents, fileContents, List.length_map, List.length_range]
  have position := cursor.position_le
  rw [length] at position
  have count : uint32 nbytes = nbytes.toNat := by
    simp only [uint32]
    rw [Int.emod_eq_of_lt (by omega) (by omega)]
  have accepted : ¬ (fd < 0 ∨ fd > 7 ∨ fd = 1 ∨ ((kernel.pcb cur).fd fd.toNat).flags = 0) := by
    have isOpen := handle.flags
    omega
  simp only [sysRead, current, Outcome.done_bind, if_neg accepted, handle.sysopsPtr, readFile,
    handle.fileName, found, handle.filePosition, count, Outcome.pure_eq]
  have advanced := cursor.advance_position nbytes.toNat
  have delivers := cursor.next_length nbytes.toNat
  rw [length] at advanced delivers
  by_cases atEnd : cursor.position = image.inodeLength (image.dirEntry index).inodeNum
  · have nothing : cursor.next nbytes.toNat = [] := by
      apply List.eq_nil_of_length_eq_zero
      omega
    have stays : (cursor.advance nbytes.toNat).position =
        image.inodeLength (image.dirEntry index).inodeNum := by
      omega
    rw [atEnd, readData_atEnd, nothing, stays]
    simp only [List.length_nil, List.getD_nil]
    rfl
  · rw [readData_inside inode (by omega) (by omega)]
    have value : int32 (min nbytes.toNat
        (image.inodeLength (image.dirEntry index).inodeNum - cursor.position)) =
        ((cursor.next nbytes.toNat).length : Int) := by
      rw [int32_of_lt (by omega), delivers]
    have moved : uint32 (((cursor.next nbytes.toNat).length : Int) + cursor.position) =
        (cursor.advance nbytes.toNat).position := by
      simp only [uint32]
      rw [Int.emod_eq_of_lt (by omega) (by omega)]
      omega
    simp only [value]
    rw [if_neg (by omega), if_neg (by omega), moved]
    simp only [fileContents_next contents]

theorem map_range_getD {β : Type} (items : List β) (rest : Nat → β) :
    (List.range items.length).map (fun j => items.getD j (rest j)) = items := by
  apply List.ext_getElem
  · simp
  · intro j inRange inside
    simp [inside]

theorem Refines.stepRead (refines : Refines image cur session table) (wellFormed : WellFormed image)
    {fd nbytes : Int} {buf : Nat → Byte}
    (allowed : FileCall.Allowed image (.sysRead fd buf nbytes)) :
    ∃ after actions next, session.step image (.sysRead fd buf nbytes) = some after ∧
      (FileTable.system fileSlots).run table actions = some next ∧
      Refines image cur after next := by
  obtain ⟨notKeyboard, positive, small⟩ := allowed
  by_cases refused : fd < 0 ∨ fd > 7 ∨ fd = 1 ∨ ((session.kernel.pcb cur).fd fd.toNat).flags = 0
  · refine ⟨session, [], table, ?_, rfl, refines⟩
    simp only [Session.step, sysRead_refused refines.current refused, Outcome.toOption_done,
      Option.map_some]
    have nothing : (List.range (-1 : Int).toNat).map ((some buf).getD buf) = [] := rfl
    rw [nothing, List.append_nil, Function.update_eq_self]
  · simp only [not_or] at refused
    obtain ⟨_, _, _, isOpen⟩ := refused
    have slot := refines.slots fd.toNat (by omega) (by omega)
    cases handle : table fd.toNat with
    | none =>
        rw [handle] at slot
        exact absurd slot isOpen
    | some cursor =>
        rw [handle] at slot
        have read := sysRead_open wellFormed refines.current (by omega) (by omega) slot buf positive
          small
        refine ⟨{ session with
            kernel := session.kernel.setPcb cur ((session.kernel.pcb cur).setFd fd.toNat
              { (session.kernel.pcb cur).fd fd.toNat with
                filePosition := (cursor.advance nbytes.toNat).position })
            delivered := Function.update session.delivered fd.toNat
              (session.delivered fd.toNat ++ cursor.next nbytes.toNat) },
          [.read fd.toNat nbytes.toNat], _, ?_, Transitions.run_singleton.trans rfl, ?_⟩
        · simp only [Session.step, read, Outcome.toOption_done, Option.map_some, Int.toNat_natCast,
            Option.getD_some, map_range_getD]
        · simp only [FileTable.act, handle, Option.map_some]
          refine refines.update rfl (fun _ _ => rfl) (fun i other => ?_) ?_
          · exact Function.update_of_ne other ..
          · simp only [Function.update_self]
            refine ⟨slot.flags, slot.sysopsPtr, slot.fileName, slot.resolves, rfl, ?_⟩
            rw [slot.delivered]
            rfl

theorem Refines.step (refines : Refines image cur session table) (wellFormed : WellFormed image)
    {call : FileCall} (allowed : call.Allowed image) :
    ∃ after actions next, session.step image call = some after ∧
      (FileTable.system fileSlots).run table actions = some next ∧
      Refines image cur after next := by
  cases call with
  | sysOpen name => exact refines.stepOpen allowed
  | sysRead fd buf nbytes => exact refines.stepRead wellFormed allowed
  | sysClose fd => exact refines.stepClose fd

/-- Every session runs to its end, and is a run of the table of open files. -/
theorem Refines.run (refines : Refines image cur session table) (wellFormed : WellFormed image)
    {calls : List FileCall} (allowed : ∀ call ∈ calls, call.Allowed image) :
    ∃ final actions last, (sessionSystem image).run session calls = some final ∧
      (FileTable.system fileSlots).run table actions = some last ∧
      Refines image cur final last := by
  apply Transitions.run_simulates _ refines
  intro call member session table refines
  exact refines.step wellFormed (allowed call member)

/-- With its descriptors closed a process has no open files. -/
theorem refines_begin {kernel : Kernel} (current : findProgramid kernel.cr3 = .done cur)
    (closed : ∀ fd, 2 ≤ fd → fd ≤ 7 → ((kernel.pcb cur).fd fd).flags = 0) :
    Refines image cur (.begin kernel) fun _ => none :=
  ⟨current, closed⟩

end Refinement

/-- What a process can rely on between two calls: what it has read so far, and
what the next call of each kind will do. -/
structure Faithful (image : Image) (cur : Nat) (session : Session) : Prop where
  delivered : ∀ fd, 2 ≤ fd → fd ≤ 7 → ((session.kernel.pcb cur).fd fd).flags ≠ 0 →
    ∃ dentry, RegularFile image (session.name fd) dentry ∧
      session.delivered fd = (fileContents image dentry.inodeNum).take
        ((session.kernel.pcb cur).fd fd).filePosition ∧
      ((session.kernel.pcb cur).fd fd).filePosition ≤ image.inodeLength dentry.inodeNum
  opens : ∀ name dentry, RegularFile image name dentry →
    (∃ fd after, 2 ≤ fd ∧ fd ≤ 7 ∧ ((session.kernel.pcb cur).fd fd).flags = 0 ∧
      (∀ i, 2 ≤ i → i < fd → ((session.kernel.pcb cur).fd i).flags ≠ 0) ∧
      session.kernel.sysOpen image name = .done ((fd : Int), after)) ∨
    ((∀ i, 2 ≤ i → i ≤ 7 → ((session.kernel.pcb cur).fd i).flags ≠ 0) ∧
      session.kernel.sysOpen image name = .done (-1, session.kernel))
  closes : ∀ fd : Int,
    (2 ≤ fd ∧ fd ≤ 7 ∧ ((session.kernel.pcb cur).fd fd.toNat).flags ≠ 0 ∧
      ∃ after, session.kernel.sysClose fd = .done (0, after)) ∨
    (¬ (2 ≤ fd ∧ fd ≤ 7 ∧ ((session.kernel.pcb cur).fd fd.toNat).flags ≠ 0) ∧
      session.kernel.sysClose fd = .done (-1, session.kernel))
  readsClosed : ∀ (fd nbytes : Int) (buf : Option (Nat → Byte)), 2 ≤ fd → fd ≤ 7 →
    ((session.kernel.pcb cur).fd fd.toNat).flags = 0 →
    session.kernel.sysRead image fd buf nbytes = .done (-1, buf, session.kernel)
  reads : ∀ (fd nbytes : Int) (buf : Nat → Byte), 2 ≤ fd → fd ≤ 7 →
    ((session.kernel.pcb cur).fd fd.toNat).flags ≠ 0 → 0 < nbytes → nbytes < 2147483648 →
    ∃ dentry count after, RegularFile image (session.name fd.toNat) dentry ∧
      count = min nbytes.toNat (image.inodeLength dentry.inodeNum -
        ((session.kernel.pcb cur).fd fd.toNat).filePosition) ∧
      session.kernel.sysRead image fd (some buf) nbytes =
        .done ((count : Int), some fun j =>
          if j < count then fileByte image dentry.inodeNum
            (((session.kernel.pcb cur).fd fd.toNat).filePosition + j)
          else buf j, after)

theorem Refines.faithful {image : Image} {session : Session} {table : FileTable Byte} {cur : Nat}
    (refines : Refines image cur session table) (wellFormed : WellFormed image) :
    Faithful image cur session := by
  have openHandle : ∀ fd, 2 ≤ fd → fd ≤ 7 → ((session.kernel.pcb cur).fd fd).flags ≠ 0 →
      ∃ cursor, HandleMatches image ((session.kernel.pcb cur).fd fd) (session.name fd)
        (session.delivered fd) cursor := by
    intro fd low high isOpen
    have slot := refines.slots fd low high
    cases handle : table fd with
    | none =>
        rw [handle] at slot
        exact absurd slot isOpen
    | some cursor =>
        rw [handle] at slot
        exact ⟨cursor, slot⟩
  refine ⟨?_, ?_, ?_, ?_, ?_⟩
  · intro fd low high isOpen
    obtain ⟨cursor, handle⟩ := openHandle fd low high isOpen
    obtain ⟨dentry, file, contents⟩ := handle.resolves
    refine ⟨dentry, file, ?_, ?_⟩
    · rw [handle.delivered, handle.filePosition, ← contents]
      exact cursor.delivered_eq_take
    · have bound := cursor.position_le
      rwa [contents, fileContents, List.length_map, List.length_range,
        ← handle.filePosition] at bound
  · intro name dentry file
    cases free : FileTable.lowestFree fileSlots table with
    | none =>
        exact .inr ⟨freeDescriptor_eq_none.mp (refines.lowestFree.trans free),
          refines.sysOpen_full file free⟩
    | some fd =>
        obtain ⟨low, high, isFree, first⟩ :=
          freeDescriptor_eq_some.mp (refines.lowestFree.trans free)
        exact .inl ⟨fd, _, low, high, isFree, first, refines.sysOpen_free file free⟩
  · intro fd
    by_cases isOpen : 2 ≤ fd ∧ fd ≤ 7 ∧ ((session.kernel.pcb cur).fd fd.toNat).flags ≠ 0
    · obtain ⟨low, high, set⟩ := isOpen
      exact .inl ⟨low, high, set, _, sysClose_open refines.current low high set⟩
    · refine .inr ⟨isOpen, sysClose_refused refines.current ?_⟩
      omega
  · intro fd nbytes buf _ _ free
    exact sysRead_refused refines.current (.inr (.inr (.inr free)))
  · intro fd nbytes buf low high isOpen positive small
    obtain ⟨cursor, handle⟩ := openHandle fd.toNat (by omega) (by omega) isOpen
    obtain ⟨dentry, file, contents⟩ := handle.resolves
    have read := sysRead_open wellFormed refines.current low high handle buf positive small
    have length : cursor.contents.length = image.inodeLength dentry.inodeNum := by
      rw [contents, fileContents, List.length_map, List.length_range]
    have count := cursor.next_length nbytes.toNat
    rw [length, ← handle.filePosition] at count
    have bytes : (fun j => (cursor.next nbytes.toNat).getD j (buf j)) = fun j =>
        if j < (cursor.next nbytes.toNat).length then fileByte image dentry.inodeNum
          (((session.kernel.pcb cur).fd fd.toNat).filePosition + j)
        else buf j := by
      funext j
      rw [fileContents_next contents, count, handle.filePosition]
    rw [bytes] at read
    exact ⟨dentry, _, _, file, count, read⟩

end Ece391
