import Ece391.Terminal.Lockstep

namespace Ece391

open Library Kernel

/-! # read and its length

The three drivers that store through the pointer, each with its own loop.
-/

variable {image : Image} {behind : BehindTables} {driver : TerminalDriver} {kernel entered next : Kernel}
  {fd nbytes value : Int} {buf after : Nat → Byte} {cur : Nat}

/-- No byte from `nbytes` on is changed, and the result is -1 or a count up to
`nbytes`. -/
def Honours (nbytes : Int) (buf : Nat → Byte) (value : Int) (after : Nat → Byte) : Prop :=
  (value = -1 ∨ 0 ≤ value ∧ value ≤ max nbytes 0) ∧
    ∀ i : Nat, max nbytes 0 ≤ (i : Int) → after i = buf i

/-- A string of `length` bytes has room in the buffer, or ends where the buffer
does, at a byte that is NUL already. -/
def StringFits (nbytes : Int) (buf : Nat → Byte) (length : Nat) : Prop :=
  (length : Int) < max nbytes 0 ∨ (length : Int) = max nbytes 0 ∧ buf length = 0

theorem honours_refused (nbytes : Int) (buf : Nat → Byte) : Honours nbytes buf (-1) buf :=
  ⟨.inl rfl, fun _ _ => rfl⟩

theorem honours_nothing (nbytes : Int) (buf : Nat → Byte) : Honours nbytes buf 0 buf :=
  ⟨.inr ⟨Int.le_refl 0, Int.le_max_right ..⟩, fun _ _ => rfl⟩

theorem honours_string_iff {chars : Nat → Byte} {length : Nat}
    (stored : ∀ i, after i = if i < length then chars i else if i = length then 0 else buf i) :
    Honours nbytes buf length after ↔ StringFits nbytes buf length := by
  constructor
  · intro honours
    obtain ⟨count, kept⟩ := honours
    have bound : (length : Int) ≤ max nbytes 0 := by omega
    rcases Int.lt_or_eq_of_le bound with shorter | full
    · exact .inl shorter
    · refine .inr ⟨full, ?_⟩
      have last := kept length (Int.le_of_eq full.symm)
      rw [stored, if_neg (Nat.lt_irrefl _), if_pos rfl] at last
      exact last.symm
  · intro fits
    have bound : (length : Int) ≤ max nbytes 0 := by
      rcases fits with shorter | full
      · exact Int.le_of_lt shorter
      · exact Int.le_of_eq full.1
    refine ⟨.inr ⟨Int.natCast_nonneg _, bound⟩, fun i beyond => ?_⟩
    have notInside : ¬ i < length := by omega
    rw [stored, if_neg notInside]
    by_cases last : i = length
    · subst last
      rcases fits with shorter | ⟨_, zero⟩
      · omega
      · rw [if_pos rfl, zero]
    · rw [if_neg last]

theorem honours_copied_iff {chars : Nat → Byte} {count : Nat} (small : count < 4294967296)
    (atMost : 0 ≤ nbytes → (count : Int) ≤ nbytes ∧ nbytes < 2147483648)
    (stored : ∀ i, after i = if i < count then chars i else buf i) :
    Honours nbytes buf (int32 count) after ↔
      0 ≤ nbytes ∨ count = 0 ∨ count = 4294967295 ∧ ∀ i < count, chars i = buf i := by
  by_cases positive : 0 ≤ nbytes
  · obtain ⟨bound, inside⟩ := atMost positive
    refine ⟨fun _ => .inl positive, fun _ => ⟨.inr ?_, fun i beyond => ?_⟩⟩
    · rw [int32_of_lt (by omega)]
      omega
    · rw [stored, if_neg (by omega)]
  constructor
  · intro honours
    obtain ⟨result, kept⟩ := honours
    by_cases none : count = 0
    · exact .inr (.inl none)
    · refine .inr (.inr ⟨?_, fun i inside => ?_⟩)
      · unfold int32 at result
        split at result <;> omega
      · have same := kept i (by omega)
        rwa [stored, if_pos inside] at same
  · intro condition
    rcases condition with atLeast | none | ⟨full, same⟩
    · exact absurd atLeast positive
    · subst none
      obtain rfl : after = buf := funext fun i => (stored i).trans (if_neg (Nat.not_lt_zero i))
      exact honours_nothing nbytes after
    · refine ⟨.inl (by rw [full]; rfl), fun i _ => ?_⟩
      rw [stored]
      split
      · rename_i inside
        exact same i inside
      · rfl

/-- The file that `read_file` looks up. -/
def FileDescriptor.file (image : Image) (descriptor : FileDescriptor) : Option Dentry :=
  match stringAt descriptor.fileName CHAR_LENGTH 0 with
  | some filename => (readDentryByName image filename).toOption.bind id
  | none => none

/-- `read_data` gives nothing, or it fills 4294967295 bytes with what they hold. -/
def FileFits (image : Image) (nbytes : Int) (buf : Nat → Byte) (descriptor : FileDescriptor) : Prop :=
  0 ≤ nbytes ∨ ∀ dentry, descriptor.file image = some dentry →
    image.numInode ≤ dentry.inodeNum ∨
      bytesLeft image dentry.inodeNum descriptor.filePosition = 0 ∨
      nbytes = -1 ∧ bytesLeft image dentry.inodeNum descriptor.filePosition = 4294967295 ∧
        ∀ i < 4294967295, fileByte image dentry.inodeNum (descriptor.filePosition + i) = buf i

theorem readData_honours_iff {inode offset : Nat} (low : -2147483648 ≤ nbytes)
    (high : nbytes < 2147483648)
    (read : readData image inode offset (some buf) (uint32 nbytes) = (value, some after)) :
    Honours nbytes buf value after ↔
      0 ≤ nbytes ∨ image.numInode ≤ inode ∨ bytesLeft image inode offset = 0 ∨
        nbytes = -1 ∧ bytesLeft image inode offset = 4294967295 ∧
          ∀ i < 4294967295, fileByte image inode (offset + i) = buf i := by
  by_cases atEnd : offset = image.inodeLength inode
  · subst atEnd
    rw [readData_atEnd] at read
    cases read
    have none : bytesLeft image inode (image.inodeLength inode) = 0 := by
      rw [bytesLeft_inside (Nat.le_refl _), Nat.sub_self]
    exact ⟨fun _ => .inr (.inr (.inl none)), fun _ => honours_nothing nbytes buf⟩
  by_cases refused : image.numInode ≤ inode ∨ uint32 nbytes = 0
  · simp only [readData, if_neg atEnd] at read
    rw [if_pos refused] at read
    cases read
    refine ⟨fun _ => ?_, fun _ => honours_refused nbytes buf⟩
    rcases refused with outside | zero
    · exact .inr (.inl outside)
    · refine .inl ?_
      unfold uint32 at zero
      omega
  obtain ⟨valid, positive⟩ : inode < image.numInode ∧ 0 < uint32 nbytes := by omega
  rw [readData_copies valid atEnd positive] at read
  cases read
  have left : bytesLeft image inode offset < 4294967296 := Nat.mod_lt _ (by decide)
  have asked : uint32 nbytes < 4294967296 := by unfold uint32; omega
  rw [honours_copied_iff (by omega) ?_ fun _ => rfl]
  · constructor
    · intro condition
      rcases condition with atLeast | none | ⟨full, same⟩
      · exact .inl atLeast
      · exact .inr (.inr (.inl (by omega)))
      · refine .inr (.inr (.inr ⟨?_, by omega, fun i inside => same i (by omega)⟩))
        unfold uint32 at full
        omega
    · intro condition
      rcases condition with atLeast | outside | none | ⟨minusOne, full, same⟩
      · exact .inl atLeast
      · omega
      · exact .inr (.inl (by omega))
      · subst minusOne
        have all : uint32 (-1) = 4294967295 := rfl
        rw [full, all, Nat.min_self]
        exact .inr (.inr ⟨rfl, same⟩)
  · intro atLeast
    have exact' : (uint32 nbytes : Int) = nbytes := by unfold uint32; omega
    omega

/-- `read_file` returns what `read_data` does. -/
theorem readFile_found (nbytes : Int) {descriptor : Nat} {filename : CString} {dentry : Dentry}
    (named : stringAt ((kernel.pcb cur).fd descriptor).fileName CHAR_LENGTH 0 = some filename)
    (looking : readDentryByName image filename = .done (some dentry))
    (buf : Option (Nat → Byte)) :
    ∃ next, kernel.readFile image cur descriptor buf nbytes =
      .done ((readData image dentry.inodeNum ((kernel.pcb cur).fd descriptor).filePosition buf
          (uint32 nbytes)).1,
        (readData image dentry.inodeNum ((kernel.pcb cur).fd descriptor).filePosition buf
          (uint32 nbytes)).2, next) := by
  simp only [readFile]
  simp only [named, looking, Outcome.done_bind, Outcome.pure_eq]
  split
  · rename_i failed
    rw [failed]
    exact ⟨_, rfl⟩
  · exact ⟨_, rfl⟩

theorem readFile_honours_iff {descriptor : Nat} (low : -2147483648 ≤ nbytes)
    (high : nbytes < 2147483648)
    (read : kernel.readFile image cur descriptor (some buf) nbytes = .done (value, some after, next)) :
    Honours nbytes buf value after ↔ FileFits image nbytes buf ((kernel.pcb cur).fd descriptor) := by
  have unfolded := read
  unfold readFile at unfolded
  simp only [FileFits, FileDescriptor.file]
  dsimp only at unfolded
  split at unfolded
  · cases unfolded
  · rename_i filename named
    obtain ⟨found, looking, rest⟩ := Outcome.bind_eq_done.mp unfolded
    simp only [named, looking, Outcome.toOption_done, Option.bind_some, id_eq]
    cases found with
    | none =>
        cases rest
        refine ⟨fun _ => .inr fun dentry absent => ?_, fun _ => honours_refused nbytes buf⟩
        cases absent
    | some dentry =>
        have sameRead : readData image dentry.inodeNum ((kernel.pcb cur).fd descriptor).filePosition
            (some buf) (uint32 nbytes) = (value, some after) := by
          obtain ⟨other, returned⟩ := readFile_found nbytes named looking (some buf)
          obtain ⟨isValue, isAfter⟩ := Prod.mk.inj (Outcome.done.inj (returned.symm.trans read))
          exact Prod.ext isValue (Prod.mk.inj isAfter).1
        rw [readData_honours_iff low high sameRead]
        constructor
        · intro condition
          refine condition.imp_right fun reads other same => ?_
          cases same
          exact reads
        · intro condition
          exact condition.imp_right fun reads => reads dentry rfl

/-- The name that the next read of a directory gives; `none` ends the listing. -/
def Kernel.nextEntry (image : Image) (kernel : Kernel) : Option CString :=
  if (kernel.currentDirIndex : Int) + 1 > int32 image.numDirectory then none
  else stringAt image.byte 4294967296 (64 + 64 * kernel.currentDirIndex)

theorem strcpy_stores (dest : Nat → Byte) (src : CString) (i : Nat) :
    strcpy dest src i =
      if i < src.strlen then src.char i else if i = src.strlen then 0 else dest i := by
  simp only [strcpy]
  by_cases inside : i < src.strlen
  · rw [if_pos (Nat.le_of_lt inside), if_pos inside]
  · rw [if_neg inside]
    by_cases last : i = src.strlen
    · rw [if_pos (Nat.le_of_eq last), if_pos last, last]
      exact CString.char_of_ge (Nat.le_refl _)
    · rw [if_neg (by omega), if_neg last]

theorem readDirectory_honours_iff
    (read : kernel.readDirectory image (some buf) = .done (value, some after, next)) :
    Honours nbytes buf value after ↔
      ∀ name, kernel.nextEntry image = some name → StringFits nbytes buf name.strlen := by
  unfold readDirectory at read
  simp only [nextEntry]
  split at read
  · rename_i ended
    cases read
    rw [if_pos ended]
    refine ⟨fun _ name absent => ?_, fun _ => honours_nothing nbytes buf⟩
    cases absent
  · rename_i listed
    rw [if_neg listed]
    split at read
    · rename_i bytes name isBuf named
      cases isBuf
      cases read
      rw [honours_string_iff (strcpy_stores buf name), named]
      constructor
      · intro fits other same
        cases same
        exact fits
      · intro fits
        exact fits name rfl
    · cases read
    · cases read

theorem takeLine_honours_iff (taken : entered.takeLine buf = .done (value, after, next)) :
    Honours nbytes buf value after ↔
      StringFits nbytes buf (entered.terminals entered.oldTerminal).bufferI := by
  obtain ⟨cur, _, rest⟩ := Outcome.bind_eq_done.mp taken
  split at rest
  · split at rest
    · cases rest
      exact honours_string_iff fun _ => rfl
    · cases rest
  · cases rest

/-- The descriptors that `read` refuses. -/
def ReadRefused (pcb : Pcb) (fd : Int) : Prop :=
  fd < 0 ∨ fd > 7 ∨ fd = 1 ∨ (pcb.fd fd.toNat).flags = 0

/-- A call that returns.  The one to the terminal lets interrupts, and whatever
they start, run between its two parts; `entered` is the state that the driver
stores in. -/
inductive ReadReturns (image : Image) (behind : BehindTables) (driver : TerminalDriver) (cur : Nat)
    (fd nbytes : Int) (buf : Nat → Byte) :
    (entered : Kernel) → (value : Int) → (after : Nat → Byte) → (next : Kernel) → Prop where
  | atOnce {value : Int} {after : Nat → Byte} {next : Kernel}
      (returned : driver.kernel.sysRead image fd (some buf) nbytes =
        .done (value, some after, next)) :
      ReadReturns image behind driver cur fd nbytes buf driver.kernel value after next
  | line {waiting : Kernel} {inputs : List ConsoleInput} {middle : TerminalDriver} {value : Int}
      {after : Nat → Byte} {next : Kernel} (readable : ¬ ReadRefused (driver.kernel.pcb cur) fd)
      (isTerminal : ((driver.kernel.pcb cur).fd fd.toNat).sysopsPtr = .terminalOps)
      (awaits : driver.kernel.awaitLine = .done waiting)
      (ran : (consoleSystem image behind).run ⟨waiting, driver.keyboard⟩ inputs = some middle)
      (taken : middle.kernel.takeLine buf = .done (value, after, next)) :
      ReadReturns image behind driver cur fd nbytes buf middle.kernel value after next

/-- What the driver behind a descriptor stores has room. -/
def ReadFits (image : Image) (nbytes : Int) (buf : Nat → Byte) (descriptor : FileDescriptor)
    (entered : Kernel) : Prop :=
  match descriptor.sysopsPtr with
  | .terminalOps => StringFits nbytes buf (entered.terminals entered.oldTerminal).bufferI
  | .directoryOps =>
      ∀ name, entered.nextEntry image = some name → StringFits nbytes buf name.strlen
  | .fileOps => FileFits image nbytes buf descriptor
  | _ => True

/-- `read` honours its length if and only if the line, the name or the part of
the file fits. -/
theorem read_honours_iff_fits (current : findProgramid driver.kernel.cr3 = .done cur)
    (low : -2147483648 ≤ nbytes) (high : nbytes < 2147483648)
    (returns : ReadReturns image behind driver cur fd nbytes buf entered value after next) :
    Honours nbytes buf value after ↔ ReadRefused (driver.kernel.pcb cur) fd ∨
      ReadFits image nbytes buf ((driver.kernel.pcb cur).fd fd.toNat) entered := by
  cases returns with
  | line readable isTerminal awaits ran taken =>
      rw [takeLine_honours_iff taken, ReadFits, isTerminal]
      exact ⟨.inr, fun condition => condition.resolve_left readable⟩
  | atOnce returned =>
      unfold sysRead at returned
      rw [current, Outcome.done_bind] at returned
      dsimp only at returned
      split at returned
      · rename_i refused
        cases returned
        exact ⟨fun _ => .inl refused, fun _ => honours_refused nbytes buf⟩
      · rename_i readable
        have onlyFits : ∀ fits : Prop,
            (ReadRefused (driver.kernel.pcb cur) fd ∨ fits ↔ fits) :=
          fun fits => or_iff_right readable
        rw [onlyFits, ReadFits]
        split at returned
        · rename_i isFile
          rw [isFile]
          exact readFile_honours_iff low high returned
        · rename_i isDirectory
          rw [isDirectory]
          exact readDirectory_honours_iff returned
        · rename_i isRtc
          rw [isRtc]
          obtain ⟨⟨result, ticked⟩, ticking, rest⟩ := Outcome.bind_eq_done.mp returned
          cases rest
          refine ⟨fun _ => trivial, fun _ => ?_⟩
          unfold rtcRead at ticking
          split at ticking
          · cases ticking
          · cases ticking
            exact honours_nothing nbytes buf
        · cases returned
        · cases returned
        · cases returned

def enterPressed : ConsoleInput :=
  .key 0x1C zeroedIrq zeroedFrame cachedEverywhere fun _ => false

/-- An a and a newline stand in the line buffer of an empty terminal. -/
theorem a_enter_line {console : Console} (x : console.x = 0) (y : console.y = 0)
    (empty : console.bufferI = 0) :
    ∃ typed line, console.terminalKeyPressed zeroedTables noModifiers 0x1E =
        .done (none, noModifiers, typed) ∧
      typed.terminalKeyPressed zeroedTables noModifiers 0x1C = .done (none, noModifiers, line) ∧
      line.bufferI = 2 ∧ line.lineBuffer 1 = 10 := by
  obtain ⟨cells, column, row, lineBuffer, bufferI⟩ := console
  dsimp only at x y empty
  subst x y empty
  exact ⟨_, _, rfl, rfl, rfl, rfl⟩

/-- The first shell reads the two characters, with room for one. -/
theorem shell_reads_two :
    ∃ start entered after next, FirstShell shellImage start ∧
      findProgramid start.cr3 = .done 1 ∧ ¬ ReadRefused (start.pcb 1) 0 ∧
      ReadReturns shellImage zeroedTables ⟨start, noModifiers⟩ 1 0 1 (fun _ => 7) entered 2 after
        next := by
  obtain ⟨start, started, launched⟩ := firstShell_exists shellImage_valid zeroedMemory zeroedFrame
  obtain ⟨processes, attended⟩ := started.attended
  have startX : start.screenX = 0 := launched.display.screenX.trans (boot_screenX _)
  have startY : start.screenY = 0 := launched.display.screenY.trans (boot_screenY _)
  have stdin : ((start.pcb 1).fd 0).flags = 1 ∧ ((start.pcb 1).fd 0).sysopsPtr = .terminalOps := by
    rw [launched.newFd]
    exact ⟨rfl, rfl⟩
  have readable : ¬ ReadRefused (start.pcb 1) 0 := by
    simp only [ReadRefused]
    simp [stdin.1]
  obtain ⟨waiting, awaits⟩ : ∃ waiting, start.awaitLine = .done waiting :=
    ⟨_, attended.awaits launched.cr3⟩
  have waits := attended.awaitLine awaits
  have waitingAttended := attended.draws waits
  have waitingX : waiting.shownConsole.x = 0 := by
    rw [waits.shown, shownConsole_eq]
    exact startX
  have waitingY : waiting.shownConsole.y = 0 := by
    rw [waits.shown, shownConsole_eq]
    exact startY
  have waitingEmpty : waiting.shownConsole.bufferI = 0 := by rw [waits.shown]
  obtain ⟨typed, line, typing, entering, count, newline⟩ :=
    a_enter_line waitingX waitingY waitingEmpty
  obtain ⟨first, _, aStep, aDraws⟩ :
      ∃ drawn, TerminalDriver.keyHandled zeroedTables 0x1E zeroedIrq (fun _ => false)
          ⟨waiting, noModifiers⟩ = .done (none, ⟨drawn, noModifiers⟩) ∧
        (consoleSystem shellImage zeroedTables).step ⟨waiting, noModifiers⟩ aPressed =
          some ⟨drawn, noModifiers⟩ ∧ Draws waiting typed drawn :=
    keyDraws_step shellImage zeroedFrame cachedEverywhere _ waitingAttended typing
  have firstAttended := waitingAttended.draws aDraws
  rw [← aDraws.shown] at entering
  obtain ⟨second, _, enterStep, enterDraws⟩ :
      ∃ drawn, TerminalDriver.keyHandled zeroedTables 0x1C zeroedIrq (fun _ => false)
          ⟨first, noModifiers⟩ = .done (none, ⟨drawn, noModifiers⟩) ∧
        (consoleSystem shellImage zeroedTables).step ⟨first, noModifiers⟩ enterPressed =
          some ⟨drawn, noModifiers⟩ ∧ Draws first line drawn :=
    keyDraws_step shellImage zeroedFrame cachedEverywhere _ firstAttended entering
  have secondAttended := firstAttended.draws enterDraws
  have shows := enterDraws.shown
  rw [shownConsole_eq] at shows
  have length : (second.terminals second.oldTerminal).bufferI = 2 := by
    rw [← count, ← shows]
  have ended : (second.terminals second.oldTerminal).lineBuffer 1 = 10 := by
    rw [← newline, ← shows]
  have entered : LineEntered (second.terminals second.oldTerminal) := by
    refine ⟨?_, ?_⟩
    · rw [length]
      decide
    · rw [length]
      exact ended
  have current : findProgramid second.cr3 = .done 1 := by
    rw [enterDraws.cr3, aDraws.cr3, waits.cr3]
    exact launched.cr3
  obtain ⟨after, next, taken⟩ := secondAttended.takesLine current entered fun _ => 7
  rw [length] at taken
  exact ⟨start, second, after, next, started, launched.cr3, readable, .line readable stdin.2 awaits
    (Transitions.run_cons.mpr ⟨_, aStep, Transitions.run_singleton.trans enterStep⟩) taken⟩

theorem read_honours_iff_fits_line :
    ∃ start entered after, FirstShell shellImage start ∧
      (Honours 1 (fun _ => 7) 2 after ↔ ReadRefused (start.pcb 1) 0 ∨
        ReadFits shellImage 1 (fun _ => 7) ((start.pcb 1).fd 0) entered) := by
  obtain ⟨start, entered, after, next, started, current, _, returns⟩ := shell_reads_two
  exact ⟨start, entered, after, started,
    read_honours_iff_fits current (by decide) (by decide) returns⟩

/-- The call returns 2. -/
theorem read_exceeds_length :
    ∃ start entered value after next, FirstShell shellImage start ∧
      findProgramid start.cr3 = .done 1 ∧ ¬ ReadRefused (start.pcb 1) 0 ∧
      ReadReturns shellImage zeroedTables ⟨start, noModifiers⟩ 1 0 1 (fun _ => 7) entered value after
        next ∧ ¬ Honours 1 (fun _ => 7) value after := by
  obtain ⟨start, entered, after, next, started, current, readable, returns⟩ := shell_reads_two
  refine ⟨start, entered, 2, after, next, started, current, readable, returns, ?_⟩
  intro honours
  rcases honours.1 with minusOne | ⟨_, bounded⟩
  · cases minusOne
  · exact absurd bounded (by decide)

end Ece391
