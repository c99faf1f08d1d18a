import Ece391.UserProgram.Launch

namespace Ece391

open Library Kernel

/-! # ece391ls.c -/

namespace Ls

def SBUFSIZE : Nat := 33

def directoryOpenFailed : CString := ⟨bytesOf "directory open failed\n", by decide +kernel⟩

def directoryEntryReadFailed : CString := ⟨bytesOf "directory entry read failed\n", by decide +kernel⟩

/-- One round of the loop; a store outside `buf` leaves the model. -/
def round (above : Int → Int → UserMemory) (fd : Int) (buf : Nat → Byte) :
    UserProgram ((Nat → Byte) ⊕ Int) := do
  let (cnt, buf) ← ece391Read fd buf (SBUFSIZE - 1)
  if cnt = 0 then return .inr 0
  else if cnt = -1 then do
    ece391Fdputs 1 directoryEntryReadFailed.memory
    return .inr 3
  else if 0 ≤ cnt ∧ cnt < SBUFSIZE then do
    let buf := Function.update buf cnt.toNat 10
    let written ← ece391Write 1 (onStack buf SBUFSIZE (above fd cnt)) (cnt + 1)
    if written = -1 then return .inr 3
    else return .inl buf
  else .cut

def main (above : Int → Int → UserMemory) (fuel : Nat) (buf : Nat → Byte) : UserProgram Int := do
  let fd ← ece391Open dot
  if fd = -1 then do
    ece391Fdputs 1 directoryOpenFailed.memory
    return 2
  else Program.loop (round above fd) fuel buf

/-- The names that a listing from an index on comes to: an empty name is taken
for the end. -/
def names (image : Image) (index : Nat) : List CString :=
  ((List.range' index (entryCount image - index)).filterMap (entryName image)).takeWhile
    fun name => name.strlen ≠ 0

def lines (names : List CString) : List Byte := names.flatMap fun name => name.bytes ++ [10]

/-- Where the listing leaves the index. -/
def indexAfter (image : Image) (index : Nat) : Nat :=
  if index + (names image index).length < entryCount image
    then index + (names image index).length + 1 else 0

/-- Every name from an index on has room in `buf`. -/
def NamesFit (image : Image) (index : Nat) : Prop :=
  ∀ i, index ≤ i → i < entryCount image →
    ∃ name, entryName image i = some name ∧ name.strlen < SBUFSIZE

variable {image : Image} {behind : BehindTables} {view : ProcessView} {cur fd index i : Nat}
  {pcbs : Nat → Pcb} {heard printed : List Byte} {name : CString} {above : Int → Int → UserMemory}
  {buf : Nat → Byte}

theorem names_of_ended (ended : entryCount image ≤ index) : names image index = [] := by
  rw [names, Nat.sub_eq_zero_of_le ended]
  rfl

theorem names_of_named (inside : index < entryCount image)
    (named : entryName image index = some name) :
    names image index = if name.strlen = 0 then [] else name :: names image (index + 1) := by
  have more : entryCount image - index = entryCount image - (index + 1) + 1 := by omega
  rw [names, more, List.range'_succ, List.filterMap_cons_some named, List.takeWhile_cons]
  by_cases empty : name.strlen = 0
  · rw [if_pos empty, if_neg (by simp [empty])]
  · rw [if_neg empty, if_pos (decide_eq_true empty)]
    rfl

/-- The listing has come to index `i`, and shown the names before it. -/
structure Listing (image : Image) (behind : BehindTables) (cur fd index : Nat) (pcbs : Nat → Pcb)
    (heard printed : List Byte) (i : Nat) (view : ProcessView) : Prop where
  directory : ReadsDirectory (pcbs cur) fd
  shown : ∃ before, names image index = before ++ names image i ∧ i = index + before.length ∧
    Holding image behind cur pcbs i heard (printed ++ lines before) view

/-- The line of a name that fits is printed whole. -/
theorem line_shown {length : Nat} {chars : List Byte} {memory : UserMemory}
    (fits : name.strlen < SBUFSIZE)
    (isLine : memory = onStack (Function.update (strcpy buf name) name.strlen 10) SBUFSIZE
      (above fd name.strlen))
    (measured : strlen memory = .done length)
    (same : chars.map some = (List.range (min (name.strlen + 1) length)).map memory) :
    chars = name.bytes ++ [10] := by
  have size : (name.bytes ++ [10]).length = name.strlen + 1 := by
    rw [List.length_append]
    rfl
  have loaded : ∀ j (inside : j < (name.bytes ++ [10]).length),
      memory j = some (name.bytes ++ [10])[j] := by
    intro j inside
    rw [size] at inside
    rw [isLine]
    simp only [onStack, if_pos (Nat.lt_of_lt_of_le inside fits)]
    by_cases last : j = name.strlen
    · subst last
      rw [Function.update_self]
      congr 1
      exact (List.getElem_concat_length rfl _).symm
    · have within : j < name.strlen := by omega
      rw [Function.update_of_ne last, strcpy, if_pos (Nat.le_of_lt within), CString.char_of_lt within,
        List.getElem_append_left within]
      rfl
  rw [← size] at same
  rw [shown_eq_takeWhile measured loaded same]
  refine List.takeWhile_eq_self_iff.mpr fun byte member => decide_eq_true ?_
  rcases List.mem_append.mp member with inName | isNewline
  · exact name.nonzero byte inName
  · rw [List.mem_singleton.mp isNewline]
    decide

theorem round_lists (fits : NamesFit image index) (terminated : Terminated above)
    (listing : Listing image behind cur fd index pcbs heard printed i view) :
    Program.Meets (kernelContract image behind)
      (fun outcome next => outcome.elim
        (fun _ => Listing image behind cur fd index pcbs heard printed (i + 1) next ∧ i < entryCount image)
        (fun value => value = 0 ∧ Holding image behind cur pcbs (indexAfter image index) heard
          (printed ++ lines (names image index)) next))
      (round above fd buf) view := by
  obtain ⟨directory, before, whole, position, holding⟩ := listing
  by_cases ended : entryCount image ≤ i
  · rw [names_of_ended ended, List.append_nil] at whole
    have atEnd : indexAfter image index = 0 := by
      rw [indexAfter, whole, if_neg (by omega)]
    refine Program.meets_bind.mpr ((holding.listsEnd directory ended buf).mono
      fun reply next answered => ?_)
    obtain ⟨rfl, held⟩ := answered
    dsimp only
    rw [if_pos rfl, atEnd, whole]
    exact ⟨rfl, held⟩
  · have inside : i < entryCount image := by omega
    obtain ⟨name, named, room⟩ := fits i (by omega) inside
    have rest : names image i = if name.strlen = 0 then [] else name :: names image (i + 1) :=
      names_of_named inside named
    refine Program.meets_bind.mpr ((holding.listsEntry directory inside named buf).mono
      fun reply read answered => ?_)
    obtain ⟨rfl, held⟩ := answered
    dsimp only
    by_cases empty : name.strlen = 0
    · rw [rest, if_pos empty, List.append_nil] at whole
      have atEmpty : indexAfter image index = i + 1 := by
        rw [indexAfter, whole, ← position, if_pos inside]
      rw [if_pos (by omega), atEmpty, whole]
      exact ⟨rfl, held⟩
    · rw [rest, if_neg empty] at whole
      rw [if_neg (by omega), if_neg (by omega), if_pos (by omega), Int.toNat_natCast]
      obtain ⟨extent, ends, small⟩ := terminated fd name.strlen
      have bounded : SBUFSIZE + extent < 4294967296 := by
        unfold SBUFSIZE
        omega
      obtain ⟨total, bound, measured⟩ : ∃ total ≤ SBUFSIZE + extent,
          strlen (onStack (Function.update (strcpy buf name) name.strlen 10) SBUFSIZE
            (above fd name.strlen)) = .done total := onStack_strlen ends bounded
      refine Program.meets_bind.mpr ((held.writes measured).mono fun value next wrote => ?_)
      obtain ⟨rfl, chars, same, after⟩ := wrote
      have count : ((name.strlen : Int) + 1).toNat = name.strlen + 1 := rfl
      rw [count] at same
      have shows := line_shown room rfl measured same
      unfold SBUFSIZE at bound
      rw [int32_of_lt (by omega), if_neg (by omega)]
      refine ⟨⟨directory, before ++ [name], ?_, ?_, ?_⟩, inside⟩
      · rw [whole, List.append_assoc]
        rfl
      · rw [List.length_append, List.length_singleton]
        omega
      · rw [lines, List.flatMap_append, List.flatMap_singleton, ← shows, ← List.append_assoc]
        exact after

theorem loop_lists {fuel : Nat} (fits : NamesFit image index) (terminated : Terminated above)
    (directory : ReadsDirectory (pcbs cur) fd)
    (holding : Holding image behind cur pcbs index heard printed view)
    (enough : entryCount image - index < fuel) :
    Program.Meets (kernelContract image behind)
      (fun value next => value = 0 ∧ Holding image behind cur pcbs (indexAfter image index) heard
        (printed ++ lines (names image index)) next)
      (Program.loop (round above fd) fuel buf) view := by
  have rounds : ∀ (buf : Nat → Byte) (view : ProcessView),
      (∃ i, Listing image behind cur fd index pcbs heard printed i view) →
      Program.Meets (kernelContract image behind)
        (fun outcome next => outcome.elim
          (fun _ => (∃ i, Listing image behind cur fd index pcbs heard printed i next) ∧
            entryCount image - next.driver.kernel.currentDirIndex <
              entryCount image - view.driver.kernel.currentDirIndex)
          (fun value => value = 0 ∧ Holding image behind cur pcbs (indexAfter image index) heard
            (printed ++ lines (names image index)) next))
        (round above fd buf) view := by
    intro buf view between
    obtain ⟨i, listing⟩ := between
    refine (round_lists fits terminated listing).mono fun outcome next kept => ?_
    cases outcome with
    | inl again =>
        obtain ⟨relisting, inside⟩ := kept
        obtain ⟨_, _, _, held⟩ := listing.shown
        obtain ⟨_, _, _, heldNext⟩ := relisting.shown
        refine ⟨⟨i + 1, relisting⟩, ?_⟩
        rw [held.index, heldNext.index]
        omega
    | inr value => exact kept
  have begun : ∃ i, Listing image behind cur fd index pcbs heard printed i view := by
    refine ⟨index, directory, [], rfl, rfl, ?_⟩
    rw [lines, List.flatMap_nil, List.append_nil]
    exact holding
  have few : entryCount image - view.driver.kernel.currentDirIndex < fuel := by
    rw [holding.index]
    exact enough
  exact Program.Meets.loop_of_measure rounds begun few

theorem main_lists {dentry : Dentry} {fuel : Nat} (openable : Openable image dot dentry)
    (directory : dentry.fileType = 1) (free : freeDescriptor (pcbs cur) = some fd)
    (fits : NamesFit image index) (terminated : Terminated above)
    (holding : Holding image behind cur pcbs index heard printed view)
    (enough : entryCount image - index < fuel) :
    Program.Meets (kernelContract image behind)
      (fun value next => value = 0 ∧ ∃ after, Holding image behind cur after
        (indexAfter image index) heard (printed ++ lines (names image index)) next)
      (main above fuel buf) view := by
  obtain ⟨low, high, _⟩ := freeDescriptor_eq_some.mp free
  refine Program.meets_bind.mpr ((holding.opens openable free).mono fun value opened answered => ?_)
  obtain ⟨rfl, held⟩ := answered
  rw [if_neg (by omega)]
  have reads : ReadsDirectory (Function.update pcbs cur
      ((pcbs cur).setFd fd (describe dot dentry ((pcbs cur).fd fd))) cur) fd := by
    rw [Function.update_self]
    refine ⟨?_, ?_⟩
    · rw [Int.toNat_natCast, Pcb.setFd_self, describe_flags]
      omega
    · rw [Int.toNat_natCast, Pcb.setFd_self]
      simp only [describe, directory]
      rfl
  refine (loop_lists fits terminated reads held enough).mono fun value next listed => ?_
  exact ⟨listed.1, _, listed.2⟩

/-- `ls` prints the names from the shared index on, one a line, up to the first
empty one, and leaves the index behind that or at the first entry. -/
theorem ls_lists_directory {driver : TerminalDriver} {command : CString} {frame : CallFrame}
    {entry : Word} {kernel : Kernel} {dentry : Dentry} {fuel : Nat}
    (reachable : ConsoleReachable image behind driver) (short : ShortCommand command)
    (executed : driver.kernel.execute image (some command) frame = .done (.iret entry, kernel))
    (openable : Openable image dot dentry) (directory : dentry.fileType = 1)
    (fits : NamesFit image kernel.currentDirIndex) (terminated : Terminated above)
    (enough : entryCount image - kernel.currentDirIndex < fuel) :
    ∃ slot, findProgramid kernel.cr3 = .done slot ∧
      Program.Completes (kernelContract image behind)
        (fun value final => value = 0 ∧
          final.printed = lines (names image kernel.currentDirIndex) ∧
          final.driver.kernel.currentDirIndex = indexAfter image kernel.currentDirIndex ∧
          RunsAs image behind slot final.driver)
        (main above fuel buf) ⟨{ driver with kernel }, [], []⟩ := by
  obtain ⟨slot, started⟩ := execute_started reachable short executed
  refine ⟨slot, started.running.current, ?_⟩
  refine completes_of_meets ((main_lists openable directory started.free fits terminated
    started.holding enough).mono fun value final listed => ?_)
  obtain ⟨zero, after, holding⟩ := listed
  exact ⟨zero, holding.printed, holding.index, holding.running⟩

/-- The shell and the directory itself. -/
theorem ls_lists_directory_shell :
    ∃ driver entry kernel, ConsoleReachable listedImage zeroedTables driver ∧
      driver.kernel.execute listedImage (some shellCommand) zeroedFrame =
        .done (.iret entry, kernel) ∧
      ∃ slot, findProgramid kernel.cr3 = .done slot ∧
        Program.Completes (kernelContract listedImage zeroedTables)
          (fun value final => value = 0 ∧
            final.printed = lines (names listedImage kernel.currentDirIndex) ∧
            final.driver.kernel.currentDirIndex =
              indexAfter listedImage kernel.currentDirIndex ∧
            RunsAs listedImage zeroedTables slot final.driver)
          (main (fun _ _ => CString.empty.memory) 3 fun _ => 0) ⟨{ driver with kernel }, [], []⟩ := by
  obtain ⟨driver, entry, kernel, reachable, executed, fresh⟩ :=
    bootedShell_executes listedImage_valid zeroedTables commandName_shellCommand shellCommand_short
  have count : entryCount listedImage = 2 := by decide +kernel
  have fits : NamesFit listedImage kernel.currentDirIndex := by
    intro i low inside
    rw [count] at inside
    have either : i = 0 ∨ i = 1 := by omega
    rcases either with rfl | rfl
    · exact ⟨_, listedImage_shell, by decide⟩
    · exact ⟨_, listedImage_second, by decide⟩
  have terminated : Terminated fun _ _ => CString.empty.memory :=
    fun _ _ => ⟨0, strlen_memory _ (by decide), by decide⟩
  have enough : entryCount listedImage - kernel.currentDirIndex < 3 := by omega
  exact ⟨driver, entry, kernel, reachable, executed, ls_lists_directory reachable
    shellCommand_short executed listedImage_dot (by decide +kernel) fits terminated enough⟩

end Ls

end Ece391
