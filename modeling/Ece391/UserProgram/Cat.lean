import Ece391.UserProgram.Launch

namespace Ece391

open Library Kernel

/-! # ece391cat.c -/

namespace Cat

def couldNotReadArguments : CString := ⟨bytesOf "could not read arguments\n", by decide +kernel⟩

def fileNotFound : CString := ⟨bytesOf "file not found\n", by decide +kernel⟩

def fileReadFailed : CString := ⟨bytesOf "file read failed\n", by decide +kernel⟩

/-- One round of the loop.  What lies above `buf` on the stack depends on the
other two locals. -/
def round (above : Int → Int → UserMemory) (fd : Int) (buf : Nat → Byte) :
    UserProgram ((Nat → Byte) ⊕ Int) := do
  let (cnt, buf) ← ece391Read fd buf 1024
  if cnt = 0 then return .inr 0
  else if cnt = -1 then do
    ece391Fdputs 1 fileReadFailed.memory
    return .inr 3
  else do
    let written ← ece391Write 1 (onStack buf 1024 (above fd cnt)) cnt
    if written = -1 then return .inr 3
    else return .inl buf

def main (above : Int → Int → UserMemory) (fuel : Nat) (buf : Nat → Byte) : UserProgram Int := do
  let (value, buf) ← ece391Getargs buf 1024
  if value ≠ 0 then do
    ece391Fdputs 1 couldNotReadArguments.memory
    return 3
  else
    match stringAt buf 1024 0 with
    | none => .cut
    | some filename => do
        let fd ← ece391Open filename
        if fd = -1 then do
          ece391Fdputs 1 fileNotFound.memory
          return 2
        else Program.loop (round above fd) fuel buf

/-- What a write shows of the chunk that a read has brought: `terminal_write`
stops at a NUL. -/
def chunk (contents : List Byte) (k : Nat) : List Byte :=
  ((contents.drop (1024 * k)).take 1024).takeWhile (· ≠ 0)

/-- What `cat` prints of a file. -/
def output (contents : List Byte) : List Byte :=
  (List.range (contents.length / 1024 + 1)).flatMap (chunk contents)

variable {contents items : List Byte} {k : Nat} {buf : Nat → Byte} {memory : UserMemory}

theorem chunk_of_ended (ended : contents.length ≤ 1024 * k) : chunk contents k = [] := by
  rw [chunk, List.drop_eq_nil_of_le ended]
  rfl

/-- Chunks behind the end of the file show nothing. -/
theorem flatMap_chunk (ended : contents.length ≤ 1024 * k) {more : Nat} (later : k ≤ more) :
    (List.range more).flatMap (chunk contents) = (List.range k).flatMap (chunk contents) := by
  induction more, later using Nat.le_induction with
  | base => rfl
  | succ more reached ih =>
      rw [List.range_succ, List.flatMap_append, List.flatMap_singleton, ih,
        chunk_of_ended (by omega), List.append_nil]

theorem output_eq (ended : contents.length ≤ 1024 * k) :
    output contents = (List.range k).flatMap (chunk contents) := by
  have whole : contents.length ≤ 1024 * (contents.length / 1024 + 1) := by omega
  rcases Nat.le_total k (contents.length / 1024 + 1) with early | late
  · exact flatMap_chunk ended early
  · exact (flatMap_chunk whole late).symm

/-- A file without NULs is printed as it is. -/
theorem output_of_nonzero (nonzero : ∀ byte ∈ contents, byte ≠ 0) : output contents = contents := by
  have chunks : ∀ k, (List.range k).flatMap (chunk contents) = contents.take (1024 * k) := by
    intro k
    induction k with
    | zero => rfl
    | succ k ih =>
        have all : ∀ byte ∈ (contents.drop (1024 * k)).take 1024, decide (byte ≠ 0) = true := by
          intro byte member
          exact decide_eq_true (nonzero byte (List.mem_of_mem_drop (List.mem_of_mem_take member)))
        rw [List.range_succ, List.flatMap_append, List.flatMap_singleton, ih, chunk,
          List.takeWhile_eq_self_iff.mpr all, Nat.mul_succ, List.take_add]
  rw [output, chunks]
  exact List.take_of_length_le (by omega)

variable {image : Image} {behind : BehindTables} {view : ProcessView} {cur fd index : Nat}
  {start : Nat → Pcb} {heard printed : List Byte} {name : CString} {above : Int → Int → UserMemory}

/-- Between two rounds: `k` chunks were read and shown. -/
structure Shown (image : Image) (behind : BehindTables) (cur fd : Nat) (name : CString)
    (contents : List Byte) (start : Nat → Pcb) (index : Nat) (heard printed : List Byte) (k : Nat)
    (view : ProcessView) : Prop where
  handle : ∃ delivered cursor, cursor.contents = contents ∧
    cursor.position = min (1024 * k) contents.length ∧
    HandleMatches image ((view.driver.kernel.pcb cur).fd fd) name delivered cursor
  others : ∀ other, other ≠ cur → view.driver.kernel.pcb other = start other
  holding : Holding image behind cur view.driver.kernel.pcb index heard
    (printed ++ (List.range k).flatMap (chunk contents)) view

/-- The rounds that are left. -/
def remaining (contents : List Byte) (cur fd : Nat) (view : ProcessView) : Nat :=
  (contents.length - ((view.driver.kernel.pcb cur).fd fd).filePosition + 1023) / 1024

/-- The file was printed. -/
def Printed (image : Image) (behind : BehindTables) (cur : Nat) (contents : List Byte)
    (start : Nat → Pcb) (index : Nat) (heard printed : List Byte) (view : ProcessView) : Prop :=
  (∀ other, other ≠ cur → view.driver.kernel.pcb other = start other) ∧
    Holding image behind cur view.driver.kernel.pcb index heard (printed ++ output contents) view

theorem round_shows (wellFormed : WellFormed image) (terminated : Terminated above) (low : 2 ≤ fd)
    (high : fd ≤ 7) (shown : Shown image behind cur fd name contents start index heard printed k view) :
    Program.Meets (kernelContract image behind)
      (fun outcome next => outcome.elim
        (fun _ => Shown image behind cur fd name contents start index heard printed (k + 1) next ∧
          remaining contents cur fd next < remaining contents cur fd view)
        (fun value => value = 0 ∧ Printed image behind cur contents start index heard printed next))
      (round above fd buf) view := by
  obtain ⟨⟨delivered, cursor, whole, position, handle⟩, others, holding⟩ := shown
  have length := cursor.next_length 1024
  rw [whole, position] at length
  refine Program.meets_bind.mpr ((holding.readsFile wellFormed low high handle buf (by decide)
    (by decide)).mono fun reply read answered => ?_)
  obtain ⟨rfl, held⟩ := answered
  have count : (1024 : Int).toNat = 1024 := rfl
  rw [count] at held ⊢
  have otherBlocks : ∀ other, other ≠ cur → read.driver.kernel.pcb other = start other := by
    intro other different
    rw [held.pcb, Function.update_of_ne different]
    exact others other different
  dsimp only
  by_cases ended : contents.length ≤ 1024 * k
  · have nothing : cursor.next 1024 = [] := List.eq_nil_of_length_eq_zero (by omega)
    rw [nothing, List.length_nil, if_pos (by rfl)]
    refine ⟨rfl, otherBlocks, ?_⟩
    rw [output_eq ended, held.pcb]
    exact held
  · have isChunk : cursor.next 1024 = (contents.drop (1024 * k)).take 1024 := by
      rw [Cursor.next, whole, position, Nat.min_eq_left (by omega)]
    have delivers : ¬ ((cursor.next 1024).length : Int) = 0 := by omega
    have noError : ¬ ((cursor.next 1024).length : Int) = -1 := by omega
    rw [if_neg delivers, if_neg noError]
    obtain ⟨room, ends, small⟩ := terminated fd (cursor.next 1024).length
    obtain ⟨total, bound, measured⟩ : ∃ total ≤ 1024 + room,
        strlen (onStack (fun j => (cursor.next 1024).getD j (buf j)) 1024
          (above fd (cursor.next 1024).length)) = .done total := onStack_strlen ends (by omega)
    refine Program.meets_bind.mpr ((held.writes measured).mono fun value next wrote => ?_)
    obtain ⟨rfl, chars, same, after⟩ := wrote
    rw [int32_of_lt (by omega), if_neg (by omega)]
    have shows : chars = chunk contents k := by
      rw [chunk, ← isChunk]
      refine shown_eq_takeWhile measured (fun j inside => ?_) ?_
      · have below : j < 1024 := by omega
        simp only [onStack, if_pos below, List.getD_eq_getElem?_getD,
          List.getElem?_eq_getElem inside, Option.getD_some]
      · rw [Int.toNat_natCast] at same
        exact same
    have advanced := cursor.advance_position 1024
    rw [whole, position] at advanced
    have blocks := after.pcb
    have moved : HandleMatches image ((next.driver.kernel.pcb cur).fd fd) name
        (delivered ++ cursor.next 1024) (cursor.advance 1024) := by
      rw [blocks, Function.update_self, Pcb.setFd_self]
      exact handle.advance 1024
    have atChunk : (cursor.advance 1024).position = min (1024 * (k + 1)) contents.length := by
      omega
    refine ⟨⟨⟨_, cursor.advance 1024, whole, atChunk, moved⟩, ?_, ?_⟩, ?_⟩
    · intro other different
      rw [blocks, Function.update_of_ne different]
      exact others other different
    · rw [List.range_succ, List.flatMap_append, List.flatMap_singleton, ← shows, ← List.append_assoc,
        blocks]
      exact after
    · have later := moved.filePosition
      have before := handle.filePosition
      simp only [remaining]
      omega

theorem loop_prints (wellFormed : WellFormed image) (terminated : Terminated above) (low : 2 ≤ fd)
    (high : fd ≤ 7) (shown : Shown image behind cur fd name contents start index heard printed k view)
    {fuel : Nat} (enough : remaining contents cur fd view < fuel) :
    Program.Meets (kernelContract image behind)
      (fun value next => value = 0 ∧ Printed image behind cur contents start index heard printed next)
      (Program.loop (round above fd) fuel buf) view := by
  have rounds : ∀ (buf : Nat → Byte) (view : ProcessView),
      (∃ k, Shown image behind cur fd name contents start index heard printed k view) →
      Program.Meets (kernelContract image behind)
        (fun outcome next => outcome.elim
          (fun _ => (∃ k, Shown image behind cur fd name contents start index heard printed k next) ∧
            remaining contents cur fd next < remaining contents cur fd view)
          (fun value => value = 0 ∧ Printed image behind cur contents start index heard printed next))
        (round above fd buf) view := by
    intro buf view between
    obtain ⟨k, shown⟩ := between
    refine (round_shows wellFormed terminated low high shown).mono fun outcome next kept => ?_
    cases outcome with
    | inl again => exact ⟨⟨k + 1, kept.1⟩, kept.2⟩
    | inr value => exact kept
  have initial : ∃ k, Shown image behind cur fd name contents start index heard printed k view := ⟨k, shown⟩
  exact Program.Meets.loop_of_measure rounds initial enough

/-- `cat` of a regular file with a free descriptor. -/
theorem main_prints {pcbs : Nat → Pcb} {dentry : Dentry} {fuel : Nat}
    (wellFormed : WellFormed image) (terminated : Terminated above)
    (holding : Holding image behind cur pcbs index heard printed view)
    (given : stringAt (pcbs cur).argument ARGUMENT_LEN 0 = some name)
    (file : RegularFile image name dentry) (free : freeDescriptor (pcbs cur) = some fd)
    (enough : image.inodeLength dentry.inodeNum / 1024 + 1 < fuel) :
    Program.Meets (kernelContract image behind)
      (fun value next => value = 0 ∧
        Printed image behind cur (fileContents image dentry.inodeNum) pcbs index heard printed next)
      (main above fuel buf) view := by
  obtain ⟨low, high, _⟩ := freeDescriptor_eq_some.mp free
  have short := file.short
  unfold CHAR_LENGTH at short
  refine Program.meets_bind.mpr ((holding.getsArgs given (by omega) buf).mono
    fun reply asked answered => ?_)
  obtain ⟨rfl, held⟩ := answered
  dsimp only
  have filename : stringAt (strcpy buf name) 1024 0 = some name := stringAt_strcpy (by omega)
  rw [if_neg (by decide), filename]
  refine Program.meets_bind.mpr ((held.opens file.openable free).mono fun value opened answered => ?_)
  obtain ⟨rfl, holds⟩ := answered
  rw [if_neg (by omega)]
  have own : (opened.driver.kernel.pcb cur).fd fd = describe name dentry ((pcbs cur).fd fd) := by
    rw [holds.pcb, Function.update_self, Pcb.setFd_self]
  have begun : Shown image behind cur fd name (fileContents image dentry.inodeNum) pcbs index
      heard printed 0 opened := by
    refine ⟨⟨[], .start _, rfl, ?_, ?_⟩, fun other different => ?_, ?_⟩
    · rw [Nat.mul_zero, Nat.zero_min]
      rfl
    · rw [own]
      exact describe_matches file _
    · rw [holds.pcb, Function.update_of_ne different]
    · rw [holds.pcb]
      simp only [List.range_zero, List.flatMap_nil, List.append_nil]
      exact holds
  have length : (fileContents image dentry.inodeNum).length = image.inodeLength dentry.inodeNum := by
    rw [fileContents, List.length_map, List.length_range]
  refine loop_prints wellFormed terminated low high begun ?_
  simp only [remaining, length]
  omega

/-- `cat` with the name of a regular file prints, of every 1024 bytes of the
file, those before the first NUL, and returns 0: all of a file without NULs. -/
theorem cat_prints_file {driver : TerminalDriver} {command : CString} {frame : CallFrame}
    {entry : Word} {kernel : Kernel} {dentry : Dentry} {fuel : Nat}
    (reachable : ConsoleReachable image behind driver) (wellFormed : WellFormed image)
    (short : ShortCommand command)
    (executed : driver.kernel.execute image (some command) frame = .done (.iret entry, kernel))
    (file : RegularFile image (commandArgument command) dentry) (terminated : Terminated above)
    (enough : image.inodeLength dentry.inodeNum / 1024 + 1 < fuel) :
    ∃ slot, findProgramid kernel.cr3 = .done slot ∧
      Program.Completes (kernelContract image behind)
        (fun value final => value = 0 ∧
          final.printed = output (fileContents image dentry.inodeNum) ∧
          RunsAs image behind slot final.driver ∧
          ∀ other, other ≠ slot → final.driver.kernel.pcb other = kernel.pcb other)
        (main above fuel buf) ⟨{ driver with kernel }, [], []⟩ ∧
      ((∀ byte ∈ fileContents image dentry.inodeNum, byte ≠ 0) →
        output (fileContents image dentry.inodeNum) = fileContents image dentry.inodeNum) := by
  obtain ⟨slot, started⟩ := execute_started reachable short executed
  refine ⟨slot, started.running.current, ?_, output_of_nonzero⟩
  refine completes_of_meets ((main_prints wellFormed terminated started.holding started.argument
    file started.free enough).mono fun value final printed => ?_)
  obtain ⟨zero, others, holding⟩ := printed
  exact ⟨zero, holding.printed, holding.running, others⟩

/-- "shell shell" -/
def shellOfShell : CString := ⟨bytesOf "shell shell", by decide +kernel⟩

/-- The program that a shell starts on its own file prints its first four bytes. -/
theorem cat_prints_file_shell :
    ∃ driver entry kernel, ConsoleReachable shellImage zeroedTables driver ∧
      driver.kernel.execute shellImage (some shellOfShell) zeroedFrame =
        .done (.iret entry, kernel) ∧
      ∃ slot, findProgramid kernel.cr3 = .done slot ∧
        Program.Completes (kernelContract shellImage zeroedTables)
          (fun value final => value = 0 ∧
            final.printed = output (fileContents shellImage (shellImage.dirEntry 0).inodeNum) ∧
            RunsAs shellImage zeroedTables slot final.driver ∧
            ∀ other, other ≠ slot → final.driver.kernel.pcb other = kernel.pcb other)
          (main (fun _ _ => CString.empty.memory) 2 fun _ => 0) ⟨{ driver with kernel }, [], []⟩ ∧
        ((∀ byte ∈ fileContents shellImage (shellImage.dirEntry 0).inodeNum, byte ≠ 0) →
          output (fileContents shellImage (shellImage.dirEntry 0).inodeNum) =
            fileContents shellImage (shellImage.dirEntry 0).inodeNum) := by
  have name : commandName shellOfShell = shellCommand := by decide
  have argument : commandArgument shellOfShell = shellCommand := by decide
  have short : ShortCommand shellOfShell := ⟨by decide, by decide⟩
  obtain ⟨driver, entry, kernel, reachable, executed, _⟩ :=
    bootedShell_executes shellImage_valid zeroedTables name short
  have file : RegularFile shellImage (commandArgument shellOfShell) (shellImage.dirEntry 0) := by
    rw [argument]
    exact shellImage_regular
  have terminated : Terminated fun _ _ => CString.empty.memory :=
    fun _ _ => ⟨0, strlen_memory _ (by decide), by decide⟩
  have enough : shellImage.inodeLength (shellImage.dirEntry 0).inodeNum / 1024 + 1 < 2 := by
    decide +kernel
  exact ⟨driver, entry, kernel, reachable, executed,
    cat_prints_file reachable shellImage_wellFormed short executed file terminated enough⟩

end Cat

end Ece391
