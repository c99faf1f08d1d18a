import Mathlib.Data.Nat.Find
import Ece391.UserProgram.Calls

namespace Ece391

open Library Kernel

/-! # What a running process can rely on

Every call of a process, and every key pressed between its calls, is a step of
the machine with its screen and its keyboard.
-/

/-- A state to which a run from boot leads. -/
def ConsoleReachable (image : Image) (behind : BehindTables) (driver : TerminalDriver) : Prop :=
  ∃ first keyboard inputs, FirstShell image first ∧ BootMessages first ∧
    (consoleSystem image behind).Respects (TerminalDriver.StartsShells image behind)
      ⟨first, keyboard⟩ inputs ∧
    (consoleSystem image behind).run ⟨first, keyboard⟩ inputs = some driver

/-- Process `cur` is the one that runs. -/
structure RunsAs (image : Image) (behind : BehindTables) (cur : Nat) (driver : TerminalDriver) :
    Prop where
  reachable : ConsoleReachable image behind driver
  current : findProgramid driver.kernel.cr3 = .done cur

/-- What the drawing of a console leaves alone. -/
structure SameFiles (kernel after : Kernel) : Prop where
  cr3 : after.cr3 = kernel.cr3
  pcb : after.pcb = kernel.pcb
  currentDirIndex : after.currentDirIndex = kernel.currentDirIndex

section Steps

variable {image : Image} {behind : BehindTables} {driver next later : TerminalDriver}
  {kernel after : Kernel} {input : ConsoleInput} {cur : Nat}

theorem ConsoleReachable.step (reachable : ConsoleReachable image behind driver)
    (starts : driver.StartsShells image behind input)
    (stepped : driver.step image behind input = some next) :
    ConsoleReachable image behind next := by
  obtain ⟨first, keyboard, inputs, started, messages, respects, ran⟩ := reachable
  have last : (consoleSystem image behind).run driver [input] = some next :=
    Transitions.run_singleton.trans stepped
  refine ⟨first, keyboard, inputs ++ [input], started, messages, ?_, ?_⟩
  · exact (Transitions.respects_append ran).mpr ⟨respects, starts, fun _ _ => trivial⟩
  · exact Transitions.run_append.mpr ⟨driver, ran, last⟩

theorem ConsoleReachable.attended (reachable : ConsoleReachable image behind driver) :
    CursorsInRows driver.kernel ∧ ∃ processes, Attended driver.kernel processes := by
  obtain ⟨first, keyboard, inputs, started, messages, respects, ran⟩ := reachable
  exact run_inRows started messages respects ran

theorem SameFiles.refl (kernel : Kernel) : SameFiles kernel kernel := ⟨rfl, rfl, rfl⟩

theorem SameFiles.trans {middle : Kernel} (first : SameFiles kernel middle)
    (second : SameFiles middle after) : SameFiles kernel after :=
  ⟨second.cr3.trans first.cr3, second.pcb.trans first.pcb,
    second.currentDirIndex.trans first.currentDirIndex⟩

theorem setConsole_same (kernel : Kernel) (cached : Nat → Bool) (console : Console) :
    SameFiles kernel (kernel.setConsole cached console) := ⟨rfl, rfl, rfl⟩

theorem resetLine_same {index : Int} (reset : kernel.resetLine index = .done after) :
    SameFiles kernel after := by
  simp only [resetLine] at reset
  split at reset
  · cases reset
    exact ⟨rfl, rfl, rfl⟩
  · cases reset

theorem keyHandled_same {scancode : Byte} {irq : IrqFrame} {cached : Nat → Bool}
    {term : Option Int} (done : driver.keyHandled behind scancode irq cached = .done (term, next)) :
    SameFiles driver.kernel next.kernel := by
  obtain ⟨⟨asked, keyboard, console⟩, _, returned⟩ := Outcome.bind_eq_done.mp done
  cases returned
  exact ⟨rfl, rfl, rfl⟩

theorem RunsAs.of_same (running : RunsAs image behind cur driver)
    (reachable : ConsoleReachable image behind next)
    (same : SameFiles driver.kernel next.kernel) : RunsAs image behind cur next :=
  ⟨reachable, by rw [same.cr3]; exact running.current⟩

theorem KeysPressed.same (typing : KeysPressed behind driver later) : SameFiles driver.kernel later.kernel := by
  induction typing with
  | refl => exact .refl _
  | tail _ pressed ih =>
      obtain ⟨_, _, _, done⟩ := pressed
      exact ih.trans (keyHandled_same done)

theorem KeysPressed.reachable (typing : KeysPressed behind driver later)
    (reachable : ConsoleReachable image behind driver) : ConsoleReachable image behind later := by
  induction typing with
  | refl => exact reachable
  | @tail before after _ pressed ih =>
      obtain ⟨scancode, irq, cached, done⟩ := pressed
      have starts : before.StartsShells image behind
          (.key scancode irq zeroedFrame cachedNowhere cached) := by
        intro term handled asks
        cases asks.symm.trans done
      refine ih.step starts ?_
      refine Outcome.toOption_eq_some.mpr ?_
      simp only [TerminalDriver.keyPressed, done, Outcome.done_bind]
      rfl

theorem RunsAs.typed (running : RunsAs image behind cur driver)
    (typing : KeysPressed behind driver later) : RunsAs image behind cur later :=
  running.of_same (typing.reachable running.reachable) typing.same

end Steps

/-- The running process with the control blocks of all, the index that all
listings share, and what it has printed. -/
structure Holding (image : Image) (behind : BehindTables) (cur : Nat) (pcbs : Nat → Pcb)
    (index : Nat) (heard printed : List Byte) (view : ProcessView) : Prop where
  running : RunsAs image behind cur view.driver
  pcb : view.driver.kernel.pcb = pcbs
  index : view.driver.kernel.currentDirIndex = index
  heard : view.heard = heard
  printed : view.printed = printed

section Calls

variable {image : Image} {behind : BehindTables} {view : ProcessView} {driver next : TerminalDriver}
  {cur index fd : Nat} {pcbs : Nat → Pcb} {heard printed : List Byte} {name : CString} {dentry : Dentry}
  {kernel after : Kernel}

theorem Holding.typed (holding : Holding image behind cur pcbs index heard printed view)
    (typing : KeysPressed behind view.driver next) :
    Holding image behind cur pcbs index heard printed ⟨next, view.heard, view.printed⟩ :=
  ⟨holding.running.typed typing, typing.same.pcb.trans holding.pcb,
    typing.same.currentDirIndex.trans holding.index, holding.heard, holding.printed⟩

/-- A call that takes no key and prints nothing. -/
theorem Holding.silent {others : Nat → Pcb} {moved : Nat}
    (holding : Holding image behind cur pcbs index heard printed view)
    (running : RunsAs image behind cur next) (pcb : next.kernel.pcb = others)
    (sameIndex : next.kernel.currentDirIndex = moved) :
    Holding image behind cur others moved heard printed
      ⟨next, view.heard ++ [], view.printed ++ []⟩ := by
  rw [List.append_nil, List.append_nil]
  exact ⟨running, pcb, sameIndex, holding.heard, holding.printed⟩

/-- A call is judged in the states that keys may lead to before it. -/
theorem Holding.serve {call : UserCall} {result : call.Reply → ProcessView → Prop}
    (holding : Holding image behind cur pcbs index heard printed view)
    (answered : ∀ driver, Holding image behind cur pcbs index heard printed ⟨driver, view.heard, view.printed⟩ →
      ∃ reply taken chars next, Serves image behind driver call reply taken chars next)
    (answers : ∀ driver reply taken chars next,
      Holding image behind cur pcbs index heard printed ⟨driver, view.heard, view.printed⟩ →
      Serves image behind driver call reply taken chars next →
      result reply ⟨next, view.heard ++ taken, view.printed ++ chars⟩) :
    Program.Meets (kernelContract image behind) result (Program.ask call) view := by
  refine Program.meets_ask.mpr ⟨fun typed typing => ?_, fun reply final answer => ?_⟩
  · exact answered typed (holding.typed typing)
  · obtain ⟨typed, taken, chars, typing, served, input, shown⟩ := answer
    obtain ⟨last, told, output⟩ := final
    cases input
    cases shown
    exact answers typed reply taken chars last (holding.typed typing) served

theorem RunsAs.call_step {event : Event} (running : RunsAs image behind cur driver)
    (starts : ShellStarts image driver.kernel event)
    (stepped : driver.kernel.step image event = some after) (same : after.cr3 = driver.kernel.cr3) :
    RunsAs image behind cur { driver with kernel := after } := by
  have asStep : driver.step image behind (.call event) = some { driver with kernel := after } := by
    simp only [TerminalDriver.step, stepped, Option.map_some]
  have started : driver.StartsShells image behind (.call event) := starts
  have directory : findProgramid after.cr3 = .done cur := by
    rw [same]
    exact running.current
  exact ⟨running.reachable.step started asStep, directory⟩

theorem Holding.opens (holding : Holding image behind cur pcbs index heard printed view)
    (openable : Openable image name dentry) (free : freeDescriptor (pcbs cur) = some fd) :
    Program.Meets (kernelContract image behind)
      (fun value next => value = (fd : Int) ∧
        Holding image behind cur
          (Function.update pcbs cur
            ((pcbs cur).setFd fd (describe name dentry ((pcbs cur).fd fd)))) index heard printed next)
      (ece391Open name) view := by
  have opens : ∀ driver, Holding image behind cur pcbs index heard printed ⟨driver, view.heard, view.printed⟩ →
      ∃ opened, driver.kernel.sysOpen image name = .done ((fd : Int), opened) ∧
        opened.cr3 = driver.kernel.cr3 ∧
        opened.pcb = Function.update pcbs cur
          ((pcbs cur).setFd fd (describe name dentry ((pcbs cur).fd fd))) ∧
        opened.currentDirIndex = index := by
    intro driver held
    have isFree : freeDescriptor (driver.kernel.pcb cur) = some fd := by
      rw [held.pcb]
      exact free
    have done := sysOpen_openable openable held.running.current isFree
    have sameIndex := sysOpen_index done
    refine ⟨_, done, ?_, ?_, sameIndex.trans held.index⟩
    · dsimp only
      split
      · rw [rtcWrite_cr3]
        rfl
      · rfl
    · rw [← held.pcb]
      dsimp only
      split
      · rw [rtcWrite_pcb]
        rfl
      · rfl
  refine holding.serve ?_ ?_
  · intro driver held
    obtain ⟨opened, done, _⟩ := opens driver held
    exact ⟨_, _, _, _, .sysOpen done⟩
  · intro driver reply taken chars next held served
    obtain ⟨opened, done, directory, blocks, sameIndex⟩ := opens driver held
    cases served with
    | sysOpen other =>
        cases done.symm.trans other
        have stepped : driver.kernel.step image (.sysOpen name) = some opened := by
          simp only [Kernel.step, done, Outcome.toOption_done, Option.map_some]
        have starts : ShellStarts image driver.kernel (.sysOpen name) := trivial
        exact ⟨rfl, holding.silent (held.running.call_step starts stepped directory) blocks
          sameIndex⟩

theorem notTerminal {pcb : Pcb} {fd : Int} (other : (pcb.fd fd.toNat).sysopsPtr ≠ .terminalOps) :
    ¬ ReadsKeyboard pcb fd :=
  fun reads => other reads.2

/-- A read that the terminal driver does not serve. -/
theorem Holding.reads {fd nbytes value : Int} {buf bytes : Nat → Byte} {own : Pcb} {moved : Nat}
    (holding : Holding image behind cur pcbs index heard printed view)
    (other : ((pcbs cur).fd fd.toNat).sysopsPtr ≠ .terminalOps)
    (reads : ∀ kernel : Kernel, findProgramid kernel.cr3 = .done cur → kernel.pcb = pcbs →
      kernel.currentDirIndex = index → kernel.sysRead image fd (some buf) nbytes =
        .done (value, some bytes, { kernel.setPcb cur own with currentDirIndex := moved })) :
    Program.Meets (kernelContract image behind)
      (fun reply next => reply = (value, bytes) ∧
        Holding image behind cur (Function.update pcbs cur own) moved heard printed next)
      (ece391Read fd buf nbytes) view := by
  refine holding.serve ?_ ?_
  · intro driver held
    exact ⟨_, _, _, _, .sysRead (reads driver.kernel held.running.current held.pcb held.index)⟩
  · intro driver reply taken chars next held served
    have done := reads driver.kernel held.running.current held.pcb held.index
    cases served with
    | sysRead read =>
        cases done.symm.trans read
        have stepped : driver.kernel.step image (.sysRead fd (some buf) nbytes) =
            some { driver.kernel.setPcb cur own with currentDirIndex := moved } := by
          simp only [Kernel.step, done, Outcome.toOption_done, Option.map_some]
        have starts : ShellStarts image driver.kernel (.sysRead fd (some buf) nbytes) := trivial
        refine ⟨rfl, holding.silent (held.running.call_step starts stepped rfl) ?_ rfl⟩
        rw [← held.pcb]
        rfl
    | keyboard current terminal =>
        cases current.symm.trans held.running.current
        have block : driver.kernel.pcb = pcbs := held.pcb
        rw [block] at terminal
        exact absurd terminal (notTerminal other)

theorem HandleMatches.advance {descriptor : FileDescriptor} {delivered : List Byte}
    {cursor : Cursor Byte} (handle : HandleMatches image descriptor name delivered cursor)
    (count : Nat) :
    HandleMatches image { descriptor with filePosition := (cursor.advance count).position } name
      (delivered ++ cursor.next count) (cursor.advance count) :=
  ⟨handle.flags, handle.sysopsPtr, handle.fileName, handle.resolves, rfl, by
    rw [handle.delivered]
    rfl⟩

/-- A read of an open file. -/
theorem Holding.readsFile {delivered : List Byte} {cursor : Cursor Byte} {nbytes : Int}
    (holding : Holding image behind cur pcbs index heard printed view) (wellFormed : WellFormed image)
    (low : 2 ≤ fd) (high : fd ≤ 7)
    (handle : HandleMatches image ((pcbs cur).fd fd) name delivered cursor)
    (buf : Nat → Byte) (positive : 0 < nbytes) (small : nbytes < 2147483648) :
    Program.Meets (kernelContract image behind)
      (fun reply next => reply = (((cursor.next nbytes.toNat).length : Int),
          fun j => (cursor.next nbytes.toNat).getD j (buf j)) ∧
        Holding image behind cur
          (Function.update pcbs cur ((pcbs cur).setFd fd
            { (pcbs cur).fd fd with filePosition := (cursor.advance nbytes.toNat).position }))
          index heard printed next)
      (ece391Read fd buf nbytes) view := by
  refine holding.reads ?_ ?_
  · rw [Int.toNat_natCast, handle.sysopsPtr]
    exact nofun
  · intro kernel current block sameIndex
    have isOpen : HandleMatches image ((kernel.pcb cur).fd (fd : Int).toNat) name delivered cursor := by
      rw [block]
      exact handle
    rw [sysRead_open wellFormed current (by omega) (by omega) isOpen buf positive small, block,
      ← sameIndex]
    rfl

theorem setPcb_eq_self (kernel : Kernel) (cur : Nat) :
    kernel.setPcb cur (kernel.pcb cur) = kernel := by
  simp only [setPcb, Function.update_eq_self]

/-- A read of the directory, which may come to its end. -/
theorem Holding.lists {fd nbytes value : Int} {buf bytes : Nat → Byte} {moved : Nat}
    (holding : Holding image behind cur pcbs index heard printed view)
    (directory : ReadsDirectory (pcbs cur) fd)
    (entry : ∀ kernel : Kernel, kernel.currentDirIndex = index →
      kernel.readDirectory image (some buf) =
        .done (value, some bytes, { kernel with currentDirIndex := moved })) :
    Program.Meets (kernelContract image behind)
      (fun reply next => reply = (value, bytes) ∧
        Holding image behind cur pcbs moved heard printed next)
      (ece391Read fd buf nbytes) view := by
  have reads : Program.Meets (kernelContract image behind)
      (fun reply next => reply = (value, bytes) ∧
        Holding image behind cur (Function.update pcbs cur (pcbs cur)) moved heard printed next)
      (ece391Read fd buf nbytes) view := by
    refine holding.reads ?_ ?_
    · rw [directory.2]
      exact nofun
    · intro kernel current block sameIndex
      have isDirectory : ReadsDirectory (kernel.pcb cur) fd := by
        rw [block]
        exact directory
      rw [sysRead_directory current isDirectory, entry kernel sameIndex, ← block, setPcb_eq_self]
  rwa [Function.update_eq_self] at reads

theorem Holding.listsEntry {fd nbytes : Int}
    (holding : Holding image behind cur pcbs index heard printed view)
    (directory : ReadsDirectory (pcbs cur) fd) (inside : index < entryCount image)
    (named : entryName image index = some name) (buf : Nat → Byte) :
    Program.Meets (kernelContract image behind)
      (fun reply next => reply = ((name.strlen : Int), strcpy buf name) ∧
        Holding image behind cur pcbs (index + 1) heard printed next)
      (ece391Read fd buf nbytes) view := by
  apply holding.lists directory
  intro kernel sameIndex
  subst sameIndex
  exact readDirectory_entry inside named

theorem Holding.listsEnd {fd nbytes : Int}
    (holding : Holding image behind cur pcbs index heard printed view)
    (directory : ReadsDirectory (pcbs cur) fd) (ended : entryCount image ≤ index)
    (buf : Nat → Byte) :
    Program.Meets (kernelContract image behind)
      (fun reply next => reply = (0, buf) ∧ Holding image behind cur pcbs 0 heard printed next)
      (ece391Read fd buf nbytes) view := by
  apply holding.lists directory
  intro kernel sameIndex
  have behindLast : (kernel.currentDirIndex : Int) + 1 > int32 image.numDirectory := by
    unfold entryCount at ended
    omega
  simp only [readDirectory, if_pos behindLast]

/-! ### Writing to the terminal -/

/-- Behind a NUL the loop of `terminal_write` does nothing. -/
theorem writeLoop_ended {buf : UserMemory} {length : Nat} (measured : strlen buf = .done length)
    {remaining i : Nat} {toPrint : Byte} {console : Console} (low : i ≤ length)
    (enough : length - i ≤ remaining) (loaded : buf i = some toPrint) :
    console.writeLoop buf remaining i toPrint = console.writeLoop buf (length - i) i toPrint := by
  obtain ⟨_, nonzero, ended⟩ := strlen_eq_done.mp measured
  induction remaining generalizing i toPrint console with
  | zero =>
      have nothingLeft : length - i = 0 := by omega
      rw [nothingLeft]
  | succ remaining ih =>
      by_cases last : i = length
      · subst last
        obtain rfl : toPrint = 0 := Option.some.inj (loaded.symm.trans ended)
        rw [Nat.sub_self]
        simp only [Console.writeLoop, if_true]
      · have more : length - i = length - (i + 1) + 1 := by omega
        rw [more]
        simp only [Console.writeLoop]
        split
        · rfl
        · simp only [measured, Outcome.done_bind]
          cases (console.wrapLine (length > NUM_COLS)).putc toPrint with
          | done put =>
              simp only [Outcome.done_bind]
              cases next : buf (i + 1) with
              | none => rfl
              | some char =>
                  dsimp only
                  rw [ih (by omega) (by omega) next]
          | spins => rfl
          | outOfBounds => rfl
          | pageFault => rfl

theorem driverWrite_index {cached : Nat → Bool} {buf : UserMemory} {nbytes value : Int}
    {chars : List Byte} {ops : SysOps}
    (done : kernel.driverWrite cached buf nbytes ops = .done (value, chars, after)) :
    after.currentDirIndex = kernel.currentDirIndex := by
  cases ops with
  | rtcOps =>
      cases done
      exact rtcWrite_index nbytes
  | terminalOps =>
      obtain ⟨_, _, printing⟩ := Outcome.bind_eq_done.mp done
      obtain ⟨⟨_, console⟩, _, resetting⟩ := Outcome.bind_eq_done.mp printing
      obtain ⟨reset, resets, finished⟩ := Outcome.bind_eq_done.mp resetting
      cases finished
      exact (resetLine_same resets).currentDirIndex
  | directoryOps =>
      cases done
      rfl
  | fileOps =>
      cases done
      rfl
  | null => cases done
  | stray _ => cases done

theorem sysWrite_index {cached : Nat → Bool} {buf : UserMemory} {fd nbytes value : Int}
    {chars : List Byte}
    (done : kernel.sysWrite cached fd buf nbytes = .done (value, chars, after)) :
    after.currentDirIndex = kernel.currentDirIndex := by
  obtain ⟨_, _, rest⟩ := Outcome.bind_eq_done.mp done
  dsimp only at rest
  split at rest
  · cases rest
    rfl
  · obtain ⟨⟨result, output, written⟩, driving, returned⟩ := Outcome.bind_eq_done.mp rest
    have same := driverWrite_index driving
    dsimp only at returned
    split at returned
    · obtain ⟨_, _, answer⟩ := Outcome.bind_eq_done.mp returned
      cases answer
      exact same
    · cases returned
      exact same

/-- The characters that `write` prints of a string of `length` bytes. -/
theorem Holding.writes {buf : UserMemory} {nbytes : Int} {length : Nat}
    (holding : Holding image behind cur pcbs index heard printed view)
    (measured : strlen buf = .done length) :
    Program.Meets (kernelContract image behind)
      (fun value next => value = int32 length ∧ ∃ chars,
        chars.map some = (List.range (min nbytes.toNat length)).map buf ∧
        Holding image behind cur pcbs index heard (printed ++ chars) next)
      (ece391Write 1 buf nbytes) view := by
  have prints : ∀ console : Console, console.InRows → ∃ chars after,
      console.terminalWrite buf nbytes = .done (chars, after) ∧
        chars.map some = (List.range (min nbytes.toNat length)).map buf := by
    intro console inRows
    obtain ⟨_, nonzero, ended⟩ := strlen_eq_done.mp measured
    obtain ⟨toPrint, loaded⟩ : ∃ toPrint, buf 0 = some toPrint := by
      by_cases empty : length = 0
      · exact ⟨0, by rw [← empty, ended]⟩
      · obtain ⟨byte, present, _⟩ := nonzero 0 (by omega)
        exact ⟨byte, present⟩
    simp only [Console.terminalWrite, loaded]
    rw [List.range_eq_range']
    by_cases short : nbytes.toNat ≤ length
    · rw [Nat.min_eq_left short]
      exact inRows.prints measured (by omega) loaded
    · rw [writeLoop_ended measured (Nat.zero_le _) (by omega) loaded, Nat.min_eq_right (by omega),
        Nat.sub_zero]
      exact inRows.prints measured (by omega) loaded
  refine holding.serve ?_ ?_
  · intro driver held
    obtain ⟨inRows, processes, attended⟩ := held.running.reachable.attended
    obtain ⟨chars, console, writes, _⟩ := prints driver.kernel.shownConsole (inRows _)
    obtain ⟨after, done⟩ := attended.writes (fun _ => false) writes measured
    exact ⟨_, _, _, _, .sysWrite done⟩
  · intro driver reply taken chars next held served
    obtain ⟨inRows, processes, attended⟩ := held.running.reachable.attended
    cases served with
    | @sysWrite _ _ _ cached _ after done =>
        obtain ⟨other, console, measuredAgain, value, writes, draws⟩ := attended.write done
        obtain rfl : other = length := Outcome.done.inj (measuredAgain.symm.trans measured)
        obtain ⟨written, last, again, same⟩ := prints driver.kernel.shownConsole (inRows _)
        cases writes.symm.trans again
        have stepped : driver.step image behind (.write buf nbytes cached) =
            some { driver with kernel := after } := by
          simp only [TerminalDriver.step, done, Outcome.toOption_done, Option.map_some]
        have starts : driver.StartsShells image behind (.write buf nbytes cached) := trivial
        have reachable := held.running.reachable.step starts stepped
        refine ⟨value, chars, same, ⟨reachable, ?_⟩, draws.pcb.trans held.pcb,
          (sysWrite_index done).trans held.index, ?_, ?_⟩
        · rw [draws.cr3]
          exact held.running.current
        · rw [List.append_nil]
          exact holding.heard
        · rw [holding.printed]
    | refusedWrite other _ => exact absurd rfl other

/-- A string that lies on one page or more is printed whole. -/
theorem Holding.puts {s : UserMemory} {text : List Byte} {length : Nat}
    (holding : Holding image behind cur pcbs index heard printed view)
    (measured : strlen s = .done length) (small : length < 2147483648)
    (loaded : text.map some = (List.range length).map s) :
    Program.Meets (kernelContract image behind)
      (fun _ next => Holding image behind cur pcbs index heard (printed ++ text) next)
      (ece391Fdputs 1 s) view := by
  have hasLength : ece391Strlen s = .done length := measured
  simp only [ece391Fdputs, hasLength]
  refine Program.meets_bind.mpr ((holding.writes measured).mono fun value next written => ?_)
  obtain ⟨_, chars, same, held⟩ := written
  rw [int32_of_lt small, Int.toNat_natCast, Nat.min_self, ← loaded] at same
  have equal : chars = text := List.map_injective_iff.mpr (Option.some_injective Byte) same
  rw [← equal]
  exact held

theorem strlen_memory (string : CString) (small : string.strlen < 4294967296) :
    strlen string.memory = .done string.strlen := by
  refine strlen_eq_done.mpr ⟨small, fun j below => ?_, ?_⟩
  · refine ⟨string.char j, ?_, CString.char_ne_zero below⟩
    simp only [CString.memory, if_pos (Nat.le_of_lt below)]
  · simp only [CString.memory, if_pos (Nat.le_refl _)]
    rw [CString.char_of_ge (Nat.le_refl _)]

theorem map_some_bytes (string : CString) :
    string.bytes.map some = (List.range string.strlen).map string.memory := by
  apply List.ext_getElem
  · simp only [List.length_map, List.length_range, CString.strlen]
  · intro i inside inRange
    have below : i < string.strlen := by
      rw [List.length_map] at inside
      exact inside
    simp only [List.getElem_map, List.getElem_range, CString.memory]
    rw [if_pos (Nat.le_of_lt below), CString.char_of_lt below]
    rfl

/-- A message of the program text. -/
theorem Holding.putsMessage {message : CString}
    (holding : Holding image behind cur pcbs index heard printed view)
    (small : message.strlen < 2147483648) :
    Program.Meets (kernelContract image behind)
      (fun _ next => Holding image behind cur pcbs index heard (printed ++ message.bytes) next)
      (ece391Fdputs 1 message.memory) view :=
  holding.puts (strlen_memory message (by omega)) small (map_some_bytes message)

/-! ### Buffers on the stack -/

/-- The stack above a buffer is mapped as far as its first NUL, whatever the
locals are. -/
def Terminated (above : Int → Int → UserMemory) : Prop :=
  ∀ fd cnt, ∃ length, strlen (above fd cnt) = .done length ∧ length < 2147482624

theorem strlen_exists {memory : UserMemory} {stop : Nat}
    (mapped : ∀ j < stop, ∃ byte, memory j = some byte) (ended : memory stop = some 0)
    (small : stop < 4294967296) : ∃ length ≤ stop, strlen memory = .done length := by
  have found : ∃ stop, memory stop = some 0 := ⟨stop, ended⟩
  have first : Nat.find found ≤ stop := Nat.find_min' found ended
  refine ⟨Nat.find found, first, strlen_eq_done.mpr ⟨by omega, fun j below => ?_, Nat.find_spec found⟩⟩
  obtain ⟨byte, present⟩ := mapped j (by omega)
  refine ⟨byte, present, fun zero => Nat.find_min found below ?_⟩
  rw [present, zero]

theorem onStack_strlen {buf : Nat → Byte} {size length : Nat} {above : UserMemory}
    (terminated : strlen above = .done length) (small : size + length < 4294967296) :
    ∃ total ≤ size + length, strlen (onStack buf size above) = .done total := by
  obtain ⟨_, nonzero, ended⟩ := strlen_eq_done.mp terminated
  refine strlen_exists (fun j below => ?_) ?_ small
  · by_cases inside : j < size
    · exact ⟨buf j, if_pos inside⟩
    · obtain ⟨byte, present, _⟩ := nonzero (j - size) (by omega)
      refine ⟨byte, ?_⟩
      simp only [onStack, if_neg inside, present]
  · simp only [onStack]
    rw [if_neg (by omega), Nat.add_sub_cancel_left]
    exact ended

/-- What is shown of `items` is what comes before their first NUL. -/
theorem shown_eq_takeWhile {memory : UserMemory} {items chars : List Byte} {length : Nat}
    (measured : strlen memory = .done length)
    (loaded : ∀ j (inside : j < items.length), memory j = some items[j])
    (same : chars.map some = (List.range (min items.length length)).map memory) :
    chars = items.takeWhile (· ≠ 0) := by
  obtain ⟨_, nonzero, ended⟩ := strlen_eq_done.mp measured
  have taken : chars = items.take length := by
    apply List.map_injective_iff.mpr (Option.some_injective Byte)
    rw [same]
    apply List.ext_getElem
    · simp only [List.length_map, List.length_range, List.length_take, Nat.min_comm]
    · intro j left right
      rw [List.length_map, List.length_take] at right
      simp only [List.getElem_map, List.getElem_range, List.getElem_take]
      exact loaded j (by omega)
  have before : ∀ byte ∈ items.take length, decide (byte ≠ 0) = true := by
    intro byte member
    obtain ⟨j, inside, rfl⟩ := List.getElem_of_mem member
    rw [List.length_take] at inside
    obtain ⟨other, present, notNul⟩ := nonzero j (by omega)
    rw [List.getElem_take]
    rw [loaded j (by omega)] at present
    cases present
    exact decide_eq_true notNul
  have stop : (items.drop length).takeWhile (· ≠ 0) = [] := by
    cases rest : items.drop length with
    | nil => rfl
    | cons byte others =>
        have inside : length < items.length := by
          by_contra beyond
          rw [List.drop_eq_nil_of_le (Nat.le_of_not_lt beyond)] at rest
          cases rest
        rw [List.drop_eq_getElem_cons inside] at rest
        obtain ⟨first, _⟩ := List.cons.inj rest
        have zero : items[length] = 0 :=
          Option.some.inj ((loaded length inside).symm.trans ended)
        rw [← first, zero]
        rfl
  have split : (items.take length ++ items.drop length).takeWhile (· ≠ 0) =
      items.take length ++ (items.drop length).takeWhile (· ≠ 0) :=
    List.takeWhile_append_of_pos before
  rw [List.take_append_drop] at split
  rw [taken, split, stop, List.append_nil]

/-- The arguments fit into the buffer of the call. -/
theorem Holding.getsArgs {argument : CString} {nbytes : Int}
    (holding : Holding image behind cur pcbs index heard printed view)
    (given : stringAt (pcbs cur).argument ARGUMENT_LEN 0 = some argument)
    (room : (argument.strlen : Int) + 1 ≤ nbytes) (buf : Nat → Byte) :
    Program.Meets (kernelContract image behind)
      (fun reply next => reply = (0, strcpy buf argument) ∧
        Holding image behind cur pcbs index heard printed next)
      (ece391Getargs buf nbytes) view := by
  have gets : ∀ driver, Holding image behind cur pcbs index heard printed ⟨driver, view.heard, view.printed⟩ →
      driver.kernel.getargs buf nbytes = .done (0, strcpy buf argument) := by
    intro driver held
    have block : driver.kernel.pcb = pcbs := held.pcb
    have short : ¬ nbytes < (argument.strlen : Int) + 1 := by omega
    simp only [Kernel.getargs, held.running.current, Outcome.done_bind, block, given, if_neg short,
      Outcome.pure_eq]
  refine holding.serve ?_ ?_
  · intro driver held
    exact ⟨_, _, _, _, .sysGetargs (gets driver held)⟩
  · intro driver reply taken chars next held served
    cases served with
    | sysGetargs done =>
        cases (gets driver held).symm.trans done
        exact ⟨rfl, holding.silent held.running held.pcb held.index⟩

end Calls

end Ece391
