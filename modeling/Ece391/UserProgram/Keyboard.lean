import Ece391.Terminal.OneLine
import Ece391.UserProgram.Service

namespace Ece391

open Library Kernel

/-! # Reading a line

A read of the keyboard brings a line that ends in a newline, and whatever is
held down or was typed before, there are keys that end it.
-/

variable {image : Image} {behind : BehindTables} {driver next : TerminalDriver}
  {processes : Forest TerminalId Nat}

/-- One key of a reader. -/
theorem key_pressed {scancode : Byte} {keys : Keyboard} {console : Console}
    (attended : Attended driver.kernel processes)
    (pressed : driver.kernel.shownConsole.terminalKeyPressed behind driver.keyboard scancode =
      .done (none, keys, console)) :
    ∃ handled, KeysPressed behind driver ⟨handled, keys⟩ ∧ Draws driver.kernel console handled := by
  obtain ⟨handled, done, draws⟩ :
      ∃ handled, driver.keyHandled behind scancode zeroedIrq (fun _ => false) =
          .done (none, ⟨handled, keys⟩) ∧ Draws driver.kernel console handled :=
    keyHandled_done attended _ pressed
  exact ⟨handled, .single ⟨scancode, _, _, done⟩, draws⟩

/-- On an empty line a key that only changes the modifiers changes nothing else. -/
theorem modifier_pressed {scancode : Byte} {keys : Keyboard}
    (attended : Attended driver.kernel processes) (empty : driver.kernel.shownConsole.bufferI = 0)
    (noAlt : altKey driver.keyboard scancode = driver.keyboard)
    (modifier : modifierKey driver.keyboard scancode = some keys) :
    ∃ handled, KeysPressed behind driver ⟨handled, keys⟩ ∧ Attended handled processes ∧
      handled.shownConsole = driver.kernel.shownConsole := by
  have unchanged : driver.kernel.shownConsole.makeRoom (behind.kbdusAt scancode) =
      driver.kernel.shownConsole := by
    have notFull : ¬ driver.kernel.shownConsole.bufferI = NUM_CHARS := by
      rw [empty]
      decide
    simp only [Console.makeRoom]
    rw [if_neg fun full => notFull full.1]
  have pressed : driver.kernel.shownConsole.terminalKeyPressed behind driver.keyboard scancode =
      .done (none, keys, driver.kernel.shownConsole) := by
    simp only [Console.terminalKeyPressed]
    rw [noAlt, modifier, unchanged]
  obtain ⟨handled, typing, draws⟩ := key_pressed attended pressed
  exact ⟨handled, typing, attended.draws draws, draws.shown⟩

theorem enter_pressed (attended : Attended driver.kernel processes)
    (shift : driver.keyboard.shift = false) (ctrl : driver.keyboard.ctrl = false)
    (empty : driver.kernel.shownConsole.bufferI = 0) :
    ∃ entered, KeysPressed behind driver entered ∧ Attended entered.kernel processes ∧
      entered.kernel.shownConsole.line = [10] := by
  obtain ⟨checkEnter, console, pressed⟩ := enter_handled shift ctrl driver.kernel.shownConsole
  obtain ⟨handled, typing, draws⟩ := key_pressed attended pressed
  have noLine : driver.kernel.shownConsole.line = [] := by
    apply List.eq_nil_of_length_eq_zero
    rw [Console.line_length, empty]
  have line := Console.terminalKeyPressed_line behind driver.keyboard 0x1C _ pressed
  rw [noLine, keyLine_enter_eq (by decide) shift ctrl, ← draws.shown] at line
  exact ⟨_, typing, attended.draws draws, line⟩

/-- With the control and shift keys released, Enter ends an empty line. -/
theorem enter_ends_line (attended : Attended driver.kernel processes)
    (empty : driver.kernel.shownConsole.bufferI = 0) :
    ∃ entered, KeysPressed behind driver entered ∧ Attended entered.kernel processes ∧
      entered.kernel.shownConsole.line = [10] := by
  obtain ⟨first, firstKeys, firstAttended, firstConsole⟩ :
      ∃ handled, KeysPressed behind driver ⟨handled, { driver.keyboard with ctrl := false }⟩ ∧
        Attended handled processes ∧ handled.shownConsole = driver.kernel.shownConsole :=
    modifier_pressed attended empty (show altKey driver.keyboard 0x9D = _ from rfl) rfl
  obtain ⟨second, secondKeys, secondAttended, secondConsole⟩ :
      ∃ handled, KeysPressed behind ⟨first, { driver.keyboard with ctrl := false }⟩
          ⟨handled, { driver.keyboard with ctrl := false, shift := false }⟩ ∧
        Attended handled processes ∧ handled.shownConsole = first.shownConsole :=
    modifier_pressed firstAttended (by rw [firstConsole, empty])
      (show altKey { driver.keyboard with ctrl := false } 0xAA = _ from rfl) rfl
  have stillEmpty : second.shownConsole.bufferI = 0 := by
    rw [secondConsole, firstConsole, empty]
  obtain ⟨entered, thirdKeys, attended, ended⟩ :
      ∃ entered, KeysPressed behind
          ⟨second, { driver.keyboard with ctrl := false, shift := false }⟩ entered ∧
        Attended entered.kernel processes ∧ entered.kernel.shownConsole.line = [10] :=
    enter_pressed secondAttended rfl rfl stillEmpty
  exact ⟨entered, (firstKeys.trans secondKeys).trans thirdKeys, attended, ended⟩

theorem key_typed {scancode : Byte} {irq : IrqFrame} {cached : Nat → Bool} {term : Option Int}
    (attended : Attended driver.kernel processes)
    (done : driver.keyHandled behind scancode irq cached = .done (term, next)) :
    Attended next.kernel processes ∧ next.kernel.shownConsole.line =
      keyLine behind driver.keyboard scancode driver.kernel.shownConsole.line := by
  obtain ⟨console, pressed, draws⟩ := keyHandled_draws attended done
  refine ⟨attended.draws draws, ?_⟩
  rw [draws.shown]
  exact Console.terminalKeyPressed_line behind driver.keyboard scancode _ pressed

theorem KeysPressed.bounded (typing : KeysPressed behind driver next)
    (attended : Attended driver.kernel processes)
    (bounded : driver.kernel.shownConsole.line.length ≤ NUM_CHARS) :
    Attended next.kernel processes ∧ next.kernel.shownConsole.line.length ≤ NUM_CHARS := by
  induction typing with
  | refl => exact ⟨attended, bounded⟩
  | tail _ pressed ih =>
      obtain ⟨scancode, irq, cached, done⟩ := pressed
      obtain ⟨kept, line⟩ := key_typed ih.1 done
      rw [line]
      exact ⟨kept, keyLine_length ih.2⟩

/-- What `terminal_read` delivers: the line, a NUL and what was there. -/
def delivered (line : List Byte) (buf : Nat → Byte) : Nat → Byte :=
  fun i => (line ++ [0]).getD i (buf i)

theorem keyboardRead_delivers (console : Console) (buf : Nat → Byte) :
    console.keyboardRead buf =
      ((console.line.length : Int), delivered console.line buf, { console with bufferI := 0 }) := by
  rw [Console.line_length]
  refine congrArg (Prod.mk _) (congrArg (Prod.mk · _) (funext fun i => ?_))
  have length : console.line.length = console.bufferI := Console.line_length
  simp only [delivered, List.getD_eq_getElem?_getD]
  by_cases inside : i < console.bufferI
  · rw [if_pos inside, List.getElem?_append_left (by omega), Console.line, List.getElem?_map,
      List.getElem?_range inside]
    rfl
  · rw [if_neg inside]
    by_cases last : i = console.bufferI
    · rw [if_pos last, last, ← length, List.getElem?_concat_length]
      rfl
    · have beyond : (console.line ++ [0]).length ≤ i := by
        rw [List.length_append, List.length_singleton]
        omega
      rw [if_neg last, List.getElem?_eq_none beyond]
      rfl

theorem delivered_line (line : List Byte) (buf : Nat → Byte) :
    (List.range line.length).map (delivered line buf) = line := by
  apply List.ext_getElem
  · rw [List.length_map, List.length_range]
  · intro i left right
    rw [List.getElem_map, List.getElem_range, delivered, List.getD_eq_getElem?_getD,
      List.getElem?_append_left right, List.getElem?_eq_getElem right, Option.getD_some]

theorem takeLine_same {buf after : Nat → Byte} {value : Int} {kernel taken : Kernel}
    (done : kernel.takeLine buf = .done (value, after, taken)) : SameFiles kernel taken := by
  obtain ⟨cur, _, rest⟩ := Outcome.bind_eq_done.mp done
  split at rest
  · split at rest
    · cases rest
      exact setConsole_same _ _ _
    · cases rest
  · cases rest

/-- The line is taken whatever the buffer holds. -/
theorem takeLine_any {buf after : Nat → Byte} {value : Int} {kernel taken : Kernel}
    (done : kernel.takeLine buf = .done (value, after, taken)) (other : Nat → Byte) :
    ∃ result, kernel.takeLine other = .done (value, result, taken) := by
  obtain ⟨cur, current, rest⟩ := Outcome.bind_eq_done.mp done
  simp only [takeLine, current, Outcome.done_bind]
  split at rest
  · split at rest
    · rename_i ended
      cases rest
      exact ⟨_, if_pos ended⟩
    · cases rest
  · cases rest

section Calls

variable {view : ProcessView} {cur index : Nat} {pcbs : Nat → Pcb} {heard printed : List Byte}
  {fd nbytes : Int}

theorem lineEntered_line {kernel : Kernel}
    (entered : LineEntered (kernel.terminals kernel.oldTerminal)) :
    ∃ text, kernel.shownConsole.line = text ++ [10] := by
  obtain ⟨nonempty, newline⟩ := entered
  obtain ⟨count, length⟩ := Nat.exists_eq_succ_of_ne_zero nonempty
  rw [length, Nat.succ_sub_one] at newline
  have counted : kernel.shownConsole.bufferI = count + 1 := length
  refine ⟨(List.range count).map kernel.shownConsole.lineBuffer, ?_⟩
  rw [Console.line, counted, List.range_succ, List.map_append, List.map_singleton]
  exact congrArg (_ ++ [·]) newline

theorem RunsAs.awaitsLine {waiting : Kernel} (running : RunsAs image behind cur driver)
    (waits : driver.kernel.awaitLine = .done waiting) :
    RunsAs image behind cur ⟨waiting, driver.keyboard⟩ ∧ SameFiles driver.kernel waiting ∧
      waiting.shownConsole.bufferI = 0 := by
  obtain ⟨_, processes, attended⟩ := running.reachable.attended
  obtain ⟨_, _, resets⟩ := Outcome.bind_eq_done.mp waits
  have stepped : driver.step image behind .awaitLine = some ⟨waiting, driver.keyboard⟩ := by
    simp only [TerminalDriver.step, waits, Outcome.toOption_done, Option.map_some]
  have starts : driver.StartsShells image behind .awaitLine := trivial
  have same := resetLine_same resets
  refine ⟨running.of_same (running.reachable.step starts stepped) same, same, ?_⟩
  rw [(attended.awaitLine waits).shown]

theorem RunsAs.takesLine {buf after : Nat → Byte} {value : Int} {taken : Kernel}
    (running : RunsAs image behind cur driver)
    (done : driver.kernel.takeLine buf = .done (value, after, taken)) :
    RunsAs image behind cur { driver with kernel := taken } ∧ SameFiles driver.kernel taken ∧
      ∃ text, driver.kernel.shownConsole.line = text ++ [10] ∧
        value = ((text ++ [10]).length : Int) ∧ after = delivered (text ++ [10]) buf := by
  obtain ⟨_, processes, attended⟩ := running.reachable.attended
  obtain ⟨result, asStep⟩ := takeLine_any done fun _ => 0
  have stepped : driver.step image behind .takeLine = some { driver with kernel := taken } := by
    simp only [TerminalDriver.step, asStep, Outcome.toOption_done, Option.map_some]
  have starts : driver.StartsShells image behind .takeLine := trivial
  have same := takeLine_same done
  refine ⟨running.of_same (running.reachable.step starts stepped) same, same, ?_⟩
  obtain ⟨ended, reads, _⟩ := attended.takeLine done
  obtain ⟨text, line⟩ := lineEntered_line ended
  rw [keyboardRead_delivers, line] at reads
  obtain ⟨count, rest⟩ := Prod.mk.inj reads
  exact ⟨text, line, count, (Prod.mk.inj rest).1⟩

theorem sysRead_keyboard {kernel : Kernel} (current : findProgramid kernel.cr3 = .done cur)
    (reads : ReadsKeyboard (kernel.pcb cur) fd) (buf : Option (Nat → Byte)) :
    kernel.sysRead image fd buf nbytes = .spins := by
  simp only [sysRead, current, Outcome.done_bind, if_neg reads.1, reads.2]

/-- There are always keys that end an empty line. -/
theorem RunsAs.endsLine (running : RunsAs image behind cur driver)
    (reads : ReadsKeyboard (driver.kernel.pcb cur) fd) (buf : Nat → Byte) :
    ∃ taken next, Serves image behind driver (.ece391Read fd buf nbytes)
      ((([] ++ [10] : List Byte).length : Int), delivered ([] ++ [10]) buf) taken [] next := by
  obtain ⟨_, processes, attended⟩ := running.reachable.attended
  have waits := attended.awaits running.current
  obtain ⟨waiting, _, empty⟩ := running.awaitsLine waits
  obtain ⟨_, grown, attendedWaiting⟩ := waiting.reachable.attended
  obtain ⟨entered, typed, still, line⟩ := enter_ends_line attendedWaiting empty
  have single : entered.kernel.lineOf entered.kernel.oldTerminal = [] ++ [10] := line
  obtain ⟨result, taken, takes⟩ :=
    still.takesLine (waiting.typed typed).current (lineEntered_of_newline single) buf
  obtain ⟨_, _, text, same, value, after⟩ := (waiting.typed typed).takesLine takes
  obtain rfl : text = [] := List.append_cancel_right (same.symm.trans single)
  subst after
  rw [← value]
  exact ⟨_, _, .keyboard running.current reads waits typed takes⟩

/-- A read of the keyboard brings a line. -/
theorem Holding.readsLine (holding : Holding image behind cur pcbs index heard printed view)
    (reads : ReadsKeyboard (pcbs cur) fd) (buf : Nat → Byte) :
    Program.Meets (kernelContract image behind)
      (fun reply next => ∃ text : List Byte, (text ++ [10]).length ≤ NUM_CHARS ∧
        reply = (((text ++ [10]).length : Int), delivered (text ++ [10]) buf) ∧
        Holding image behind cur pcbs index (heard ++ (text ++ [10])) printed next)
      (ece391Read fd buf nbytes) view := by
  refine holding.serve ?_ ?_
  · intro driver held
    rw [← held.pcb] at reads
    obtain ⟨taken, next, served⟩ := held.running.endsLine reads buf
    exact ⟨_, _, _, _, served⟩
  · intro driver reply taken chars next held served
    cases served with
    | sysRead read =>
        rw [← held.pcb] at reads
        cases (sysRead_keyboard held.running.current reads _).symm.trans read
    | keyboard current _ waits typed takes =>
        obtain ⟨waiting, same, empty⟩ := held.running.awaitsLine waits
        obtain ⟨running, taken, text, line, value, after⟩ :=
          (waiting.typed typed).takesLine takes
        have files := (same.trans typed.same).trans taken
        obtain ⟨_, _, attended⟩ := waiting.reachable.attended
        have bounded := (typed.bounded attended ?_).2
        · rw [line] at bounded
          have count : ((text ++ [10]).length : Int).toNat = (text ++ [10]).length := by omega
          rw [value, after, count, delivered_line, List.append_nil, ← holding.heard]
          exact ⟨text, bounded, rfl, running, files.pcb.trans held.pcb,
            files.currentDirIndex.trans held.index, rfl, holding.printed⟩
        · rw [Console.line_length, empty]
          exact Nat.zero_le _

end Calls

end Ece391
