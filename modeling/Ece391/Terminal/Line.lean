import Ece391.Terminal.Typing

namespace Ece391

open Library Kernel
open Outcome (Gives)

/-! # The line buffer as a line

A step of the driver changes the line of the terminal that is shown as the key
says, and no other line.
-/

/-- The part of the line buffer that is in use. -/
def Console.line (console : Console) : List Byte :=
  (List.range console.bufferI).map console.lineBuffer

/-- With a full buffer, a newline in the table costs the last character. -/
def madeRoom (toPrint : Byte) (line : List Byte) : List Byte :=
  if line.length = NUM_CHARS ∧ toPrint = 10 then line.dropLast else line

/-- What a key leaves of a line. -/
def keyLine (behind : BehindTables) (keys : Keyboard) (scancode : Byte) (line : List Byte) :
    List Byte :=
  editLine (keyAction behind keys scancode) (madeRoom (behind.kbdusAt scancode) line)

namespace Console

variable {console final other : Console} {char : Byte}

@[simp] theorem line_length : console.line.length = console.bufferI := by
  simp [line]

theorem line_congr (buffer : other.lineBuffer = console.lineBuffer)
    (count : other.bufferI = console.bufferI) : other.line = console.line := by
  rw [line, line, buffer, count]

theorem line_dropLast (buffer : ∀ i < console.bufferI - 1, other.lineBuffer i = console.lineBuffer i)
    (count : other.bufferI = console.bufferI - 1) : other.line = console.line.dropLast := by
  have shorter : console.line.dropLast = (List.range (console.bufferI - 1)).map console.lineBuffer := by
    rw [line, ← List.map_dropLast]
    cases console.bufferI with
    | zero => rfl
    | succ count => rw [List.range_succ, List.dropLast_concat, Nat.add_sub_cancel]
  rw [shorter, line, count]
  exact List.map_congr_left fun i member => buffer i (List.mem_range.mp member)

theorem appendChar_line : (console.appendChar char).line = console.line ++ [char] := by
  have older : (List.range console.bufferI).map
      (Function.update console.lineBuffer console.bufferI char) = console.line :=
    List.map_congr_left fun i member =>
      Function.update_of_ne (Nat.ne_of_lt (List.mem_range.mp member)) ..
  simp only [appendChar, line, List.range_succ, List.map_append, older, List.map_singleton,
    Function.update_self]

theorem makeRoom_line : (console.makeRoom char).line = madeRoom char console.line := by
  simp only [madeRoom, makeRoom]
  rw [line_length]
  split
  · refine line_dropLast (fun i below => ?_) rfl
    exact Function.update_of_ne (Nat.ne_of_lt below) ..
  · rfl

theorem backspacePressed_line :
    Gives (fun erased => erased.line = console.line.dropLast) console.backspacePressed := by
  have moved : ∀ start : Console, Gives (fun erased =>
      erased.lineBuffer = start.lineBuffer ∧ erased.bufferI = start.bufferI) start.moveBack := by
    intro start erased moves
    unfold moveBack at moves
    split at moves
    · obtain ⟨buffer, count⟩ := storeCell_line moves
      exact ⟨buffer, count⟩
    · obtain ⟨buffer, count⟩ := storeCell_line moves
      exact ⟨buffer, count⟩
  simp only [backspacePressed]
  split
  · intro erased moves
    obtain ⟨buffer, count⟩ := moved _ erased moves
    exact line_dropLast (fun i _ => congrFun buffer i) count
  · rename_i empty
    refine .done ?_
    have nothing : console.line = [] := List.length_eq_zero_iff.mp (by rw [line_length]; omega)
    rw [nothing]
    rfl

theorem echoChar_line (char : Byte) :
    Gives (fun echoed => echoed.2.line = console.line) (console.echoChar char) := by
  simp only [echoChar]
  split
  · have printed : Gives (fun put : Console => put.line = console.line) (console.putc char) := by
      intro put putting
      obtain ⟨buffer, count⟩ := putc_line putting
      exact line_congr buffer count
    exact printed.bind fun put same => .done same
  · split
    · exact .done rfl
    · exact .done rfl

theorem keyEcho_line (char : Byte) :
    Gives (fun echoed => echoed.2.line = editLine (.type char) console.line)
      (console.keyEcho char) := by
  rw [editLine_type, line_length]
  simp only [keyEcho]
  split
  · refine (echoChar_line char).bind fun echoed same => .done ?_
    rw [appendChar_line, same]
  · exact .done rfl

/-- A key changes the line as it changes a list of characters. -/
theorem terminalKeyPressed_line (behind : BehindTables) (keys : Keyboard) (scancode : Byte) :
    Gives (fun pressed => pressed.2.2.line = keyLine behind keys scancode console.line)
      (console.terminalKeyPressed behind keys scancode) := by
  rw [terminalKeyPressed_eq]
  unfold keyLine
  rw [← makeRoom_line]
  dsimp only
  cases keyAction behind keys scancode with
  | nothing => exact .done rfl
  | switchTo term => exact .done rfl
  | clear => exact .done rfl
  | backspace => exact backspacePressed_line.bind fun erased same => .done same
  | type char =>
      refine (keyEcho_line char).bind fun echoed same => .done ?_
      obtain ⟨buffer, count⟩ := keyWrap_line echoed.2 echoed.1
      exact (line_congr buffer count).trans same

end Console

variable {image : Image} {behind : BehindTables} {driver next : TerminalDriver}
  {kernel drawn after : Kernel} {processes : Forest TerminalId Nat} {input : ConsoleInput}
  {term : TerminalId}

/-- The line of a terminal, shown or not. -/
def Kernel.lineOf (kernel : Kernel) (term : TerminalId) : List Byte := (kernel.consoleOf term).line

/-- Whatever the kernel does by itself, the lines stay. -/
theorem follows_lineOf {event : Option Event} (attended : Attended drawn processes)
    (follows : Follows image drawn event after) : after.lineOf term = drawn.lineOf term := by
  cases event with
  | none => rw [show after = drawn from follows]
  | some event =>
      rcases switches_or_stays attended follows.2 follows.1 with
        ⟨target, irq, frame, tlb, _, switches⟩ | ⟨_, _, consoles, _⟩
      · by_cases left : term = drawn.oldTerminal
        · rw [left, lineOf, switches.left]
          rfl
        · by_cases arrived : term = target
          · have shown : after.consoleOf term = after.shownConsole := by
              rw [shownConsole, switches.oldTerminal, arrived]
            rw [lineOf, shown, arrived]
            by_cases active : (drawn.terminals target).active = 0
            · rw [(switches.opened active).1]
              rfl
            · rw [(switches.resumed active).1]
              rfl
          · rw [lineOf, switches.others term left arrived]
            rfl
      · rw [lineOf, consoles]
        rfl

theorem driver_step_lineOf (attended : Attended driver.kernel processes)
    (starts : driver.StartsShells image behind input)
    (stepped : driver.step image behind input = some next) :
    ∃ asked console, driver.kernel.shownConsole.drive behind driver.keyboard input =
        .done (asked, next.keyboard, console) ∧
      next.kernel.lineOf driver.kernel.oldTerminal = console.line ∧
      ∀ term, term ≠ driver.kernel.oldTerminal →
        next.kernel.lineOf term = driver.kernel.lineOf term := by
  obtain ⟨asked, console, drawn, drives, draws, follows⟩ := driver_step attended starts stepped
  have kept := attended.draws draws
  refine ⟨asked, console, drives, ?_, fun term hidden => ?_⟩
  · rw [follows_lineOf kept follows, lineOf, ← draws.oldTerminal]
    exact congrArg Console.line draws.shown
  · rw [follows_lineOf kept follows, lineOf, draws.hidden term hidden]
    rfl

end Ece391
