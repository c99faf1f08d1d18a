import Ece391.Terminal.Restore

namespace Ece391

open Library Kernel
open Outcome (Gives)

/-! # Where the cursor can stand

A line feed may leave the cursor below the last row, but only at the first
column.
-/

variable {image : Image} {behind : BehindTables} {driver next : TerminalDriver}
  {processes : Forest TerminalId Nat} {input : ConsoleInput}

namespace Console

structure InRows (console : Console) : Prop where
  left : 0 ≤ console.x
  right : console.x < NUM_COLS
  top : 0 ≤ console.y
  bottom : console.y < NUM_ROWS ∨ console.x = 0

variable {console : Console} {keys : Keyboard} {scancode : Byte}

theorem InRows.of_same {other : Console} (inRows : console.InRows) (x : other.x = console.x)
    (y : other.y = console.y) : other.InRows :=
  ⟨x ▸ inRows.left, x ▸ inRows.right, y ▸ inRows.top, by rw [x, y]; exact inRows.bottom⟩

theorem firstColumn_inRows (console : Console) {y : Int} (top : 0 ≤ y) :
    (console.setCursor 0 y).InRows :=
  ⟨Int.le_refl 0, show (0 : Int) < NUM_COLS by decide, top, .inr rfl⟩

theorem storeCell_cursor (char : Byte) :
    Gives (fun stored => stored.x = console.x ∧ stored.y = console.y ∧
      0 ≤ 2 * (NUM_COLS * console.y + console.x) ∧
      2 * (NUM_COLS * console.y + console.x) < MEM_4KB) (console.storeCell char) := by
  simp only [storeCell]
  split
  · rename_i inPage
    exact .done ⟨rfl, rfl, inPage⟩
  · intro stored faulted
    cases faulted

theorem InRows.putc (inRows : console.InRows) (char : Byte) : Gives InRows (console.putc char) := by
  obtain ⟨left, right, top, bottom⟩ := inRows
  simp only [Console.putc]
  split
  · exact .done (firstColumn_inRows console (by omega))
  · refine (storeCell_cursor char).bind fun stored same => .done ?_
    obtain ⟨x, y, _, _⟩ := same
    unfold NUM_COLS at right
    have column : 0 ≤ (stored.x + 1).tmod NUM_COLS ∧ (stored.x + 1).tmod NUM_COLS < NUM_COLS := by
      simp only [NUM_COLS]
      rw [x, Int.tmod_eq_emod_of_nonneg (by omega)]
      omega
    have row : ((stored.x + 1).tmod NUM_COLS).tdiv NUM_COLS = 0 :=
      Int.tdiv_eq_zero_of_lt column.1 column.2
    refine ⟨column.1, column.2, ?_, .inl ?_⟩
    · dsimp only [Console.setCursor]
      rw [row, y, Int.tmod_eq_emod_of_nonneg (by omega)]
      simp only [NUM_ROWS]
      omega
    · dsimp only [Console.setCursor]
      rw [row, y, Int.tmod_eq_emod_of_nonneg (by omega)]
      simp only [NUM_ROWS]
      omega

theorem InRows.moveBack (inRows : console.InRows) : Gives InRows console.moveBack := by
  obtain ⟨left, right, top, bottom⟩ := inRows
  simp only [Console.moveBack]
  simp only [NUM_COLS, NUM_ROWS] at *
  split
  · rename_i notFirst
    intro stored done
    obtain ⟨x, y, _, _⟩ := storeCell_cursor 32 stored done
    dsimp only [Console.setCursor] at x y
    refine ⟨?_, ?_, ?_, .inl ?_⟩
    · omega
    · simp only [NUM_COLS]
      omega
    · omega
    · simp only [NUM_ROWS]
      omega
  · intro stored done
    obtain ⟨x, y, low, high⟩ := storeCell_cursor 32 stored done
    dsimp only [Console.setCursor] at x y low high
    unfold NUM_COLS at low high
    unfold MEM_4KB at high
    refine ⟨?_, ?_, ?_, .inl ?_⟩
    · omega
    · simp only [NUM_COLS]
      omega
    · omega
    · simp only [NUM_ROWS]
      omega

theorem InRows.backspacePressed (inRows : console.InRows) :
    Gives InRows console.backspacePressed := by
  simp only [Console.backspacePressed]
  split
  · exact (inRows.of_same rfl rfl : InRows { console with bufferI := console.bufferI - 1 }).moveBack
  · exact .done inRows

/-- What `wrap_line` leaves is on the video page. -/
theorem InRows.wrapLine (inRows : console.InRows) (long : Prop) [Decidable long] :
    (console.wrapLine long).InRows ∧ (console.wrapLine long).y ≤ NUM_ROWS := by
  have lastRow : (0 : Int) ≤ NUM_ROWS - 1 := by decide
  have lastAbove : (NUM_ROWS : Int) - 1 < NUM_ROWS := by decide
  have first : ∃ start : Console, (if console.x = 0 then
        if console.y < NUM_ROWS then console.setCursor 0 console.y
        else console.pressedEnter.setCursor 0 (NUM_ROWS - 1)
      else console) = start ∧ start.InRows ∧ start.y < NUM_ROWS := by
    refine ⟨_, rfl, ?_⟩
    split
    · split
      · rename_i above
        exact ⟨firstColumn_inRows console inRows.top, above⟩
      · exact ⟨firstColumn_inRows _ lastRow, lastAbove⟩
    · rename_i notFirst
      exact ⟨inRows, inRows.bottom.resolve_right notFirst⟩
  obtain ⟨start, isStart, startIn, above⟩ := first
  have top := startIn.top
  unfold Console.wrapLine
  rw [isStart]
  dsimp only
  split
  · split
    · rename_i room
      refine ⟨firstColumn_inRows start (by omega), ?_⟩
      dsimp only [Console.setCursor]
      omega
    · exact ⟨firstColumn_inRows _ lastRow, Int.le_of_lt lastAbove⟩
  · split
    · refine ⟨firstColumn_inRows start (by omega), ?_⟩
      dsimp only [Console.setCursor]
      omega
    · exact ⟨startIn, Int.le_of_lt above⟩

theorem InRows.writeLoop (inRows : console.InRows) (buf : UserMemory) (remaining i : Nat)
    (toPrint : Byte) :
    Gives (fun result => result.2.InRows) (Console.writeLoop buf remaining i toPrint console) := by
  induction remaining generalizing i toPrint console with
  | zero => exact .done inRows
  | succ remaining ih =>
      simp only [Console.writeLoop]
      split
      · exact .done inRows
      · have measured : Gives (fun _ => True) (strlen buf) := fun _ _ => trivial
        refine measured.bind fun length _ => ?_
        refine ((inRows.wrapLine _).1.putc toPrint).bind fun printed printedIn => ?_
        cases buf (i + 1) with
        | none =>
            intro result faulted
            cases faulted
        | some next => exact (ih printedIn (i + 1) next).bind fun rest restIn => .done restIn

theorem InRows.terminalWrite (inRows : console.InRows) (buf : UserMemory) (nbytes : Int) :
    Gives (fun result => result.2.InRows) (console.terminalWrite buf nbytes) := by
  simp only [Console.terminalWrite]
  cases buf 0 with
  | none =>
      intro result faulted
      cases faulted
  | some toPrint => exact inRows.writeLoop buf _ 0 toPrint

theorem InRows.puts (inRows : console.InRows) (text : List Byte) :
    Gives InRows (console.puts text) := by
  induction text generalizing console with
  | nil => exact .done inRows
  | cons char text ih => exact (inRows.putc char).bind fun printed printedIn => ih printedIn

theorem InRows.keyChar (inRows : console.InRows) :
    Gives (fun result => result.2.InRows) (console.keyChar behind keys scancode) := by
  simp only [Console.keyChar]
  split
  · exact .done inRows
  · split
    · exact inRows.backspacePressed.bind fun erased erasedIn => .done erasedIn
    · exact .done inRows

theorem InRows.echoChar (inRows : console.InRows) (toPrint : Byte) :
    Gives (fun result => result.2.InRows) (console.echoChar toPrint) := by
  simp only [Console.echoChar]
  split
  · exact (inRows.putc toPrint).bind fun printed printedIn => .done printedIn
  · split
    · exact .done (firstColumn_inRows console inRows.top)
    · exact .done (firstColumn_inRows console.pressedEnter inRows.top)

theorem InRows.keyEcho (inRows : console.InRows) (toPrint : Byte) :
    Gives (fun result => result.2.InRows) (console.keyEcho toPrint) := by
  simp only [Console.keyEcho]
  split
  · refine (inRows.echoChar toPrint).bind fun echoed echoedIn => .done ?_
    exact echoedIn.of_same rfl rfl
  · exact .done inRows

theorem InRows.eraseChar (inRows : console.InRows) (toPrint : Byte) :
    Gives (fun result => result.2.InRows) (console.eraseChar toPrint) := by
  simp only [Console.eraseChar]
  split
  · exact inRows.backspacePressed.bind fun erased erasedIn => .done erasedIn
  · exact .done inRows

theorem InRows.keyWrap (inRows : console.InRows) (checkEnter : Bool) :
    (console.keyWrap checkEnter).InRows := by
  have top := inRows.top
  simp only [Console.keyWrap]
  split
  · split
    · exact firstColumn_inRows console (by omega)
    · split
      · exact inRows
      · exact inRows.of_same rfl rfl
  · exact inRows

theorem InRows.keyTyped (inRows : console.InRows) :
    Gives (fun result => result.2.InRows) (console.keyTyped behind keys scancode) := by
  unfold Console.keyTyped
  refine inRows.keyChar.bind fun typed typedIn => ?_
  dsimp only
  split
  · refine (typedIn.eraseChar typed.1).bind fun erased erasedIn => ?_
    refine (erasedIn.keyEcho erased.1).bind fun echoed echoedIn => ?_
    exact .done (echoedIn.keyWrap echoed.1)
  · exact .done typedIn

theorem InRows.makeRoom (inRows : console.InRows) (toPrint : Byte) :
    (console.makeRoom toPrint).InRows := by
  simp only [Console.makeRoom]
  split
  · exact inRows.of_same rfl rfl
  · exact inRows

theorem InRows.terminalKeyPressed (inRows : console.InRows) :
    Gives (fun result => result.2.2.InRows) (console.terminalKeyPressed behind keys scancode) := by
  have room := inRows.makeRoom (behind.kbdusAt scancode)
  simp only [Console.terminalKeyPressed]
  split
  · exact .done room
  · split
    · exact .done room
    · split
      · refine .done ?_
        dsimp only
        split
        · exact (firstColumn_inRows console (Int.le_refl 0)).of_same rfl rfl
        · exact room
      · split
        · exact room.keyTyped.bind fun typed typedIn => .done typedIn
        · exact .done room

theorem InRows.drive (inRows : console.InRows) :
    Gives (fun result => result.2.2.InRows) (console.drive behind keys input) := by
  cases input with
  | call _ => exact .done inRows
  | key scancode _ _ _ _ => exact inRows.terminalKeyPressed
  | write buf nbytes _ =>
      refine (inRows.terminalWrite buf nbytes).bind fun written writtenIn => ?_
      have measured : Gives (fun _ => True) (strlen buf) := fun _ _ => trivial
      exact measured.bind fun _ _ => .done (writtenIn.of_same rfl rfl)
  | puts text _ => exact (inRows.puts text).bind fun printed printedIn => .done printedIn
  | awaitLine => exact .done (inRows.of_same rfl rfl)
  | takeLine =>
      simp only [Console.drive]
      split
      · exact .done (inRows.of_same rfl rfl)
      · intro result spinning
        cases spinning
  | store _ _ => exact .done (inRows.of_same rfl rfl)

end Console

/-- Every terminal has its cursor in its rows. -/
def CursorsInRows (kernel : Kernel) : Prop := ∀ term, (kernel.consoleOf term).InRows

variable {kernel after : Kernel} {console : Console} {target : TerminalId} {tlb : TlbUse}

theorem CursorsInRows.draws (inRows : CursorsInRows kernel) (draws : Draws kernel console after)
    (consoleIn : console.InRows) : CursorsInRows after := by
  intro term
  by_cases shown : term = kernel.oldTerminal
  · rw [shown, ← draws.oldTerminal]
    have same : after.consoleOf after.oldTerminal = console := draws.shown
    rw [same]
    exact consoleIn
  · rw [draws.hidden term shown]
    exact inRows term

theorem CursorsInRows.switches (inRows : CursorsInRows kernel)
    (switches : Switches kernel target tlb after) : CursorsInRows after := by
  intro term
  by_cases left : term = kernel.oldTerminal
  · rw [left, switches.left]
    exact (inRows kernel.oldTerminal).of_same rfl rfl
  · by_cases arrived : term = target
    · have shown : after.consoleOf term = after.shownConsole := by
        rw [shownConsole, switches.oldTerminal, arrived]
      rw [shown]
      by_cases active : (kernel.terminals target).active = 0
      · obtain ⟨isConsole, _⟩ := switches.opened active
        rw [isConsole]
        have cursor := inRows kernel.oldTerminal
        rw [← shownConsole, shownConsole_eq] at cursor
        exact cursor.of_same rfl rfl
      · obtain ⟨isConsole, _⟩ := switches.resumed active
        rw [isConsole]
        exact (inRows target).of_same rfl rfl
    · rw [switches.others term left arrived]
      exact inRows term

theorem driver_step_inRows (attended : Attended driver.kernel processes)
    (starts : driver.StartsShells image behind input)
    (stepped : driver.step image behind input = some next)
    (inRows : CursorsInRows driver.kernel) : CursorsInRows next.kernel := by
  obtain ⟨asked, console, drawn, drives, draws, follows⟩ := driver_step attended starts stepped
  have drawnIn : CursorsInRows drawn := by
    refine inRows.draws draws ?_
    have shownIn : driver.kernel.shownConsole.InRows := inRows driver.kernel.oldTerminal
    exact shownIn.drive _ drives
  cases event : input.follow asked with
  | none =>
      rw [event] at follows
      rw [follows]
      exact drawnIn
  | some event' =>
      rw [event] at follows
      rcases switches_or_stays (attended.draws draws) follows.2 follows.1 with
        ⟨target, irq, frame, tlb, _, switches⟩ | ⟨_, _, consoles, _⟩
      · exact drawnIn.switches switches
      · intro term
        rw [consoles]
        exact drawnIn term

/-- The cursor is where the boot messages leave it; they start from the zeroed
variables. -/
def BootMessages (kernel : Kernel) : Prop :=
  ∃ (blank printed : Console) (text : List Byte), blank.x = 0 ∧ blank.y = 0 ∧
    blank.puts text = .done printed ∧ kernel.screenX = printed.x ∧ kernel.screenY = printed.y

theorem FirstShell.cursorsInRows {first : Kernel} (started : FirstShell image first)
    (messages : BootMessages first) : CursorsInRows first := by
  obtain ⟨memory, frame, slot, launched⟩ := started.launched
  obtain ⟨blank, printed, text, blankX, blankY, puts, screenX, screenY⟩ := messages
  have blankIn : blank.InRows := by
    refine ⟨by omega, ?_, by omega, .inr blankX⟩
    rw [blankX]
    decide
  have printedIn := blankIn.puts text printed puts
  intro term
  by_cases shown : term = first.oldTerminal
  · rw [shown, ← shownConsole, shownConsole_eq]
    exact printedIn.of_same screenX screenY
  · rw [consoleOf_hidden shown, launched.terminals]
    have other : term ≠ (boot memory).oldTerminal := by rwa [← launched.oldTerminal]
    rw [Function.update_of_ne other, boot_terminals]
    exact ⟨Int.le_refl 0, show (0 : Int) < NUM_COLS by decide, Int.le_refl 0, .inr rfl⟩

theorem run_inRows {first : Kernel} {keyboard : Keyboard} {inputs : List ConsoleInput}
    (started : FirstShell image first) (messages : BootMessages first)
    (starts : (consoleSystem image behind).Respects (TerminalDriver.StartsShells image behind)
      ⟨first, keyboard⟩ inputs)
    (ran : (consoleSystem image behind).run ⟨first, keyboard⟩ inputs = some driver) :
    CursorsInRows driver.kernel ∧ ∃ processes, Attended driver.kernel processes := by
  have preserved : ∀ (driver : TerminalDriver) (input : ConsoleInput) (next : TerminalDriver),
      (CursorsInRows driver.kernel ∧ ∃ processes, Attended driver.kernel processes) →
      driver.StartsShells image behind input →
      (consoleSystem image behind).step driver input = some next →
      CursorsInRows next.kernel ∧ ∃ processes, Attended next.kernel processes := by
    intro driver input next related startsHere stepped
    obtain ⟨inRows, processes, attended⟩ := related
    exact ⟨driver_step_inRows attended startsHere stepped inRows,
      driver_step_attended attended startsHere stepped⟩
  exact (Transitions.always_of_respects preserved
    ⟨started.cursorsInRows messages, started.attended⟩ starts).last ran

end Ece391
