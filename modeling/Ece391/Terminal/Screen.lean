import Ece391.Terminal.Keys
import Ece391.Terminal.Output

namespace Ece391

open Library
open Outcome (Gives)

/-! # Where characters are stored

The turns of the loop of `terminal_write` and the keys, one after the other, on
the console of the shown terminal.  A switch that a key asks for is not made.
-/

structure Screen where
  keys : Keyboard
  console : Console

/-- One turn of the loop, of a string with more than `NUM_COLS` characters or
not, what comes behind the loop, a fault, and one key. -/
inductive Turn where
  | char (long : Bool) (toPrint : Byte)
  | endWrite
  | fault
  | key (scancode : Byte)

variable (behind : BehindTables)

def Screen.step (screen : Screen) : Turn → Option Screen
  | .char long toPrint =>
      ((screen.console.wrapLine (long = true)).putc toPrint).toOption.map fun console =>
        { screen with console }
  | .endWrite => some { screen with console := { screen.console with bufferI := 0 } }
  | .fault => none
  | .key scancode =>
      (screen.console.terminalKeyPressed behind screen.keys scancode).toOption.map fun result =>
        ⟨result.2.1, result.2.2⟩

def screenSystem : Transitions Screen Turn := ⟨Screen.step behind⟩

/-- A call of `terminal_write`, or a key. -/
inductive ScreenCall where
  | write (buf : UserMemory) (nbytes : Int)
  | key (scancode : Byte)

/-- The loop measures the whole string in every turn. -/
def ScreenCall.turns : ScreenCall → List Turn
  | .write buf nbytes =>
      match strlen buf with
      | .done length =>
          ((List.range (min length nbytes.toNat)).map fun i =>
            .char (NUM_COLS < length) ((buf i).getD 0)) ++ [.endWrite]
      | _ => if nbytes ≤ 0 ∧ buf 0 ≠ none then [.endWrite] else [.fault]
  | .key scancode => [.key scancode]

/-- The console of a call of `putc`, and its argument. -/
def Screen.prints (screen : Screen) : Turn → Option (Console × Byte)
  | .char long toPrint => some (screen.console.wrapLine (long = true), toPrint)
  | .key scancode =>
      match keyAction behind screen.keys scancode with
      | .type char =>
          if (screen.console.makeRoom (behind.kbdusAt scancode)).bufferI < NUM_CHARS ∧ char ≠ 10 then
            some (screen.console.makeRoom (behind.kbdusAt scancode), char)
          else none
      | _ => none
  | _ => none

/-- The cursor is on one of the 2000 cells that are seen. -/
structure Console.Visible (console : Console) : Prop where
  left : 0 ≤ console.x
  right : console.x < NUM_COLS
  top : 0 ≤ console.y
  bottom : console.y < NUM_ROWS

/-- The cursor comes to row 0 from another row, and not by one cell backwards. -/
def JumpsToTop (before after : Console) : Prop :=
  after.y = 0 ∧ before.y ≠ 0 ∧ NUM_COLS * after.y + after.x + 1 ≠ NUM_COLS * before.y + before.x

def Screen.Clears (screen : Screen) : Turn → Prop
  | .key scancode => keyAction behind screen.keys scancode = .clear
  | _ => False

/-- A character that is stored is stored in a visible cell, and the cursor does
not jump to row 0 unless the screen is cleared. -/
structure Lands (screen : Screen) (turn : Turn) : Prop where
  stored : ∀ found char, screen.prints behind turn = some (found, char) → char ≠ 10 → char ≠ 13 →
    found.Visible
  stays : ∀ next, screen.step behind turn = some next → ¬ screen.Clears behind turn →
    ¬ JumpsToTop screen.console next.console

/-- At the end of the last row only a string of more than 80 characters goes on,
and below that row nothing is echoed but a newline. -/
def HasRow (screen : Screen) : Turn → Prop
  | .char long toPrint =>
      screen.console.x + 1 = NUM_COLS → screen.console.y + 1 = NUM_ROWS →
        long = true ∨ toPrint = 10 ∨ toPrint = 13
  | .key scancode => screen.prints behind (.key scancode) ≠ none → screen.console.y < NUM_ROWS
  | _ => True

variable {behind : BehindTables} {screen next : Screen} {console after : Console} {turn : Turn}
  {char scancode : Byte} {buf : UserMemory} {nbytes : Int}

namespace Console

theorem Visible.inRows (visible : console.Visible) : console.InRows :=
  ⟨visible.left, visible.right, visible.top, .inl visible.bottom⟩

theorem InRows.visible (inRows : console.InRows) (bottom : console.y < NUM_ROWS) : console.Visible :=
  ⟨inRows.left, inRows.right, inRows.top, bottom⟩

/-- The row that `wrap_line` leaves: the one behind the last row after a short
string that came to its end. -/
theorem InRows.wrapLine_row (inRows : console.InRows) (long : Prop) [Decidable long] :
    ((console.wrapLine long).y = 0 → console.y = 0) ∧
      ((console.wrapLine long).y < NUM_ROWS ↔
        (console.x + 1 = NUM_COLS → console.y + 1 = NUM_ROWS → long)) := by
  obtain ⟨left, right, top, bottom⟩ := inRows
  unfold NUM_COLS at right
  unfold NUM_ROWS at bottom
  simp only [Console.wrapLine]
  simp only [NUM_COLS, NUM_ROWS]
  by_cases first : console.x = 0
  · have notLast : ¬ (console.x + 1 = 80) := by omega
    by_cases above : console.y < 25
    · simp [first, above, setCursor]
    · simp [first, above, setCursor]
  · have above : console.y < 25 := bottom.resolve_right first
    by_cases last : console.x + 1 = 80
    · by_cases isLong : long
      · by_cases lastRow : console.y + 1 = 25
        · simp [first, last, isLong, lastRow, setCursor]
        · simp [first, last, isLong, lastRow, setCursor]
          omega
      · simp [first, last, isLong, above, setCursor]
        omega
    · simp [first, last, above]

/-- The index of the cell at the cursor, in reading order. -/
def cellIndex (console : Console) : Nat := (NUM_COLS * console.y + console.x).toNat

theorem Visible.cellIndex (visible : console.Visible) :
    (console.cellIndex : Int) = NUM_COLS * console.y + console.x := by
  obtain ⟨left, right, top, bottom⟩ := visible
  simp only [Console.cellIndex, NUM_COLS]
  omega

theorem Visible.storeCell (visible : console.Visible) (char : Byte) :
    console.storeCell char = .done { console with
      cells := Function.update (Function.update console.cells (2 * console.cellIndex) char)
        (2 * console.cellIndex + 1) ATTRIB } := by
  have index := visible.cellIndex
  obtain ⟨left, right, top, bottom⟩ := visible
  have inPage : 0 ≤ 2 * ((NUM_COLS : Int) * console.y + console.x) ∧
      2 * ((NUM_COLS : Int) * console.y + console.x) < MEM_4KB := by
    simp only [NUM_COLS, NUM_ROWS, MEM_4KB] at *
    omega
  have offset : (2 * ((NUM_COLS : Int) * console.y + console.x)).toNat = 2 * console.cellIndex := by
    omega
  rw [Console.storeCell, if_pos inPage, offset]

/-- A character in a visible cell moves the cursor along its row. -/
theorem Visible.putc (visible : console.Visible) (stored : ¬(char = 10 ∨ char = 13)) :
    console.putc char = .done { console with
      cells := Function.update (Function.update console.cells (2 * console.cellIndex) char)
        (2 * console.cellIndex + 1) ATTRIB
      x := if console.x + 1 = NUM_COLS then 0 else console.x + 1 } := by
  obtain ⟨left, right, top, bottom⟩ := visible
  have column : (console.x + 1).tmod NUM_COLS =
      if console.x + 1 = NUM_COLS then 0 else console.x + 1 := by
    unfold NUM_COLS at *
    rw [Int.tmod_eq_emod_of_nonneg (by omega)]
    split <;> omega
  have row : (console.y + ((console.x + 1).tmod NUM_COLS).tdiv NUM_COLS).tmod NUM_ROWS =
      console.y := by
    have same : ((console.x + 1).tmod NUM_COLS).tdiv NUM_COLS = 0 := by
      apply Int.tdiv_eq_zero_of_lt
      · rw [column]
        split <;> omega
      · rw [column]
        split <;> omega
    rw [same, Int.add_zero]
    exact Int.tmod_eq_of_lt top bottom
  rw [Console.putc, if_neg stored, Visible.storeCell ⟨left, right, top, bottom⟩, Outcome.done_bind,
    Outcome.pure_eq]
  simp only [setCursor, row]
  rw [column]

theorem InRows.endWrite (inRows : console.InRows) : InRows { console with bufferI := 0 } :=
  inRows.of_same rfl rfl

end Console

theorem screen_step_inRows (inRows : screen.console.InRows)
    (stepped : screen.step behind turn = some next) : next.console.InRows := by
  cases turn with
  | char long toPrint =>
      obtain ⟨printed, printing, rfl⟩ := Option.map_eq_some_iff.mp stepped
      have wrappedIn := (inRows.wrapLine (long = true)).1
      exact wrappedIn.putc toPrint printed (Outcome.toOption_eq_some.mp printing)
  | endWrite =>
      cases stepped
      exact inRows.endWrite
  | fault => cases stepped
  | key scancode =>
      obtain ⟨result, handled, rfl⟩ := Option.map_eq_some_iff.mp stepped
      exact inRows.terminalKeyPressed result (Outcome.toOption_eq_some.mp handled)

theorem putc_newline (newline : char = 10 ∨ char = 13) :
    console.putc char = .done (console.setCursor 0 (console.y + 1)) := if_pos newline

theorem lands_char {long : Bool} (inRows : screen.console.InRows) :
    Lands behind screen (.char long char) ↔ HasRow behind screen (.char long char) := by
  obtain ⟨wrappedIn, _⟩ := inRows.wrapLine (long = true)
  obtain ⟨top, bottom⟩ := inRows.wrapLine_row (long = true)
  have prints : screen.prints behind (.char long char) =
      some (screen.console.wrapLine (long = true), char) := rfl
  constructor
  · intro lands lastColumn lastRow
    by_cases stored : char = 10 ∨ char = 13
    · exact .inr stored
    · have notNewline : char ≠ 10 ∧ char ≠ 13 := not_or.mp stored
      have visible := lands.stored _ _ prints notNewline.1 notNewline.2
      exact .inl (bottom.mp visible.bottom lastColumn lastRow)
  · intro hasRow
    have visible : ¬(char = 10 ∨ char = 13) →
        (screen.console.wrapLine (long = true)).Visible := by
      intro stored
      refine wrappedIn.visible (bottom.mpr fun lastColumn lastRow => ?_)
      exact (hasRow lastColumn lastRow).resolve_right stored
    refine ⟨fun found other isPrinted notLine notReturn => ?_, fun next stepped _ jumps => ?_⟩
    · cases isPrinted
      exact visible (not_or.mpr ⟨notLine, notReturn⟩)
    · obtain ⟨after, printing, rfl⟩ := Option.map_eq_some_iff.mp stepped
      have printed := Outcome.toOption_eq_some.mp printing
      by_cases stored : char = 10 ∨ char = 13
      · rw [putc_newline stored] at printed
        cases printed
        have isTop : (screen.console.wrapLine (long = true)).y + 1 = 0 := jumps.1
        have below := wrappedIn.top
        omega
      · rw [(visible stored).putc stored] at printed
        cases printed
        exact jumps.2.1 (top jumps.1)

namespace Console

theorem makeRoom_cursor (console : Console) (toPrint : Byte) :
    (console.makeRoom toPrint).x = console.x ∧ (console.makeRoom toPrint).y = console.y := by
  simp only [makeRoom]
  split
  · exact ⟨rfl, rfl⟩
  · exact ⟨rfl, rfl⟩

theorem keyWrap_row (console : Console) (checkEnter : Bool) :
    (console.keyWrap checkEnter).y = console.y ∨
      (console.keyWrap checkEnter).y = console.y + 1 := by
  simp only [keyWrap]
  split
  · split
    · exact .inr rfl
    · split
      · exact .inl rfl
      · exact .inl rfl
  · exact .inl rfl

/-- An erased character moves the cursor by one cell. -/
theorem moveBack_position (left : 0 ≤ console.x) :
    Gives (fun erased =>
        NUM_COLS * erased.y + erased.x + 1 = NUM_COLS * console.y + console.x) console.moveBack := by
  simp only [moveBack]
  split
  · intro erased done
    obtain ⟨x, y, _⟩ := storeCell_cursor 32 erased done
    rw [x, y]
    dsimp only [setCursor]
    omega
  · intro erased done
    obtain ⟨x, y, _⟩ := storeCell_cursor 32 erased done
    rw [x, y]
    dsimp only [setCursor]
    simp only [NUM_COLS]
    omega

theorem backspacePressed_position (left : 0 ≤ console.x) :
    Gives (fun erased => (erased.x = console.x ∧ erased.y = console.y) ∨
        NUM_COLS * erased.y + erased.x + 1 = NUM_COLS * console.y + console.x)
      console.backspacePressed := by
  simp only [backspacePressed]
  split
  · let shorter := { console with bufferI := console.bufferI - 1 }
    have moved := moveBack_position (show 0 ≤ shorter.x from left)
    exact fun erased done => .inr (moved erased done)
  · exact .done (.inl ⟨rfl, rfl⟩)

/-- The row in which the echo of a key leaves the cursor, which may break the
line then. -/
theorem keyEcho_row
    (fits : console.bufferI < NUM_CHARS → char ≠ 10 → console.Visible) (notReturn : char ≠ 13) :
    Gives (fun result => result.2.y = console.y) (console.keyEcho char) := by
  simp only [keyEcho]
  split
  · rename_i room
    simp only [echoChar]
    by_cases newline : char = 10
    · rw [if_neg (not_not_intro newline)]
      split
      · exact .done rfl
      · exact .done rfl
    · rw [if_pos newline, (fits room newline).putc (not_or.mpr ⟨newline, notReturn⟩)]
      exact .done rfl
  · exact .done rfl

end Console

theorem prints_key {found : Console} :
    screen.prints behind (.key scancode) = some (found, char) ↔
      keyAction behind screen.keys scancode = .type char ∧ char ≠ 10 ∧
        found = screen.console.makeRoom (behind.kbdusAt scancode) ∧ found.bufferI < NUM_CHARS := by
  simp only [Screen.prints]
  constructor
  · intro prints
    split at prints
    · rename_i typed action
      split at prints
      · rename_i room
        cases prints
        exact ⟨action, room.2, rfl, room.1⟩
      · cases prints
    · cases prints
  · rintro ⟨action, notNewline, rfl, room⟩
    rw [action]
    dsimp only
    rw [if_pos ⟨room, notNewline⟩]

theorem lands_key (inRows : screen.console.InRows) :
    Lands behind screen (.key scancode) ↔ HasRow behind screen (.key scancode) := by
  have roomIn := inRows.makeRoom (behind.kbdusAt scancode)
  obtain ⟨roomX, roomY⟩ := screen.console.makeRoom_cursor (behind.kbdusAt scancode)
  constructor
  · intro lands prints
    obtain ⟨⟨found, char⟩, isPrinted⟩ := Option.ne_none_iff_exists'.mp prints
    obtain ⟨action, notNewline, rfl, room⟩ := prints_key.mp isPrinted
    obtain ⟨pressed, _, isTyped, _⟩ := keyAction_type action
    have notReturn : char ≠ 13 := isTyped ▸ typedChar_ne_return pressed
    rw [← roomY]
    exact (lands.stored _ _ isPrinted notNewline notReturn).bottom
  · intro hasRow
    have visible : ∀ found char, screen.prints behind (.key scancode) = some (found, char) →
        found.Visible := by
      intro found char isPrinted
      have bottom := hasRow (by rw [isPrinted]; exact Option.some_ne_none _)
      obtain ⟨_, _, rfl, _⟩ := prints_key.mp isPrinted
      exact roomIn.visible (by rw [roomY]; exact bottom)
    refine ⟨fun found char isPrinted _ _ => visible found char isPrinted,
      fun next stepped stays jumps => ?_⟩
    obtain ⟨result, handled, rfl⟩ := Option.map_eq_some_iff.mp stepped
    have keyed := Outcome.toOption_eq_some.mp handled
    rw [Console.terminalKeyPressed_eq] at keyed
    dsimp only at keyed
    cases action : keyAction behind screen.keys scancode with
    | nothing =>
        rw [action] at keyed
        cases keyed
        exact jumps.2.1 (roomY.symm.trans jumps.1)
    | switchTo term =>
        rw [action] at keyed
        cases keyed
        exact jumps.2.1 (roomY.symm.trans jumps.1)
    | clear => exact stays action
    | backspace =>
        rw [action] at keyed
        obtain ⟨erased, erasing, returned⟩ := Outcome.bind_eq_done.mp keyed
        cases returned
        rcases Console.backspacePressed_position roomIn.left erased erasing with same | back
        · exact jumps.2.1 ((roomY.symm.trans same.2.symm).trans jumps.1)
        · exact jumps.2.2 (by rw [← roomX, ← roomY]; exact back)
    | type char =>
        rw [action] at keyed
        obtain ⟨⟨checkEnter, echoed⟩, echoing, returned⟩ := Outcome.bind_eq_done.mp keyed
        cases returned
        obtain ⟨pressed, _, isTyped, _⟩ := keyAction_type action
        have notReturn : char ≠ 13 := isTyped ▸ typedChar_ne_return pressed
        have row : echoed.y = _ := Console.keyEcho_row
          (fun room notNewline => visible _ char (prints_key.mpr ⟨action, notNewline, rfl, room⟩))
          notReturn _ echoing
        have top := inRows.top
        obtain ⟨isTop, notTop, _⟩ := jumps
        dsimp only at isTop
        rcases echoed.keyWrap_row checkEnter with same | below <;> omega

theorem lands_iff_hasRow (inRows : screen.console.InRows) (turn : Turn) :
    Lands behind screen turn ↔ HasRow behind screen turn := by
  cases turn with
  | char long toPrint => exact lands_char inRows
  | key scancode => exact lands_key inRows
  | endWrite =>
      refine ⟨fun _ => trivial, fun _ => ⟨nofun, fun next stepped _ jumps => ?_⟩⟩
      cases stepped
      exact jumps.2.1 jumps.1
  | fault => exact ⟨fun _ => trivial, fun _ => ⟨nofun, nofun⟩⟩

theorem strlenFrom_cases (buf : UserMemory) (limit i : Nat) :
    strlenFrom buf limit i = .pageFault ∨ ∃ length, strlenFrom buf limit i = .done length := by
  induction limit generalizing i with
  | zero => exact .inl rfl
  | succ limit ih =>
      simp only [strlenFrom]
      split
      · exact .inl rfl
      · split
        · exact .inr ⟨i, rfl⟩
        · exact ih (i + 1)

/-- The loop of `terminal_write` is the run of its turns. -/
theorem writeLoop_run {keys : Keyboard} {length remaining i : Nat} {toPrint : Byte}
    (measured : strlen buf = .done length) (inside : i ≤ length) (loaded : buf i = some toPrint) :
    (screenSystem behind).run ⟨keys, console⟩
        ((List.range' i (min (length - i) remaining)).map fun j =>
          .char (NUM_COLS < length) ((buf j).getD 0)) =
      (console.writeLoop buf remaining i toPrint).toOption.map fun result => ⟨keys, result.2⟩ := by
  obtain ⟨_, nonzero, ended⟩ := strlen_eq_done.mp measured
  induction remaining generalizing i toPrint console with
  | zero =>
      rw [Nat.min_zero]
      rfl
  | succ remaining ih =>
      by_cases last : i = length
      · subst last
        cases loaded.symm.trans ended
        rw [Nat.sub_self, Nat.zero_min]
        rfl
      · obtain ⟨byte, present, notNul⟩ := nonzero i (by omega)
        cases loaded.symm.trans present
        have count : min (length - i) (remaining + 1) = min (length - (i + 1)) remaining + 1 := by
          omega
        obtain ⟨following, followingLoaded⟩ : ∃ following, buf (i + 1) = some following := by
          by_cases next : i + 1 = length
          · exact ⟨0, by rw [next, ended]⟩
          · obtain ⟨following, isFollowing, _⟩ := nonzero (i + 1) (by omega)
            exact ⟨following, isFollowing⟩
        rw [count, List.range'_succ, List.map_cons, loaded, Transitions.run]
        simp only [Console.writeLoop]
        rw [if_neg notNul, measured, Outcome.done_bind]
        simp only [screenSystem, Screen.step, Option.getD_some, decide_eq_true_eq, gt_iff_lt,
          followingLoaded, Outcome.toOption_bind]
        cases ((console.wrapLine (NUM_COLS < length)).putc toPrint).toOption with
        | none => rfl
        | some printed =>
            refine (ih (show i + 1 ≤ length by omega) followingLoaded).trans ?_
            rw [Option.bind_some]
            cases (printed.writeLoop buf remaining (i + 1) following).toOption with
            | none => rfl
            | some result => rfl

theorem terminalWrite_run (keys : Keyboard) (console : Console) (buf : UserMemory) (nbytes : Int) :
    (screenSystem behind).run ⟨keys, console⟩ (ScreenCall.write buf nbytes).turns =
      (console.terminalWrite buf nbytes).toOption.map fun result =>
        ⟨keys, { result.2 with bufferI := 0 }⟩ := by
  simp only [ScreenCall.turns, Console.terminalWrite]
  rcases strlenFrom_cases buf 4294967296 0 with faulted | ⟨length, done⟩
  · have unmeasured : strlen buf = .pageFault := faulted
    rw [unmeasured]
    cases loaded : buf 0 with
    | none =>
        dsimp only
        rw [if_neg (fun both => both.2 rfl)]
        rfl
    | some toPrint =>
        have notNul : toPrint ≠ 0 := by
          intro zero
          have measured : strlen buf = .done 0 :=
            strlen_eq_done.mpr ⟨by decide, fun j below => by omega, by rw [loaded, zero]⟩
          rw [unmeasured] at measured
          cases measured
        by_cases nothing : nbytes ≤ 0
        · have noTurns : nbytes.toNat = 0 := by omega
          dsimp only
          rw [if_pos ⟨nothing, Option.some_ne_none _⟩, noTurns]
          rfl
        · obtain ⟨remaining, turns⟩ : ∃ remaining, nbytes.toNat = remaining + 1 :=
            ⟨nbytes.toNat - 1, by omega⟩
          dsimp only
          rw [if_neg (fun both => nothing both.1), turns, Console.writeLoop, if_neg notNul, unmeasured]
          rfl
  · have measured : strlen buf = .done length := done
    obtain ⟨toPrint, loaded⟩ : ∃ toPrint, buf 0 = some toPrint := by
      obtain ⟨_, nonzero, ended⟩ := strlen_eq_done.mp measured
      by_cases empty : length = 0
      · exact ⟨0, by rw [← empty, ended]⟩
      · obtain ⟨byte, present, _⟩ := nonzero 0 (by omega)
        exact ⟨byte, present⟩
    have ran : (screenSystem behind).run ⟨keys, console⟩
          ((List.range' 0 (min (length - 0) nbytes.toNat)).map fun j =>
            .char (NUM_COLS < length) ((buf j).getD 0)) =
        (console.writeLoop buf nbytes.toNat 0 toPrint).toOption.map fun result =>
          ⟨keys, result.2⟩ :=
      writeLoop_run measured (Nat.zero_le _) loaded
    rw [measured, loaded]
    dsimp only
    rw [Nat.sub_zero] at ran
    rw [Transitions.run_append_bind, List.range_eq_range', ran]
    cases (console.writeLoop buf nbytes.toNat 0 toPrint).toOption with
    | none => rfl
    | some result => rfl

/-- Whatever is written and typed, every character lands on the screen exactly
when the row it needs is there at each turn. -/
theorem displayed_characters_land_iff {behind : BehindTables} {keys : Keyboard} {console : Console}
    {calls : List ScreenCall} (visible : console.Visible) :
    (screenSystem behind).Respects (Lands behind) ⟨keys, console⟩
        (calls.flatMap ScreenCall.turns) ↔
      (screenSystem behind).Respects (HasRow behind) ⟨keys, console⟩
        (calls.flatMap ScreenCall.turns) := by
  have preserved : ∀ (screen : Screen) (turn : Turn) (next : Screen), screen.console.InRows →
      (screenSystem behind).step screen turn = some next → next.console.InRows :=
    fun screen turn next inRows stepped => screen_step_inRows inRows stepped
  exact Transitions.respects_congr_of preserved
    (fun screen turn inRows => lands_iff_hasRow inRows turn) visible.inRows

def blankConsole (x y : Int) : Console := ⟨fun _ => 0, x, y, fun _ => 0, 0⟩

/-- The letter a. -/
def oneChar : UserMemory := fun i => some (if i = 0 then 97 else 0)

theorem oneChar_turns : (ScreenCall.write oneChar 1).turns = [.char false 97, .endWrite] := by
  have measured : strlen oneChar = .done 1 := by
    refine strlen_eq_done.mpr ⟨by decide, fun j below => ⟨97, ?_, by decide⟩, rfl⟩
    obtain rfl : j = 0 := by omega
    rfl
  simp only [ScreenCall.turns, measured]
  rfl

theorem displayed_characters_land_iff_top :
    (screenSystem zeroedTables).Respects (Lands zeroedTables) ⟨noModifiers, blankConsole 0 0⟩
        ([.write oneChar 1, .key 0x1E].flatMap ScreenCall.turns) ↔
      (screenSystem zeroedTables).Respects (HasRow zeroedTables) ⟨noModifiers, blankConsole 0 0⟩
        ([.write oneChar 1, .key 0x1E].flatMap ScreenCall.turns) :=
  displayed_characters_land_iff ⟨by decide, by decide, by decide, by decide⟩

/-- A short string that goes on at the last cell is stored behind it. -/
theorem last_cell_leaves_screen :
    (blankConsole 79 24).Visible ∧
      ¬ (screenSystem zeroedTables).Respects (Lands zeroedTables)
        ⟨noModifiers, blankConsole 79 24⟩ ([.write oneChar 1].flatMap ScreenCall.turns) := by
  have visible : (blankConsole 79 24).Visible := ⟨by decide, by decide, by decide, by decide⟩
  refine ⟨visible, fun lands => ?_⟩
  rw [List.flatMap_singleton, oneChar_turns] at lands
  have hasRow := (lands_iff_hasRow visible.inRows _).mp lands.1
  exact absurd (hasRow rfl rfl) (by decide)

end Ece391
