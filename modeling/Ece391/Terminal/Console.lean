import Ece391.Kernel
import Mathlib.Data.List.GetD

namespace Ece391

/-! # The console functions of lib.c and terminal.c

They work on the video page, the cursor and the line buffer of the terminal
that is shown.  The position of the blinking cursor, which `update_cursor` sends
to the VGA controller, is not modelled: nothing reads it.
-/

def NUM_CHARS : Nat := 128

/-- The video page is indexed by byte. -/
structure Console where
  cells : Nat → Byte
  x : Int
  y : Int
  lineBuffer : Nat → Byte
  bufferI : Nat

namespace Console

def setCursor (console : Console) (x y : Int) : Console :=
  { console with x, y }

def clear (console : Console) : Console :=
  { console with
    cells := fun offset =>
      if offset < 2 * (NUM_ROWS * NUM_COLS) then (if offset % 2 = 0 then 32 else ATTRIB)
      else console.cells offset }

/-- A character and its attribute at the cursor.  The pages around the video
page are not present. -/
def storeCell (console : Console) (char : Byte) : Outcome Console :=
  let offset := 2 * (NUM_COLS * console.y + console.x)
  if 0 ≤ offset ∧ offset < MEM_4KB then
    .done { console with
      cells := Function.update (Function.update console.cells offset.toNat char)
        (offset.toNat + 1) ATTRIB }
  else .pageFault

/-- `screen_y` never grows at the end of a line: `screen_x` is already reduced
when it is divided. -/
def putc (console : Console) (char : Byte) : Outcome Console :=
  if char = 10 ∨ char = 13 then .done (console.setCursor 0 (console.y + 1))
  else do
    let console ← console.storeCell char
    let x := (console.x + 1).tmod NUM_COLS
    return console.setCursor x ((console.y + x.tdiv NUM_COLS).tmod NUM_ROWS)

/-- Rows move up by one; the attributes of the last row stay, and the second
statement after its loop, which is outside of it, stores at byte 4001. -/
def pressedEnter (console : Console) : Console :=
  { console with
    cells := fun offset =>
      if offset < 2 * (NUM_ROWS * NUM_COLS - 80) then
        (if offset % 2 = 0 then console.cells (offset + 160) else ATTRIB)
      else if offset < 2 * (NUM_ROWS * NUM_COLS) ∧ offset % 2 = 0 then 32
      else if offset = 2 * (NUM_ROWS * NUM_COLS) + 1 then ATTRIB
      else console.cells offset }

def moveBack (console : Console) : Outcome Console :=
  if console.x > 0 then (console.setCursor (console.x - 1) console.y).storeCell 32
  else (console.setCursor (NUM_COLS - 1) (console.y - 1)).storeCell 32

def pressedClear (console : Console) : Console :=
  { console.clear.setCursor 0 0 with bufferI := 0 }

def backspacePressed (console : Console) : Outcome Console :=
  if console.bufferI > 0 then { console with bufferI := console.bufferI - 1 }.moveBack
  else .done console

/-- The copy and the terminating NUL take no notice of a length. -/
def keyboardRead (console : Console) (buf : Nat → Byte) : Int × (Nat → Byte) × Console :=
  (console.bufferI,
    fun i =>
      if i < console.bufferI then console.lineBuffer i
      else if i = console.bufferI then 0
      else buf i,
    { console with bufferI := 0 })

/-- What `terminal_write` does at the first and at the last column; `long` says
that the string at `buf` has more than `NUM_COLS` characters. -/
def wrapLine (long : Prop) [Decidable long] (console : Console) : Console :=
  let console :=
    if console.x = 0 then
      if console.y < NUM_ROWS then console.setCursor 0 console.y
      else console.pressedEnter.setCursor 0 (NUM_ROWS - 1)
    else console
  if long ∧ console.x + 1 = NUM_COLS then
    if console.y + 1 ≠ NUM_ROWS then console.setCursor 0 (console.y + 1)
    else console.pressedEnter.setCursor 0 (NUM_ROWS - 1)
  else if console.x + 1 = NUM_COLS then
    if console.y < NUM_ROWS then console.setCursor 0 (console.y + 1)
    else console.pressedEnter.setCursor 0 (NUM_ROWS - 1)
  else console

end Console

/-- User memory from some address on: `none` where no page is present. -/
abbrev UserMemory := Nat → Option Byte

/-- The loop of `strlen`; every way through the address space meets the absent
page at 0. -/
def strlenFrom (buf : UserMemory) : (limit i : Nat) → Outcome Nat
  | 0, _ => .pageFault
  | limit + 1, i =>
      match buf i with
      | none => .pageFault
      | some byte => if byte = 0 then .done i else strlenFrom buf limit (i + 1)

def strlen (buf : UserMemory) : Outcome Nat := strlenFrom buf 4294967296 0

namespace Console

/-- The loop of `terminal_write` with `toPrint = buf[i]`; the list holds the
characters it has printed. -/
def writeLoop (buf : UserMemory) :
    (remaining i : Nat) → (toPrint : Byte) → Console → Outcome (List Byte × Console)
  | 0, _, _, console => .done ([], console)
  | remaining + 1, i, toPrint, console =>
      if toPrint = 0 then .done ([], console)
      else do
        let length ← strlen buf
        let console ← (console.wrapLine (length > NUM_COLS)).putc toPrint
        match buf (i + 1) with
        | none => .pageFault
        | some next => do
            let (printed, console) ← writeLoop buf remaining (i + 1) next console
            return (toPrint :: printed, console)

def terminalWrite (console : Console) (buf : UserMemory) (nbytes : Int) :
    Outcome (List Byte × Console) :=
  match buf 0 with
  | none => .pageFault
  | some toPrint => writeLoop buf nbytes.toNat 0 toPrint console

end Console

def kbdusTable : List Byte :=
  [0, 27, 49, 50, 51, 52, 53, 54, 55, 56, 57, 48, 45, 61, 8, 9, 113, 119, 101, 114, 116, 121, 117,
    105, 111, 112, 91, 93, 10, 0, 97, 115, 100, 102, 103, 104, 106, 107, 108, 59, 39, 96, 0, 92,
    122, 120, 99, 118, 98, 110, 109, 44, 46, 47, 0, 42, 0, 32, 0, 0, 0, 0, 0, 0, 0, 0, 0, 0, 0, 0,
    0, 0, 0, 0, 45, 0, 0, 0, 43]

def kbdusShiftTable : List Byte :=
  [0, 27, 33, 64, 35, 36, 37, 94, 38, 42, 40, 41, 95, 43, 0, 9, 81, 87, 69, 82, 84, 89, 85, 73, 79,
    80, 123, 125, 0, 0, 65, 83, 68, 70, 71, 72, 74, 75, 76, 58, 34, 126, 0, 124, 90, 88, 67, 86, 66,
    78, 77, 60, 62, 63, 0, 42, 0, 32, 0, 0, 0, 0, 0, 0, 0, 0, 0, 0, 0, 0, 0, 0, 0, 0, 45, 0, 0, 0, 43]

/-- The memory behind the two tables, which the codes of released keys read. -/
structure BehindTables where
  kbdus : Nat → Byte
  kbdusShift : Nat → Byte

/-- The modifier globals and `check_enter`. -/
structure Keyboard where
  shift : Bool
  ctrl : Bool
  capslock : Bool
  alt : Bool
  checkEnter : Bool
deriving DecidableEq

namespace BehindTables

variable (behind : BehindTables)

def kbdusAt (scancode : Byte) : Byte :=
  if scancode < 128 then kbdusTable.getD scancode.toNat 0 else behind.kbdus scancode.toNat

def kbdusShiftAt (scancode : Byte) : Byte :=
  if scancode < 128 then kbdusShiftTable.getD scancode.toNat 0
  else behind.kbdusShift scancode.toNat

end BehindTables

def altKey (keyboard : Keyboard) (scancode : Byte) : Keyboard :=
  if scancode = 0x38 then { keyboard with alt := true }
  else if scancode = 0xB8 then { keyboard with alt := false }
  else keyboard

/-- No other modifier changes with the alt key. -/
theorem altKey_eq (keyboard : Keyboard) (scancode : Byte) :
    ∃ alt, altKey keyboard scancode = { keyboard with alt } := by
  simp only [altKey]
  split
  · exact ⟨true, rfl⟩
  · split
    · exact ⟨false, rfl⟩
    · exact ⟨keyboard.alt, rfl⟩

@[simp] theorem altKey_shift (keyboard : Keyboard) (scancode : Byte) :
    (altKey keyboard scancode).shift = keyboard.shift := by
  obtain ⟨alt, same⟩ := altKey_eq keyboard scancode
  rw [same]

@[simp] theorem altKey_ctrl (keyboard : Keyboard) (scancode : Byte) :
    (altKey keyboard scancode).ctrl = keyboard.ctrl := by
  obtain ⟨alt, same⟩ := altKey_eq keyboard scancode
  rw [same]

@[simp] theorem altKey_capslock (keyboard : Keyboard) (scancode : Byte) :
    (altKey keyboard scancode).capslock = keyboard.capslock := by
  obtain ⟨alt, same⟩ := altKey_eq keyboard scancode
  rw [same]

/-- The `else if` chain of the keys that only change the modifiers. -/
def modifierKey (keyboard : Keyboard) (scancode : Byte) : Option Keyboard :=
  if scancode = 0x2A ∨ scancode = 0x36 then some { keyboard with shift := true }
  else if scancode = 0xAA ∨ scancode = 0xB6 then some { keyboard with shift := false }
  else if scancode = 0x1D then some { keyboard with ctrl := true }
  else if scancode = 0x9D then some { keyboard with ctrl := false }
  else if scancode = 0xBA then some { keyboard with capslock := !keyboard.capslock }
  else none

/-- The terminal that `alt` and a released function key select. -/
def switchKey (keyboard : Keyboard) (scancode : Byte) : Option Int :=
  if keyboard.alt then
    if scancode = 0xBB then some 0
    else if scancode = 0xBC then some 1
    else if scancode = 0xBD then some 2
    else none
  else none

namespace Console

variable (behind : BehindTables)

/-- The character a key stands for; a backspace takes effect here and leaves
nothing to print. -/
def keyChar (keyboard : Keyboard) (scancode : Byte) (console : Console) :
    Outcome (Byte × Console) :=
  let toPrint := behind.kbdusAt scancode
  if 97 ≤ toPrint ∧ toPrint ≤ 122 then
    .done (if keyboard.capslock && keyboard.shift then behind.kbdusAt scancode
      else if keyboard.capslock || keyboard.shift then behind.kbdusShiftAt scancode
      else toPrint, console)
  else if toPrint = 8 ∧ scancode = 0x0E then do
    let console ← console.backspacePressed
    return (0, console)
  else .done (if keyboard.shift then behind.kbdusShiftAt scancode else toPrint, console)

/-- The echo of a character, with `check_enter`. -/
def echoChar (toPrint : Byte) (console : Console) : Outcome (Bool × Console) :=
  if toPrint ≠ 10 then do
    let console ← console.putc toPrint
    return (false, console)
  else if console.y + 1 < NUM_ROWS then .done (false, console.setCursor 0 console.y)
  else .done (true, console.pressedEnter.setCursor 0 console.y)

def appendChar (console : Console) (toPrint : Byte) : Console :=
  { console with
    lineBuffer := Function.update console.lineBuffer console.bufferI toPrint
    bufferI := console.bufferI + 1 }

/-- Echo a character and append it to the line buffer, if that has room. -/
def keyEcho (toPrint : Byte) (console : Console) : Outcome (Bool × Console) :=
  if console.bufferI < NUM_CHARS then do
    let (checkEnter, console) ← console.echoChar toPrint
    return (checkEnter, console.appendChar toPrint)
  else .done (false, console)

/-- The second check for a backspace. -/
def eraseChar (toPrint : Byte) (console : Console) : Outcome (Byte × Console) :=
  if toPrint = 8 then do
    let console ← console.backspacePressed
    return (0, console)
  else .done (toPrint, console)

/-- The line break after an echo that ended at either border. -/
def keyWrap (checkEnter : Bool) (console : Console) : Console :=
  if console.x = 0 ∨ console.x = NUM_COLS then
    if console.y + 1 < NUM_ROWS then console.setCursor 0 (console.y + 1)
    else if checkEnter then console
    else console.pressedEnter
  else console

/-- What a key that is no modifier does while no control key is held. -/
def keyTyped (keyboard : Keyboard) (scancode : Byte) (console : Console) :
    Outcome (Keyboard × Console) := do
  let (toPrint, console) ← keyChar behind keyboard scancode console
  if scancode &&& 0x80 = 0 ∧ toPrint ≠ 0 then do
    let (toPrint, console) ← console.eraseChar toPrint
    let (checkEnter, console) ← keyEcho toPrint console
    return ({ keyboard with checkEnter }, keyWrap checkEnter console)
  else return (keyboard, console)

/-- A full line buffer gives up its last character for a newline. -/
def makeRoom (console : Console) (toPrint : Byte) : Console :=
  if console.bufferI = NUM_CHARS ∧ toPrint = 10 then
    { console with
      lineBuffer := Function.update console.lineBuffer (console.bufferI - 1) toPrint
      bufferI := console.bufferI - 1 }
  else console

/-- The terminal to switch to, if the key asks for one, and what else it does. -/
def terminalKeyPressed (keyboard : Keyboard) (scancode : Byte) (console : Console) :
    Outcome (Option Int × Keyboard × Console) :=
  let console := console.makeRoom (behind.kbdusAt scancode)
  let keyboard := altKey keyboard scancode
  match modifierKey keyboard scancode with
  | some keyboard => .done (none, keyboard, console)
  | none =>
      match switchKey keyboard scancode with
      | some term => .done (some term, keyboard, console)
      | none =>
          if keyboard.ctrl then
            .done (none, keyboard, if scancode = 0x26 then console.pressedClear else console)
          else if scancode ≠ 0x3A then do
            let (keyboard, console) ← keyTyped behind keyboard scancode console
            return (none, keyboard, console)
          else .done (none, keyboard, console)

end Console

end Ece391
