import Ece391.Library.Ending
import Ece391.Terminal.Screen

namespace Ece391

open Library

/-! # The line that is typed

The line buffer and the cells before the cursor are edited apart from each
other; both are compared with a line edited by itself.
-/

/-- The effect of a key on a line of at most `NUM_CHARS` characters. -/
def editLine : KeyAction → List Byte → List Byte
  | .type char, line => if line.length < NUM_CHARS then line ++ [char] else line
  | .backspace, line => line.dropLast
  | .clear, _ => []
  | _, line => line

@[simp] theorem editLine_type (char : Byte) (line : List Byte) :
    editLine (.type char) line = if line.length < NUM_CHARS then line ++ [char] else line := rfl

@[simp] theorem editLine_backspace (line : List Byte) : editLine .backspace line = line.dropLast :=
  rfl

structure Typing where
  screen : Screen
  line : List Byte

def Typing.step (behind : BehindTables) (typing : Typing) (scancode : Byte) : Option Typing :=
  (typing.screen.step behind (.key scancode)).map fun screen =>
    ⟨screen, editLine (keyAction behind typing.screen.keys scancode) typing.line⟩

def typingSystem (behind : BehindTables) : Transitions Typing Byte := ⟨Typing.step behind⟩

/-- The characters on the screen, in reading order. -/
def Console.chars (console : Console) (k : Nat) : Byte := console.cells (2 * k)

/-- The line is what the buffer holds and what the cells before the cursor show. -/
structure ShowsLine (typing : Typing) : Prop where
  count : typing.screen.console.bufferI = typing.line.length
  buffer : EndsAt typing.screen.console.lineBuffer typing.screen.console.bufferI typing.line
  cells : EndsAt typing.screen.console.chars typing.screen.console.cellIndex typing.line

/-- The key is not Enter and does not clear the screen. -/
def OnlyEdits (behind : BehindTables) (typing : Typing) (scancode : Byte) : Prop :=
  scancode ≠ 0x1C ∧ keyAction behind typing.screen.keys scancode ≠ .clear

/-- A full line whose cursor is in the first column is already shown before the
place one row further down, too. -/
def Typing.Repeats (typing : Typing) : Prop :=
  typing.line.length = NUM_CHARS → typing.screen.console.x = 0 →
    EndsAt typing.screen.console.chars (typing.screen.console.cellIndex + NUM_COLS) typing.line

/-- With a full buffer and the cursor in the first column no character is typed,
unless moving the cursor down makes no difference. -/
def StaysInLine (behind : BehindTables) (typing : Typing) (scancode : Byte) : Prop :=
  ∀ char, keyAction behind typing.screen.keys scancode = .type char → typing.Repeats

/-- A line on the screen, with the cursor behind it. -/
structure Typed (typing : Typing) : Prop extends ShowsLine typing where
  visible : typing.screen.console.Visible
  bounded : typing.line.length ≤ NUM_CHARS

namespace Console

variable {console : Console} {text : List Byte} {char : Byte}

theorem pressedEnter_chars {k : Nat} (above : k < 1920) :
    console.pressedEnter.chars k = console.chars (k + 80) := by
  unfold chars pressedEnter NUM_ROWS NUM_COLS
  dsimp only
  rw [if_pos (by omega), if_pos (by omega)]
  congr 1

/-- The line break takes the cursor one row further down in the text; at the
bottom of the screen the text moves up instead. -/
theorem Visible.keyWrap (visible : console.Visible) (first : console.x = 0) :
    (console.keyWrap false).Visible ∧ ∀ text : List Byte, text.length ≤ NUM_CHARS →
      (EndsAt (console.keyWrap false).chars (console.keyWrap false).cellIndex text ↔
        EndsAt console.chars (console.cellIndex + NUM_COLS) text) := by
  have index := visible.cellIndex
  obtain ⟨left, right, top, bottom⟩ := visible
  simp only [Console.keyWrap]
  rw [if_pos (.inl first)]
  by_cases above : console.y + 1 < NUM_ROWS
  · rw [if_pos above]
    have below : (console.setCursor 0 (console.y + 1)).Visible :=
      ⟨Int.le_refl 0, show (0 : Int) < NUM_COLS by decide, by dsimp only [setCursor]; omega, above⟩
    refine ⟨below, fun text _ => ?_⟩
    have moved := below.cellIndex
    dsimp only [setCursor] at moved
    have place : (console.setCursor 0 (console.y + 1)).cellIndex = console.cellIndex + NUM_COLS := by
      simp only [NUM_COLS] at *
      dsimp only [setCursor]
      omega
    rw [place]
    rfl
  · rw [if_neg above, if_neg Bool.false_ne_true]
    refine ⟨⟨left, right, top, bottom⟩, fun text short => ?_⟩
    have bottomRow : console.cellIndex = 1920 := by
      simp only [NUM_ROWS] at *
      simp only [NUM_COLS] at *
      omega
    have same : console.pressedEnter.cellIndex = 1920 := bottomRow
    have scrolled : EndsAt console.pressedEnter.chars 1920 text ↔
        EndsAt (fun k => console.chars (k + NUM_COLS)) 1920 text :=
      ⟨fun ends => ends.congr fun k below => (pressedEnter_chars below).symm,
        fun ends => ends.congr fun k below => pressedEnter_chars below⟩
    have room : text.length ≤ 1920 := by
      unfold NUM_CHARS at short
      omega
    rw [same, bottomRow, scrolled, EndsAt.shifted room]

/-- Storing a character changes one character on the screen. -/
theorem chars_stored (cells : Nat → Byte) (index k : Nat) (char : Byte) :
    Function.update (Function.update cells (2 * index) char) (2 * index + 1) ATTRIB (2 * k) =
      if k = index then char else cells (2 * k) := by
  rw [Function.update_of_ne (by omega)]
  by_cases here : k = index
  · rw [here, Function.update_self, if_pos rfl]
  · rw [Function.update_of_ne (by omega), if_neg here]

/-- A character taken back: the cursor is where it was stored. -/
theorem Visible.moveBack (visible : console.Visible) (notFirst : 0 < console.cellIndex) :
    ∃ after, console.moveBack = .done after ∧ after.Visible ∧
      after.cellIndex = console.cellIndex - 1 ∧
      (∀ k < console.cellIndex - 1, after.chars k = console.chars k) ∧
      after.lineBuffer = console.lineBuffer ∧ after.bufferI = console.bufferI := by
  have index := visible.cellIndex
  obtain ⟨left, right, top, bottom⟩ := visible
  unfold NUM_COLS at right index
  obtain ⟨x, y, moves, onScreen, place⟩ : ∃ x y,
      console.moveBack = (console.setCursor x y).storeCell 32 ∧ (console.setCursor x y).Visible ∧
      80 * y + x + 1 = 80 * console.y + console.x := by
    by_cases inside : console.x > 0
    · refine ⟨_, _, if_pos inside, ⟨?_, ?_, top, bottom⟩, by omega⟩
      · dsimp only [setCursor]
        omega
      · dsimp only [setCursor]
        simp only [NUM_COLS]
        omega
    · refine ⟨_, _, if_neg inside, ⟨show (0 : Int) ≤ NUM_COLS - 1 by decide,
        show (NUM_COLS - 1 : Int) < NUM_COLS by decide, ?_, ?_⟩, ?_⟩
      · dsimp only [setCursor]
        omega
      · dsimp only [setCursor]
        omega
      · simp only [NUM_COLS]
        omega
  have moved : (console.setCursor x y).cellIndex = console.cellIndex - 1 := by
    have here : ((console.setCursor x y).cellIndex : Int) = NUM_COLS * y + x := onScreen.cellIndex
    unfold NUM_COLS at here
    omega
  refine ⟨_, moves.trans (onScreen.storeCell 32), ⟨onScreen.left, onScreen.right, onScreen.top,
    onScreen.bottom⟩, moved, fun k below => ?_, rfl, rfl⟩
  dsimp only [chars]
  rw [chars_stored, moved, if_neg (by omega)]
  rfl

theorem Visible.prints (visible : console.Visible) (printed : ¬(char = 10 ∨ char = 13)) :
    ∃ put, console.putc char = .done put ∧ put.Visible ∧
      put.x = (if console.x + 1 = NUM_COLS then 0 else console.x + 1) ∧ put.y = console.y ∧
      (∀ k, put.chars k = if k = console.cellIndex then char else console.chars k) ∧
      put.lineBuffer = console.lineBuffer ∧ put.bufferI = console.bufferI := by
  have left := visible.left
  have right := visible.right
  refine ⟨_, visible.putc printed, ⟨?_, ?_, visible.top, visible.bottom⟩, rfl, rfl,
    fun k => chars_stored console.cells console.cellIndex k char, rfl, rfl⟩
  · dsimp only
    split <;> omega
  · dsimp only
    split
    · decide
    · omega

/-- A typed character is shown behind the line. -/
theorem Visible.type (visible : console.Visible) (room : console.bufferI < NUM_CHARS)
    (printed : ¬(char = 10 ∨ char = 13)) (short : text.length < NUM_CHARS)
    (shown : EndsAt console.chars console.cellIndex text) :
    ∃ echoed, console.keyEcho char = .done (false, echoed) ∧
      (echoed.keyWrap false).Visible ∧
      EndsAt (echoed.keyWrap false).chars (echoed.keyWrap false).cellIndex (text ++ [char]) ∧
      echoed.lineBuffer = Function.update console.lineBuffer console.bufferI char ∧
      echoed.bufferI = console.bufferI + 1 := by
  obtain ⟨put, putting, seen, putX, putY, putChars, lineBuffer, bufferI⟩ := visible.prints printed
  have echoes : console.keyEcho char = .done (false, put.appendChar char) := by
    rw [keyEcho, if_pos room, echoChar, if_pos (not_or.mp printed).1, putting]
    rfl
  refine ⟨put.appendChar char, echoes, ?_⟩
  have line : (put.appendChar char).lineBuffer =
        Function.update console.lineBuffer console.bufferI char ∧
      (put.appendChar char).bufferI = console.bufferI + 1 := by
    rw [appendChar, lineBuffer, bufferI]
    exact ⟨rfl, rfl⟩
  have stands : EndsAt (put.appendChar char).chars (console.cellIndex + 1) (text ++ [char]) := by
    refine shown.append (fun k below => ?_) ?_
    · exact (putChars k).trans (if_neg (by omega))
    · exact (putChars console.cellIndex).trans (if_pos rfl)
  have index := visible.cellIndex
  have left := visible.left
  have right := visible.right
  have onScreen : (put.appendChar char).Visible := ⟨seen.left, seen.right, seen.top, seen.bottom⟩
  have place : ((put.appendChar char).cellIndex : Int) = NUM_COLS * console.y + put.x := by
    rw [← putY]
    exact onScreen.cellIndex
  unfold NUM_COLS at putX place index
  by_cases last : console.x + 1 = (80 : Nat)
  · rw [if_pos last] at putX
    have longer : (text ++ [char]).length ≤ NUM_CHARS := by
      rw [List.length_append, List.length_singleton]
      omega
    obtain ⟨wrapped, moves⟩ := onScreen.keyWrap putX
    have behind : (put.appendChar char).cellIndex + NUM_COLS = console.cellIndex + 1 := by
      simp only [NUM_COLS]
      omega
    rw [← behind] at stands
    exact ⟨wrapped, (moves _ longer).mpr stands, line⟩
  · rw [if_neg last] at putX
    have stays : (put.appendChar char).keyWrap false = put.appendChar char := by
      refine if_neg fun border => ?_
      have column : put.x = 0 ∨ put.x = (80 : Nat) := border
      unfold NUM_COLS at right
      omega
    have behind : (put.appendChar char).cellIndex = console.cellIndex + 1 := by omega
    rw [stays, behind]
    exact ⟨onScreen, stands, line⟩

end Console

variable {behind : BehindTables} {typing : Typing} {scancode : Byte}

theorem Typed.withKeys (typed : Typed typing) (keys : Keyboard) :
    Typed ⟨⟨keys, typing.screen.console⟩, typing.line⟩ :=
  ⟨⟨typed.count, typed.buffer, typed.cells⟩, typed.visible, typed.bounded⟩

theorem Typed.backspace (typed : Typed typing) (keys : Keyboard) :
    ∃ erased, typing.screen.console.backspacePressed = .done erased ∧
      Typed ⟨⟨keys, erased⟩, typing.line.dropLast⟩ := by
  obtain ⟨⟨count, buffer, cells⟩, visible, bounded⟩ := typed
  simp only [Console.backspacePressed]
  by_cases nonempty : typing.screen.console.bufferI > 0
  · rw [if_pos nonempty]
    have notFirst : 0 < typing.screen.console.cellIndex := by
      have room := cells.room
      omega
    have shorter : Console.Visible { typing.screen.console with
        bufferI := typing.screen.console.bufferI - 1 } :=
      ⟨visible.left, visible.right, visible.top, visible.bottom⟩
    obtain ⟨erased, moves, onScreen, place, chars, lineBuffer, bufferI⟩ := shorter.moveBack notFirst
    refine ⟨erased, moves, ⟨?_, ?_, ?_⟩, onScreen, ?_⟩
    · rw [List.length_dropLast, ← count]
      exact bufferI
    · dsimp only
      rw [bufferI, lineBuffer]
      exact buffer.dropLast fun _ _ => rfl
    · dsimp only
      rw [place]
      exact cells.dropLast chars
    · rw [List.length_dropLast]
      omega
  · rw [if_neg nonempty]
    have empty : typing.line = [] := List.length_eq_zero_iff.mp (by omega)
    rw [empty] at count buffer cells ⊢
    exact ⟨_, rfl, ⟨count, buffer, cells⟩, visible, Nat.zero_le _⟩

/-- What a typed character does to the line, the buffer and the screen. -/
theorem Typed.type {char : Byte} (typed : Typed typing) (printed : ¬(char = 10 ∨ char = 13))
    (keys : Keyboard) :
    ∃ echoed, typing.screen.console.keyEcho char = .done (false, echoed) ∧
      (typing.Repeats →
        Typed ⟨⟨keys, echoed.keyWrap false⟩, editLine (.type char) typing.line⟩) ∧
      (¬ typing.Repeats →
        ¬ ShowsLine ⟨⟨keys, echoed.keyWrap false⟩, editLine (.type char) typing.line⟩) := by
  obtain ⟨⟨count, buffer, cells⟩, visible, bounded⟩ := typed
  by_cases room : typing.line.length < NUM_CHARS
  · obtain ⟨echoed, echoes, wrapped, shown, lineBuffer, bufferI⟩ :=
      visible.type (by rwa [count]) printed room cells
    obtain ⟨sameBuffer, sameCount⟩ := echoed.keyWrap_line false
    have longer : editLine (.type char) typing.line = typing.line ++ [char] := if_pos room
    rw [longer]
    refine ⟨echoed, echoes, fun _ => ⟨⟨?_, ?_, shown⟩, wrapped, ?_⟩,
      fun broken => absurd (fun full => by omega) broken⟩
    · dsimp only
      rw [sameCount, bufferI, count, List.length_append, List.length_singleton]
    · dsimp only
      rw [sameCount, bufferI, sameBuffer, lineBuffer]
      refine buffer.append (fun k below => ?_) (Function.update_self ..)
      exact Function.update_of_ne (Nat.ne_of_lt below) ..
    · rw [List.length_append, List.length_singleton]
      exact room
  · have full : typing.line.length = NUM_CHARS := Nat.le_antisymm bounded (Nat.le_of_not_lt room)
    have echoes : typing.screen.console.keyEcho char = .done (false, typing.screen.console) := by
      rw [Console.keyEcho, if_neg (by omega)]
    obtain ⟨sameBuffer, sameCount⟩ := typing.screen.console.keyWrap_line false
    have same : editLine (.type char) typing.line = typing.line := if_neg room
    rw [same]
    refine ⟨_, echoes, ?_⟩
    by_cases first : typing.screen.console.x = 0
    · obtain ⟨wrapped, moves⟩ := visible.keyWrap first
      constructor
      · intro repeats
        refine ⟨⟨sameCount.trans count, ?_, (moves typing.line bounded).mpr (repeats full first)⟩,
          wrapped, bounded⟩
        dsimp only
        rw [sameBuffer, sameCount]
        exact buffer
      · intro broken shows
        exact broken fun _ _ => (moves typing.line bounded).mp shows.cells
    · have stays : typing.screen.console.keyWrap false = typing.screen.console :=
        if_neg fun border => border.elim first (by have := visible.right; omega)
      rw [stays]
      exact ⟨fun _ => ⟨⟨count, buffer, cells⟩, visible, bounded⟩,
        fun broken => absurd (fun _ atFirst => absurd atFirst first) broken⟩

/-- A key can always be handled, and keeps the line shown exactly when it stays in
its row. -/
theorem Typed.key (typed : Typed typing) (released : ∀ code, behind.kbdus code = 0)
    (only : OnlyEdits behind typing scancode) :
    ∃ next, typing.step behind scancode = some next ∧
      (StaysInLine behind typing scancode → Typed next) ∧
      (¬ StaysInLine behind typing scancode → ¬ ShowsLine next) := by
  have room : typing.screen.console.makeRoom (behind.kbdusAt scancode) = typing.screen.console :=
    if_neg fun both => kbdusAt_ne_newline released only.1 both.2
  have others : (∀ char, keyAction behind typing.screen.keys scancode ≠ .type char) →
      StaysInLine behind typing scancode := fun other char types => absurd types (other char)
  unfold Typing.step Screen.step
  dsimp only
  rw [Console.terminalKeyPressed_eq, room]
  dsimp only
  cases action : keyAction behind typing.screen.keys scancode with
  | clear => exact absurd action only.2
  | nothing =>
      have kept := others (by rw [action]; nofun)
      exact ⟨_, rfl, fun _ => typed.withKeys _, fun broken => absurd kept broken⟩
  | switchTo term =>
      have kept := others (by rw [action]; nofun)
      exact ⟨_, rfl, fun _ => typed.withKeys _, fun broken => absurd kept broken⟩
  | backspace =>
      have kept := others (by rw [action]; nofun)
      obtain ⟨erased, erases, shorter⟩ := typed.backspace (keyModifiers typing.screen.keys scancode)
      dsimp only
      rw [erases]
      exact ⟨_, rfl, fun _ => shorter, fun broken => absurd kept broken⟩
  | type char =>
      obtain ⟨pressed, _, isTyped, _⟩ := keyAction_type action
      have printed : ¬(char = 10 ∨ char = 13) := by
        intro newline
        rcases newline with isNewline | isReturn
        · exact only.1 (enter_of_newline pressed (isTyped.symm.trans isNewline))
        · exact typedChar_ne_return pressed (isTyped.symm.trans isReturn)
      obtain ⟨echoed, echoes, kept, lost⟩ := typed.type printed
        { keyModifiers typing.screen.keys scancode with checkEnter := false }
      dsimp only
      rw [echoes]
      refine ⟨_, rfl, fun stays => kept (stays char action), fun breaks => lost fun repeats => ?_⟩
      exact breaks fun _ _ => repeats

variable {keys : Keyboard} {console : Console} {scancodes : List Byte}

theorem typed_nothing (visible : console.Visible) (empty : console.bufferI = 0) :
    Typed ⟨⟨keys, console⟩, []⟩ :=
  ⟨⟨empty, .empty _ _, .empty _ _⟩, visible, Nat.zero_le _⟩

/-- The handler never gets stuck on keys that keep to the line. -/
theorem typing_runs (released : ∀ code, behind.kbdus code = 0) (visible : console.Visible)
    (empty : console.bufferI = 0)
    (only : (typingSystem behind).Respects (OnlyEdits behind) ⟨⟨keys, console⟩, []⟩ scancodes)
    (stays : (typingSystem behind).Respects (StaysInLine behind) ⟨⟨keys, console⟩, []⟩ scancodes) :
    ∃ final, (typingSystem behind).run ⟨⟨keys, console⟩, []⟩ scancodes = some final ∧
      Typed final := by
  refine Transitions.run_exists_of_respects ?_ (typed_nothing visible empty) (only.and stays)
  intro typing scancode typed allowed
  obtain ⟨next, stepped, kept, _⟩ := typed.key released allowed.1
  exact ⟨next, stepped, kept allowed.2⟩

/-- The line buffer and the screen show the line that was typed, exactly as long
as no character is typed at the start of a row when the buffer is full. -/
theorem typed_line_shown_iff {behind : BehindTables} {keys : Keyboard} {console : Console}
    {scancodes : List Byte} (released : ∀ code, behind.kbdus code = 0) (visible : console.Visible)
    (empty : console.bufferI = 0)
    (only : (typingSystem behind).Respects (OnlyEdits behind) ⟨⟨keys, console⟩, []⟩ scancodes) :
    (typingSystem behind).Always ShowsLine ⟨⟨keys, console⟩, []⟩ scancodes ↔
      (typingSystem behind).Respects (StaysInLine behind) ⟨⟨keys, console⟩, []⟩ scancodes := by
  refine Transitions.always_iff_respects_total ?_ (fun typing typed => typed.toShowsLine) ?_
    (typed_nothing visible empty) only
  · intro typing scancode next typed edits stays stepped
    obtain ⟨other, taken, kept, _⟩ := typed.key released edits
    rw [Option.some.inj (stepped.symm.trans taken)]
    exact kept stays
  · intro typing scancode typed edits breaks
    obtain ⟨next, stepped, _, lost⟩ := typed.key released edits
    exact ⟨next, stepped, lost breaks⟩

/-- Letters, a backspace and a letter again. -/
theorem typed_line_shown_iff_edited :
    (typingSystem zeroedTables).Always ShowsLine ⟨⟨noModifiers, blankConsole 78 0⟩, []⟩
        [0x1E, 0x30, 0x2E, 0x0E, 0x1E] ↔
      (typingSystem zeroedTables).Respects (StaysInLine zeroedTables)
        ⟨⟨noModifiers, blankConsole 78 0⟩, []⟩ [0x1E, 0x30, 0x2E, 0x0E, 0x1E] := by
  refine typed_line_shown_iff (fun _ => rfl) ⟨by decide, by decide, by decide, by decide⟩ rfl ?_
  have checked : ∀ scancode ∈ ([0x1E, 0x30, 0x2E, 0x0E, 0x1E] : List Byte),
      scancode ≠ 0x1C ∧ scancode ≠ 0x26 := by
    simp
  refine Transitions.respects_of_forall _ fun scancode member typing => ?_
  obtain ⟨notEnter, notL⟩ := checked scancode member
  exact ⟨notEnter, fun clears => notL (keyAction_clear clears)⟩

/-- From column 32 the buffer is full where a row begins; the next key takes the
cursor one row down and stores nothing. -/
theorem full_line_leaves_row :
    (blankConsole 32 0).Visible ∧ (blankConsole 32 0).bufferI = 0 ∧
      (typingSystem zeroedTables).Respects (OnlyEdits zeroedTables)
        ⟨⟨noModifiers, blankConsole 32 0⟩, []⟩ (List.replicate 129 0x1E) ∧
      ¬ (typingSystem zeroedTables).Always ShowsLine ⟨⟨noModifiers, blankConsole 32 0⟩, []⟩
        (List.replicate 129 0x1E) := by
  refine ⟨⟨by decide, by decide, by decide, by decide⟩, rfl, ?_, fun always => ?_⟩
  · refine Transitions.respects_of_forall _ fun scancode member typing => ?_
    obtain rfl := List.eq_of_mem_replicate member
    exact ⟨by decide, fun clears => absurd (keyAction_clear clears) (by decide)⟩
  · have ends : ((typingSystem zeroedTables).run ⟨⟨noModifiers, blankConsole 32 0⟩, []⟩
        (List.replicate 129 0x1E)).map (fun typing =>
          (typing.line.length, typing.line[127]?,
            typing.screen.console.chars (typing.screen.console.cellIndex - 1))) =
        some (128, some 97, 0) := by
      decide +kernel
    obtain ⟨final, ran, same⟩ := Option.map_eq_some_iff.mp ends
    obtain ⟨length, rest⟩ := Prod.mk.inj same
    obtain ⟨last, shown⟩ := Prod.mk.inj rest
    have cells := (always.last ran).cells
    have room := cells.room
    have reads := cells.reads 127 (by omega)
    have place : final.screen.console.cellIndex - final.line.length + 127 =
        final.screen.console.cellIndex - 1 := by
      omega
    rw [last, place, shown] at reads
    cases reads

end Ece391
