import Ece391.Terminal.Typing

namespace Ece391

open Library

/-! # The bounds of the keyboard input

The cursor stands behind the characters of the line buffer: its place in reading
order is never smaller than their number.
-/

/-- An access to `line_buffer`, or the cursor of a call of `move_back`. -/
inductive KeyAccess where
  | lineBuffer (index : Nat)
  | moveBack (x y : Int)
deriving DecidableEq

namespace Console

variable (behind : BehindTables)

def backspaceAccesses (console : Console) : List KeyAccess :=
  if console.bufferI > 0 then [.moveBack console.x console.y] else []

def makeRoomAccesses (console : Console) (toPrint : Byte) : List KeyAccess :=
  if console.bufferI = NUM_CHARS ∧ toPrint = 10 then [.lineBuffer (console.bufferI - 1)] else []

def keyEchoAccesses (console : Console) : List KeyAccess :=
  if console.bufferI < NUM_CHARS then [.lineBuffer console.bufferI] else []

/-- The accesses of `keyTyped`: both checks for a backspace, and the echo. -/
def keyTypedAccesses (keyboard : Keyboard) (scancode : Byte) (console : Console) :
    List KeyAccess :=
  let first :=
    if ¬ (97 ≤ behind.kbdusAt scancode ∧ behind.kbdusAt scancode ≤ 122) ∧
      behind.kbdusAt scancode = 8 ∧ scancode = 0x0E then console.backspaceAccesses else []
  match keyChar behind keyboard scancode console with
  | .done (toPrint, console) =>
      if scancode &&& 0x80 = 0 ∧ toPrint ≠ 0 then
        let second := if toPrint = 8 then console.backspaceAccesses else []
        match console.eraseChar toPrint with
        | .done (_, console) => first ++ second ++ console.keyEchoAccesses
        | _ => first ++ second
      else first
  | _ => first

/-- The accesses of `terminal_key_pressed`. -/
def keyAccesses (keyboard : Keyboard) (scancode : Byte) (console : Console) : List KeyAccess :=
  let room := console.makeRoom (behind.kbdusAt scancode)
  let keyboard := altKey keyboard scancode
  console.makeRoomAccesses (behind.kbdusAt scancode) ++
    if modifierKey keyboard scancode = none ∧ switchKey keyboard scancode = none ∧
      keyboard.ctrl = false ∧ scancode ≠ 0x3A then room.keyTypedAccesses behind keyboard scancode
    else []

end Console

/-- An index of `line_buffer`, and a cursor with a cell before it. -/
def KeyAccess.Inside : KeyAccess → Prop
  | .lineBuffer index => index < NUM_CHARS
  | .moveBack x y => ¬ (x = 0 ∧ y = 0)

/-- The keys of one terminal, one after the other; a key that asks for another one
is no step. -/
def keySystem (behind : BehindTables) : Transitions Screen Byte :=
  ⟨fun screen scancode =>
    (screen.console.terminalKeyPressed behind screen.keys scancode).toOption.bind fun result =>
      if result.1 = none then some ⟨result.2.1, result.2.2⟩ else none⟩

/-- The key asks for no other terminal. -/
def NoSwitch (behind : BehindTables) (screen : Screen) (scancode : Byte) : Prop :=
  ∀ term, keyAction behind screen.keys scancode ≠ .switchTo term

namespace Console

/-- The cursor is on the screen, and not before the last character of the buffer. -/
structure Bounded (console : Console) : Prop where
  visible : console.Visible
  fits : console.bufferI ≤ NUM_CHARS
  position : console.bufferI ≤ console.cellIndex

variable {behind : BehindTables} {console : Console} {keys : Keyboard} {char scancode toPrint : Byte}

theorem Bounded.makeRoom (bounded : console.Bounded) (toPrint : Byte) :
    (console.makeRoom toPrint).Bounded := by
  obtain ⟨visible, fits, position⟩ := bounded
  simp only [Console.makeRoom]
  split
  · exact ⟨⟨visible.left, visible.right, visible.top, visible.bottom⟩,
      Nat.le_trans (Nat.sub_le _ 1) fits, Nat.le_trans (Nat.sub_le _ 1) position⟩
  · exact ⟨visible, fits, position⟩

theorem Bounded.backspacePressed (bounded : console.Bounded) :
    ∃ erased, console.backspacePressed = .done erased ∧ erased.Bounded := by
  obtain ⟨visible, fits, position⟩ := bounded
  by_cases some : console.bufferI > 0
  · let shorter : Console := { console with bufferI := console.bufferI - 1 }
    have onScreen : shorter.Visible := ⟨visible.left, visible.right, visible.top, visible.bottom⟩
    have notFirst : 0 < shorter.cellIndex := Nat.lt_of_lt_of_le some position
    obtain ⟨erased, moved, seen, index, _, _, bufferI⟩ := onScreen.moveBack notFirst
    have sameIndex : shorter.cellIndex = console.cellIndex := rfl
    have oneLess : shorter.bufferI = console.bufferI - 1 := rfl
    exact ⟨erased, (if_pos some).trans moved, seen, by omega, by omega⟩
  · exact ⟨console, if_neg some, visible, fits, position⟩

/-- The line break never takes the cursor back, and a cursor that the echo left in
the first column comes at least to the next row. -/
theorem Visible.keyWrap_bounded (visible : console.Visible) (fits : console.bufferI ≤ NUM_CHARS)
    (position : console.bufferI ≤ console.cellIndex ∨
      console.x = 0 ∧ console.bufferI ≤ console.cellIndex + NUM_COLS) (checkEnter : Bool) :
    (console.keyWrap checkEnter).Bounded := by
  have index := visible.cellIndex
  simp only [NUM_COLS] at index position
  by_cases first : console.x = 0
  · simp only [Console.keyWrap]
    rw [if_pos (.inl first)]
    by_cases above : console.y + 1 < NUM_ROWS
    · rw [if_pos above]
      have seen : (console.setCursor 0 (console.y + 1)).Visible := by
        refine ⟨Int.le_refl 0, show (0 : Int) < NUM_COLS by decide, ?_, above⟩
        have top := visible.top
        dsimp only [setCursor]
        omega
      have moved := seen.cellIndex
      dsimp only [setCursor, NUM_COLS] at moved
      refine ⟨seen, fits, ?_⟩
      dsimp only [setCursor]
      omega
    · rw [if_neg above]
      have bottom := visible.bottom
      have bottomRow : console.bufferI ≤ console.cellIndex := by
        simp only [NUM_ROWS, NUM_CHARS] at above bottom fits
        omega
      cases checkEnter with
      | true => exact ⟨visible, fits, bottomRow⟩
      | false =>
          exact ⟨⟨visible.left, visible.right, visible.top, visible.bottom⟩, fits, bottomRow⟩
  · have inside : ¬ (console.x = 0 ∨ console.x = NUM_COLS) := by
      have right := visible.right
      omega
    rw [Console.keyWrap, if_neg inside]
    exact ⟨visible, fits, position.resolve_right fun atFirst => first atFirst.1⟩

/-- A character with room in the buffer is echoed and appended. -/
theorem Bounded.keyEcho (bounded : console.Bounded) (notReturn : char ≠ 13) :
    ∃ checkEnter echoed, console.keyEcho char = .done (checkEnter, echoed) ∧
      (echoed.keyWrap checkEnter).Bounded := by
  obtain ⟨visible, fits, position⟩ := bounded
  have index := visible.cellIndex
  by_cases room : console.bufferI < NUM_CHARS
  · by_cases newline : char = 10
    · by_cases above : console.y + 1 < NUM_ROWS
      · let echoed := (console.setCursor 0 console.y).appendChar char
        have echoes : console.keyEcho char = .done (false, echoed) := by
          rw [Console.keyEcho, if_pos room, echoChar, if_neg (not_not_intro newline), if_pos above]
          rfl
        have seen : echoed.Visible :=
          ⟨Int.le_refl 0, show (0 : Int) < NUM_COLS by decide, visible.top, visible.bottom⟩
        have moved : (echoed.cellIndex : Int) = NUM_COLS * console.y + 0 := seen.cellIndex
        have longer : echoed.bufferI = console.bufferI + 1 := rfl
        refine ⟨false, echoed, echoes, seen.keyWrap_bounded room (.inr ⟨rfl, ?_⟩) false⟩
        have right := visible.right
        simp only [NUM_COLS] at index moved right ⊢
        omega
      · let echoed := (console.pressedEnter.setCursor 0 console.y).appendChar char
        have echoes : console.keyEcho char = .done (true, echoed) := by
          rw [Console.keyEcho, if_pos room, echoChar, if_neg (not_not_intro newline), if_neg above]
          rfl
        have seen : echoed.Visible :=
          ⟨Int.le_refl 0, show (0 : Int) < NUM_COLS by decide, visible.top, visible.bottom⟩
        have moved : (echoed.cellIndex : Int) = NUM_COLS * console.y + 0 := seen.cellIndex
        have longer : echoed.bufferI = console.bufferI + 1 := rfl
        refine ⟨true, echoed, echoes, seen.keyWrap_bounded room (.inl ?_) true⟩
        have bottom := visible.bottom
        simp only [NUM_COLS, NUM_ROWS, NUM_CHARS] at moved above bottom room
        omega
    · obtain ⟨put, putting, seen, putX, putY, _, _, bufferI⟩ :=
        visible.prints (not_or.mpr ⟨newline, notReturn⟩)
      let echoed := put.appendChar char
      have echoes : console.keyEcho char = .done (false, echoed) := by
        rw [Console.keyEcho, if_pos room, echoChar, if_pos newline, putting]
        rfl
      have onScreen : echoed.Visible := ⟨seen.left, seen.right, seen.top, seen.bottom⟩
      have moved : (echoed.cellIndex : Int) = NUM_COLS * put.y + put.x := onScreen.cellIndex
      have longer : echoed.bufferI = console.bufferI + 1 := congrArg (· + 1) bufferI
      have stillFits : echoed.bufferI ≤ NUM_CHARS := by omega
      refine ⟨false, echoed, echoes, onScreen.keyWrap_bounded stillFits ?_ false⟩
      rw [putX, putY] at moved
      by_cases last : console.x + 1 = NUM_COLS
      · rw [if_pos last] at moved putX
        refine .inr ⟨putX, ?_⟩
        simp only [NUM_COLS] at index moved last ⊢
        omega
      · rw [if_neg last] at moved
        refine .inl ?_
        simp only [NUM_COLS] at index moved
        omega
  · exact ⟨false, console, if_neg room, visible.keyWrap_bounded fits (.inl position) false⟩

/-- The accesses of an action, with the console behind `makeRoom`. -/
def actionAccesses (room : Console) : KeyAction → List KeyAccess
  | .nothing => []
  | .switchTo _ => []
  | .clear => []
  | .backspace => room.backspaceAccesses
  | .type _ => room.keyEchoAccesses

theorem keyTypedAccesses_backspace :
    console.keyTypedAccesses behind keys 0x0E = console.backspaceAccesses := by
  have erases : console.keyChar behind keys 0x0E = (do
      let erased ← console.backspacePressed
      return (0, erased)) := rfl
  have isFirst : ¬ (97 ≤ behind.kbdusAt 0x0E ∧ behind.kbdusAt 0x0E ≤ 122) ∧
      behind.kbdusAt 0x0E = 8 ∧ (0x0E : Byte) = 0x0E := by
    have isBackspace : behind.kbdusAt 0x0E = 8 := rfl
    rw [isBackspace]
    decide
  unfold keyTypedAccesses
  dsimp only
  rw [if_pos isFirst, erases]
  cases console.backspacePressed with
  | done erased => rfl
  | spins => rfl
  | outOfBounds => rfl
  | pageFault => rfl

theorem keyTypedAccesses_other (other : scancode ≠ 0x0E) :
    console.keyTypedAccesses behind keys scancode =
      if scancode &&& 0x80 = 0 ∧ typedChar behind keys scancode ≠ 0 then console.keyEchoAccesses
      else [] := by
  have notFirst : ¬ (¬ (97 ≤ behind.kbdusAt scancode ∧ behind.kbdusAt scancode ≤ 122) ∧
      behind.kbdusAt scancode = 8 ∧ scancode = 0x0E) := fun first => other first.2.2
  simp only [keyTypedAccesses, keyChar_other other, if_neg notFirst]
  by_cases printed : scancode &&& 0x80 = 0 ∧ typedChar behind keys scancode ≠ 0
  · have notErased := (typedChar_ne_backspace behind keys printed.1 other).1
    simp only [if_pos printed, eraseChar, if_neg notErased]
    rfl
  · simp only [if_neg printed]

theorem keyAccesses_eq (behind : BehindTables) (keys : Keyboard) (scancode : Byte)
    (console : Console) :
    console.keyAccesses behind keys scancode =
      console.makeRoomAccesses (behind.kbdusAt scancode) ++
        (console.makeRoom (behind.kbdusAt scancode)).actionAccesses
          (keyAction behind keys scancode) := by
  simp only [keyAccesses, keyAction]
  congr 1
  cases modifier : modifierKey (altKey keys scancode) scancode with
  | some changed =>
      rw [if_neg fun both => Option.some_ne_none _ both.1]
      rfl
  | none =>
      cases select : switchKey (altKey keys scancode) scancode with
      | some term =>
          rw [if_neg fun both => Option.some_ne_none _ both.2.1]
          rfl
      | none =>
          simp only [altKey_ctrl, true_and]
          by_cases ctrl : keys.ctrl = true
          · rw [if_neg fun both => Bool.false_ne_true (both.1.symm.trans ctrl), if_pos ctrl]
            by_cases clears : scancode = 0x26
            · rw [if_pos clears]
              rfl
            · rw [if_neg clears]
              rfl
          · have noCtrl : keys.ctrl = false := Bool.eq_false_iff.mpr ctrl
            rw [if_neg ctrl]
            by_cases erases : scancode = 0x0E
            · subst erases
              rw [if_pos ⟨noCtrl, by decide⟩, if_pos rfl, keyTypedAccesses_backspace]
              rfl
            · rw [if_neg erases]
              by_cases capslock : scancode = 0x3A
              · rw [if_neg fun both => both.2 capslock, if_pos capslock]
                rfl
              · rw [if_pos ⟨noCtrl, capslock⟩, if_neg capslock, keyTypedAccesses_other erases,
                  typedChar_altKey]
                split
                · rfl
                · rfl

theorem Bounded.accesses (bounded : console.Bounded) (behind : BehindTables) (keys : Keyboard)
    (scancode : Byte) : ∀ access ∈ console.keyAccesses behind keys scancode, access.Inside := by
  rw [keyAccesses_eq]
  have room := bounded.makeRoom (behind.kbdusAt scancode)
  have ofErase : ∀ access ∈ (console.makeRoom (behind.kbdusAt scancode)).backspaceAccesses,
      access.Inside := by
    intro access member
    simp only [backspaceAccesses] at member
    split at member
    · rename_i some
      rw [List.mem_singleton.mp member]
      rintro ⟨x, y⟩
      have index := room.visible.cellIndex
      have position := room.position
      simp only [NUM_COLS] at index
      omega
    · exact absurd member List.not_mem_nil
  have ofEcho : ∀ access ∈ (console.makeRoom (behind.kbdusAt scancode)).keyEchoAccesses,
      access.Inside := by
    intro access member
    simp only [keyEchoAccesses] at member
    split at member
    · rename_i fits
      rw [List.mem_singleton.mp member]
      exact fits
    · exact absurd member List.not_mem_nil
  intro access member
  rcases List.mem_append.mp member with ofRoom | ofAction
  · simp only [makeRoomAccesses] at ofRoom
    split at ofRoom
    · rename_i full
      rw [List.mem_singleton.mp ofRoom, full.1]
      show NUM_CHARS - 1 < NUM_CHARS
      decide
    · exact absurd ofRoom List.not_mem_nil
  · cases action : keyAction behind keys scancode with
    | nothing =>
        rw [action] at ofAction
        exact absurd ofAction List.not_mem_nil
    | switchTo term =>
        rw [action] at ofAction
        exact absurd ofAction List.not_mem_nil
    | clear =>
        rw [action] at ofAction
        exact absurd ofAction List.not_mem_nil
    | backspace =>
        rw [action] at ofAction
        exact ofErase access ofAction
    | type char =>
        rw [action] at ofAction
        exact ofEcho access ofAction

theorem pressedClear_bounded (console : Console) : console.pressedClear.Bounded :=
  ⟨⟨Int.le_refl 0, show (0 : Int) < NUM_COLS by decide, Int.le_refl 0,
    show (0 : Int) < NUM_ROWS by decide⟩, Nat.zero_le _, Nat.zero_le _⟩

/-- A key that asks for no other terminal is handled to its end. -/
theorem Bounded.key (bounded : console.Bounded) (stays : ∀ term,
      keyAction behind keys scancode ≠ .switchTo term) :
    ∃ held after, console.terminalKeyPressed behind keys scancode = .done (none, held, after) ∧
      after.Bounded := by
  have room := bounded.makeRoom (behind.kbdusAt scancode)
  rw [terminalKeyPressed_eq]
  cases action : keyAction behind keys scancode with
  | nothing => exact ⟨_, _, rfl, room⟩
  | switchTo term => exact absurd action (stays term)
  | clear => exact ⟨_, _, rfl, pressedClear_bounded _⟩
  | backspace =>
      obtain ⟨erased, erasing, isBounded⟩ := room.backspacePressed
      refine ⟨keyModifiers keys scancode, erased, ?_, isBounded⟩
      dsimp only
      rw [erasing]
      rfl
  | type char =>
      obtain ⟨pressed, _, isTyped, _⟩ := keyAction_type action
      have notReturn : char ≠ 13 := isTyped ▸ typedChar_ne_return pressed
      obtain ⟨checkEnter, echoed, echoing, isBounded⟩ := room.keyEcho notReturn
      refine ⟨{ keyModifiers keys scancode with checkEnter }, echoed.keyWrap checkEnter, ?_,
        isBounded⟩
      dsimp only
      rw [echoing]
      rfl

end Console

/-- Whatever is typed on one terminal, from an empty line and a cursor on the screen:
every key is handled to its end, and its accesses, the line and the cursor stay
inside. -/
theorem keys_stay_inside (behind : BehindTables) (keys : Keyboard) {console : Console}
    {scancodes : List Byte} (visible : console.Visible) (empty : console.bufferI = 0)
    (stays : (keySystem behind).Respects (NoSwitch behind) ⟨keys, console⟩ scancodes) :
    (∃ final, (keySystem behind).run ⟨keys, console⟩ scancodes = some final) ∧
      (keySystem behind).Always (fun screen =>
        screen.console.bufferI ≤ NUM_CHARS ∧ screen.console.Visible) ⟨keys, console⟩ scancodes ∧
      (keySystem behind).Respects (fun screen scancode =>
        ∀ access ∈ screen.console.keyAccesses behind screen.keys scancode, access.Inside)
        ⟨keys, console⟩ scancodes := by
  have initial : console.Bounded := ⟨visible, by omega, by omega⟩
  have taken : ∀ (screen : Screen) (scancode : Byte), screen.console.Bounded →
      NoSwitch behind screen scancode → ∃ next, (keySystem behind).step screen scancode = some next ∧
        next.console.Bounded := by
    intro screen scancode bounded noSwitch
    obtain ⟨held, after, handled, isBounded⟩ := bounded.key noSwitch
    refine ⟨⟨held, after⟩, ?_, isBounded⟩
    simp only [keySystem, handled, Outcome.toOption_done, Option.bind_some, if_true]
  have kept : ∀ (screen : Screen) (scancode : Byte) (next : Screen), screen.console.Bounded →
      NoSwitch behind screen scancode → (keySystem behind).step screen scancode = some next →
        next.console.Bounded := by
    intro screen scancode next bounded noSwitch stepped
    obtain ⟨other, reached, isBounded⟩ := taken screen scancode bounded noSwitch
    rwa [Option.some.inj (stepped.symm.trans reached)]
  obtain ⟨final, ran, _⟩ := Transitions.run_exists_of_respects taken initial stays
  have always := Transitions.always_of_respects kept initial stays
  refine ⟨⟨final, ran⟩, always.mono ?_, always.respects ?_⟩
  · exact fun screen bounded => ⟨bounded.fits, bounded.visible⟩
  · exact fun screen scancode bounded => bounded.accesses behind screen.keys scancode

theorem keys_stay_inside_letter :
    (keySystem zeroedTables).Always (fun screen =>
      screen.console.bufferI ≤ NUM_CHARS ∧ screen.console.Visible)
      ⟨noModifiers, blankConsole 79 24⟩ [0x1E] := by
  have visible : (blankConsole 79 24).Visible := ⟨by decide, by decide, by decide, by decide⟩
  have isLetter : keyAction zeroedTables noModifiers 0x1E = .type 97 := by decide
  have stays : (keySystem zeroedTables).Respects (NoSwitch zeroedTables)
      ⟨noModifiers, blankConsole 79 24⟩ [0x1E] := by
    refine ⟨fun term => ?_, fun next _ => trivial⟩
    rw [isLetter]
    exact KeyAction.noConfusion
  exact (keys_stay_inside zeroedTables noModifiers visible rfl stays).2.1

end Ece391
