import Mathlib.Data.Nat.Bitwise
import Ece391.Terminal.Inputs

namespace Ece391

open Library

/-! # Consoles that look alike

The functions of the console read nothing of it but its cells, its cursor and
the part of the line buffer that is in use.
-/

/-- Where both computations return, their results are related. -/
def Outcome.Meets {α β : Type} (related : α → β → Prop) (left : Outcome α) (right : Outcome β) :
    Prop :=
  ∀ first second, left = .done first → right = .done second → related first second

namespace Outcome.Meets

variable {α β γ δ : Type} {related : α → β → Prop} {results : γ → δ → Prop}

theorem done {first : α} {second : β} (holds : related first second) :
    Meets related (.done first) (.done second) := by
  intro left right isLeft isRight
  cases isLeft
  cases isRight
  exact holds

theorem bind {left : Outcome α} {right : Outcome β} {next : α → Outcome γ} {later : β → Outcome δ}
    (meets : Meets related left right)
    (continues : ∀ first second, related first second → Meets results (next first) (later second)) :
    Meets results (left >>= next) (right >>= later) := by
  intro final other isLeft isRight
  obtain ⟨first, returned, remaining⟩ := Outcome.bind_eq_done.mp isLeft
  obtain ⟨second, returned', remaining'⟩ := Outcome.bind_eq_done.mp isRight
  exact continues first second (meets first second returned returned') final other remaining
    remaining'

end Outcome.Meets

open Outcome (Meets)

/-- The same cells and cursor, and the same line so far. -/
structure Console.Agrees (left right : Console) : Prop where
  cells : ∀ offset < CELL_BYTES, left.cells offset = right.cells offset
  x : left.x = right.x
  y : left.y = right.y
  bufferI : left.bufferI = right.bufferI
  line : ∀ i < left.bufferI, left.lineBuffer i = right.lineBuffer i

namespace Console.Agrees

variable {left right : Console}

theorem refl (console : Console) : Agrees console console :=
  ⟨fun _ _ => rfl, rfl, rfl, rfl, fun _ _ => rfl⟩

theorem setCursor (agrees : Agrees left right) (x y : Int) :
    Agrees (left.setCursor x y) (right.setCursor x y) :=
  ⟨agrees.cells, rfl, rfl, agrees.bufferI, agrees.line⟩

theorem setCells (agrees : Agrees left right) {cells others : Nat → Byte}
    (same : ∀ offset < CELL_BYTES, cells offset = others offset) :
    Agrees { left with cells } { right with cells := others } :=
  ⟨same, agrees.x, agrees.y, agrees.bufferI, agrees.line⟩

theorem resetLine (agrees : Agrees left right) :
    Agrees { left with bufferI := 0 } { right with bufferI := 0 } :=
  ⟨agrees.cells, agrees.x, agrees.y, rfl, fun i inside => absurd inside (Nat.not_lt_zero i)⟩

theorem dropChar (agrees : Agrees left right) :
    Agrees { left with bufferI := left.bufferI - 1 } { right with bufferI := right.bufferI - 1 } := by
  have sameCount := agrees.bufferI
  exact ⟨agrees.cells, agrees.x, agrees.y, congrArg (· - 1) sameCount,
    fun i inside => agrees.line i (Nat.lt_of_lt_of_le inside (Nat.sub_le ..))⟩

theorem appendChar (agrees : Agrees left right) (char : Byte) :
    Agrees (left.appendChar char) (right.appendChar char) := by
  refine ⟨agrees.cells, agrees.x, agrees.y, congrArg (· + 1) agrees.bufferI, ?_⟩
  intro i inside
  simp only [Console.appendChar, ← agrees.bufferI] at inside ⊢
  by_cases last : i = left.bufferI
  · rw [last, Function.update_self, Function.update_self]
  · rw [Function.update_of_ne last, Function.update_of_ne last]
    exact agrees.line i (by omega)

theorem clear (agrees : Agrees left right) : Agrees left.clear right.clear := by
  refine agrees.setCells fun offset inside => ?_
  have cleared : offset < 2 * (NUM_ROWS * NUM_COLS) := inside
  rw [if_pos cleared, if_pos cleared]

theorem pressedClear (agrees : Agrees left right) : Agrees left.pressedClear right.pressedClear :=
  (agrees.clear.setCursor 0 0).resetLine

theorem pressedEnter (agrees : Agrees left right) : Agrees left.pressedEnter right.pressedEnter := by
  refine agrees.setCells fun offset inside => ?_
  unfold CELL_BYTES NUM_ROWS NUM_COLS at inside
  unfold NUM_ROWS NUM_COLS
  by_cases moved : offset < 2 * (25 * 80 - 80)
  · have above : left.cells (offset + 160) = right.cells (offset + 160) :=
      agrees.cells (offset + 160) (by unfold CELL_BYTES NUM_ROWS NUM_COLS; omega)
    rw [if_pos moved, if_pos moved, above]
  · rw [if_neg moved, if_neg moved, agrees.cells offset inside]

theorem storeCell (agrees : Agrees left right) (char : Byte) :
    Meets Agrees (left.storeCell char) (right.storeCell char) := by
  unfold Console.storeCell
  rw [agrees.x, agrees.y]
  dsimp only
  split
  · refine .done ⟨fun offset inside => ?_, rfl, rfl, agrees.bufferI, agrees.line⟩
    simp only [Function.update_apply, agrees.cells offset inside]
  · intro first second returned
    cases returned

theorem putc (agrees : Agrees left right) (char : Byte) :
    Meets Agrees (left.putc char) (right.putc char) := by
  simp only [Console.putc]
  split
  · rw [agrees.y]
    exact .done (agrees.setCursor ..)
  · refine (agrees.storeCell char).bind fun first second stored => ?_
    rw [stored.x, stored.y]
    exact .done (stored.setCursor ..)

theorem moveBack (agrees : Agrees left right) : Meets Agrees left.moveBack right.moveBack := by
  simp only [Console.moveBack]
  rw [agrees.x, agrees.y]
  split
  · exact (agrees.setCursor ..).storeCell 32
  · exact (agrees.setCursor ..).storeCell 32

theorem backspacePressed (agrees : Agrees left right) :
    Meets Agrees left.backspacePressed right.backspacePressed := by
  have dropped := agrees.dropChar
  simp only [Console.backspacePressed]
  rw [agrees.bufferI] at dropped ⊢
  split
  · exact dropped.moveBack
  · exact .done agrees

theorem wrapLine (agrees : Agrees left right) (long : Prop) [Decidable long] :
    Agrees (left.wrapLine long) (right.wrapLine long) := by
  have first : Agrees
      (if left.x = 0 then
        if left.y < NUM_ROWS then left.setCursor 0 left.y
        else left.pressedEnter.setCursor 0 (NUM_ROWS - 1)
      else left)
      (if right.x = 0 then
        if right.y < NUM_ROWS then right.setCursor 0 right.y
        else right.pressedEnter.setCursor 0 (NUM_ROWS - 1)
      else right) := by
    rw [agrees.x, agrees.y]
    split
    · split
      · exact agrees.setCursor ..
      · exact agrees.pressedEnter.setCursor ..
    · exact agrees
  simp only [Console.wrapLine]
  generalize (if left.x = 0 then _ else left) = leftFirst at first ⊢
  generalize (if right.x = 0 then _ else right) = rightFirst at first ⊢
  rw [first.x, first.y]
  split
  · split
    · exact first.setCursor ..
    · exact first.pressedEnter.setCursor ..
  · split
    · split
      · exact first.setCursor ..
      · exact first.pressedEnter.setCursor ..
    · exact first

theorem writeLoop (agrees : Agrees left right) (buf : UserMemory) (remaining i : Nat)
    (toPrint : Byte) :
    Meets (fun first second => first.1 = second.1 ∧ Agrees first.2 second.2)
      (Console.writeLoop buf remaining i toPrint left)
      (Console.writeLoop buf remaining i toPrint right) := by
  induction remaining generalizing i toPrint left right with
  | zero => exact .done ⟨rfl, agrees⟩
  | succ remaining ih =>
      simp only [Console.writeLoop]
      split
      · exact .done ⟨rfl, agrees⟩
      · have measured : Meets Eq (strlen buf) (strlen buf) := by
          intro first second isFirst isSecond
          exact Outcome.done.inj (isFirst.symm.trans isSecond)
        refine measured.bind fun length other same => ?_
        subst same
        refine ((agrees.wrapLine _).putc toPrint).bind fun first second printed => ?_
        cases buf (i + 1) with
        | none =>
            intro first second returned
            cases returned
        | some next =>
            refine (ih printed (i + 1) next).bind fun first second rest => ?_
            exact .done ⟨congrArg (toPrint :: ·) rest.1, rest.2⟩

theorem terminalWrite (agrees : Agrees left right) (buf : UserMemory) (nbytes : Int) :
    Meets (fun first second => first.1 = second.1 ∧ Agrees first.2 second.2)
      (left.terminalWrite buf nbytes) (right.terminalWrite buf nbytes) := by
  simp only [Console.terminalWrite]
  cases buf 0 with
  | none =>
      intro first second returned
      cases returned
  | some toPrint => exact agrees.writeLoop buf _ 0 toPrint

theorem puts (agrees : Agrees left right) (text : List Byte) :
    Meets Agrees (left.puts text) (right.puts text) := by
  induction text generalizing left right with
  | nil => exact .done agrees
  | cons char text ih => exact (agrees.putc char).bind fun first second printed => ih printed

end Console.Agrees

/-- The keyboards agree on the keys that are held. -/
structure SameHeld (keys others : Keyboard) : Prop where
  shift : keys.shift = others.shift
  ctrl : keys.ctrl = others.ctrl
  alt : keys.alt = others.alt

/-- The key is pressed and types one of the characters a to z, which Caps Lock
changes. -/
def TypesLetter (behind : BehindTables) (scancode : Byte) : Prop :=
  scancode &&& 0x80 = 0 ∧ 97 ≤ behind.kbdusAt scancode ∧ behind.kbdusAt scancode ≤ 122

/-- The letter in the case that the modifiers give it. -/
def letterOf (behind : BehindTables) (keys : Keyboard) (scancode : Byte) : Byte :=
  if keys.capslock && keys.shift then behind.kbdusAt scancode
  else if keys.capslock || keys.shift then behind.kbdusShiftAt scancode
  else behind.kbdusAt scancode

section Letters

variable {behind : BehindTables} {keys others : Keyboard} {scancode : Byte} {console : Console}

theorem letter_tables : ∀ index : Fin 128,
    97 ≤ kbdusTable.getD index 0 → kbdusTable.getD index 0 ≤ 122 →
    (kbdusTable.getD index 0 ≠ 0 ∧ kbdusTable.getD index 0 ≠ 8 ∧ kbdusTable.getD index 0 ≠ 10) ∧
    (kbdusShiftTable.getD index 0 ≠ 0 ∧ kbdusShiftTable.getD index 0 ≠ 8 ∧
      kbdusShiftTable.getD index 0 ≠ 10) ∧
    kbdusTable.getD index 0 ≠ kbdusShiftTable.getD index 0 := by
  decide

theorem lt_of_pressed (pressed : scancode &&& 0x80 = 0) : scancode < 128 := by
  have bound := scancode.toNat_lt
  have masked := congrArg UInt8.toNat pressed
  have topBit := Nat.and_two_pow scancode.toNat 7
  rw [Nat.testBit_eq_decide_div_mod_eq] at topBit
  by_contra high
  simp only [UInt8.lt_iff_toNat_lt, UInt8.reduceToNat, not_lt] at high
  simp at masked
  simp [masked] at topBit
  omega

theorem TypesLetter.tables (letter : TypesLetter behind scancode) :
    behind.kbdusAt scancode = kbdusTable.getD scancode.toNat 0 ∧
      behind.kbdusShiftAt scancode = kbdusShiftTable.getD scancode.toNat 0 ∧
      scancode.toNat < 128 ∧ 97 ≤ kbdusTable.getD scancode.toNat 0 ∧
      kbdusTable.getD scancode.toNat 0 ≤ 122 := by
  obtain ⟨pressed, low, high⟩ := letter
  have inside := lt_of_pressed pressed
  have lower : behind.kbdusAt scancode = kbdusTable.getD scancode.toNat 0 := if_pos inside
  rw [lower] at low high
  exact ⟨lower, if_pos inside, UInt8.lt_iff_toNat_lt.mp inside, low, high⟩

theorem letterOf_cases (keys : Keyboard) : letterOf behind keys scancode =
    if keys.capslock = keys.shift then behind.kbdusAt scancode else behind.kbdusShiftAt scancode := by
  simp only [letterOf]
  cases keys.capslock <;> cases keys.shift <;> rfl

/-- A letter is neither a NUL nor a backspace nor a newline. -/
theorem TypesLetter.printable (letter : TypesLetter behind scancode) (keys : Keyboard) :
    letterOf behind keys scancode ≠ 0 ∧ letterOf behind keys scancode ≠ 8 ∧
      letterOf behind keys scancode ≠ 10 := by
  obtain ⟨lower, upper, inside, low, high⟩ := letter.tables
  obtain ⟨small, capital, _⟩ := letter_tables ⟨_, inside⟩ low high
  rw [letterOf_cases, lower, upper]
  split
  · exact small
  · exact capital

theorem TypesLetter.differ (letter : TypesLetter behind scancode) (shift : keys.shift = others.shift)
    (capslock : keys.capslock ≠ others.capslock) :
    letterOf behind keys scancode ≠ letterOf behind others scancode := by
  obtain ⟨lower, upper, inside, low, high⟩ := letter.tables
  obtain ⟨_, _, distinct⟩ := letter_tables ⟨_, inside⟩ low high
  rw [letterOf_cases, letterOf_cases, lower, upper, ← shift]
  by_cases first : keys.capslock = keys.shift
  · have second : others.capslock ≠ keys.shift := fun same => capslock (first.trans same.symm)
    rw [if_pos first, if_neg second]
    exact distinct
  · have second : others.capslock = keys.shift := by
      cases left : keys.capslock <;> cases right : others.capslock <;> cases held : keys.shift <;>
        simp_all
    rw [if_neg first, if_pos second]
    exact Ne.symm distinct

theorem TypesLetter.keyChar (letter : TypesLetter behind scancode) (keys : Keyboard)
    (console : Console) :
    console.keyChar behind keys scancode = .done (letterOf behind keys scancode, console) :=
  if_pos letter.2

end Letters

namespace Console.Agrees

variable {behind : BehindTables} {keys others : Keyboard} {scancode : Byte} {left right : Console}

theorem keyChar (agrees : Agrees left right) (held : SameHeld keys others)
    (capslock : TypesLetter behind scancode → keys.capslock = others.capslock) :
    Meets (fun first second => (scancode &&& 0x80 = 0 → first.1 = second.1) ∧
        Agrees first.2 second.2)
      (left.keyChar behind keys scancode) (right.keyChar behind others scancode) := by
  unfold Console.keyChar
  rw [held.shift]
  dsimp only
  split
  · rename_i letter
    refine .done ⟨fun pressed => ?_, agrees⟩
    rw [capslock ⟨pressed, letter⟩]
  · split
    · exact agrees.backspacePressed.bind fun first second erased => .done ⟨fun _ => rfl, erased⟩
    · exact .done ⟨fun _ => rfl, agrees⟩

/-- The same flag or character, and consoles that agree. -/
abbrev Alike {α : Type} (first second : α × Console) : Prop :=
  first.1 = second.1 ∧ Agrees first.2 second.2

theorem echoChar (agrees : Agrees left right) (toPrint : Byte) :
    Meets Alike (left.echoChar toPrint) (right.echoChar toPrint) := by
  simp only [Console.echoChar]
  rw [agrees.y]
  split
  · exact (agrees.putc toPrint).bind fun first second printed => .done ⟨rfl, printed⟩
  · split
    · exact .done ⟨rfl, agrees.setCursor ..⟩
    · exact .done ⟨rfl, agrees.pressedEnter.setCursor ..⟩

theorem keyEcho (agrees : Agrees left right) (toPrint : Byte) :
    Meets Alike (left.keyEcho toPrint) (right.keyEcho toPrint) := by
  simp only [Console.keyEcho]
  rw [agrees.bufferI]
  split
  · refine (agrees.echoChar toPrint).bind fun first second echoed => ?_
    exact .done ⟨echoed.1, echoed.2.appendChar toPrint⟩
  · exact .done ⟨rfl, agrees⟩

theorem eraseChar (agrees : Agrees left right) (toPrint : Byte) :
    Meets Alike (left.eraseChar toPrint) (right.eraseChar toPrint) := by
  simp only [Console.eraseChar]
  split
  · exact agrees.backspacePressed.bind fun first second erased => .done ⟨rfl, erased⟩
  · exact .done ⟨rfl, agrees⟩

theorem keyWrap (agrees : Agrees left right) (checkEnter : Bool) :
    Agrees (left.keyWrap checkEnter) (right.keyWrap checkEnter) := by
  simp only [Console.keyWrap]
  rw [agrees.x, agrees.y]
  split
  · split
    · exact agrees.setCursor ..
    · split
      · exact agrees
      · exact agrees.pressedEnter
  · exact agrees

/-- The keyboards agree after the step too. -/
abbrev SameKeys (first second : Keyboard × Console) : Prop :=
  SameHeld first.1 second.1 ∧ Agrees first.2 second.2

/-- A letter that finds the line buffer full is not echoed. -/
theorem keyTyped_full (letter : TypesLetter behind scancode) {console : Console}
    (full : ¬ console.bufferI < NUM_CHARS) :
    console.keyTyped behind keys scancode =
      .done ({ keys with checkEnter := false }, console.keyWrap false) := by
  obtain ⟨nonzero, notErased, _⟩ := letter.printable keys
  have printed : scancode &&& 0x80 = 0 ∧ letterOf behind keys scancode ≠ 0 := ⟨letter.1, nonzero⟩
  simp only [Console.keyTyped, letter.keyChar, Outcome.done_bind, if_pos printed,
    Console.eraseChar, if_neg notErased, Console.keyEcho, if_neg full, Outcome.pure_eq]

theorem keyTyped (agrees : Agrees left right) (held : SameHeld keys others)
    (capslock : TypesLetter behind scancode → left.bufferI < NUM_CHARS →
      keys.capslock = others.capslock) :
    Meets SameKeys (left.keyTyped behind keys scancode) (right.keyTyped behind others scancode) := by
  by_cases ignored : TypesLetter behind scancode ∧ ¬ left.bufferI < NUM_CHARS
  · obtain ⟨letter, full⟩ := ignored
    have alsoFull : ¬ right.bufferI < NUM_CHARS := by rwa [← agrees.bufferI]
    rw [keyTyped_full letter full, keyTyped_full letter alsoFull]
    exact .done ⟨⟨held.shift, held.ctrl, held.alt⟩, agrees.keyWrap false⟩
  have sameLock : TypesLetter behind scancode → keys.capslock = others.capslock := by
    intro letter
    refine capslock letter ?_
    by_contra full
    exact ignored ⟨letter, full⟩
  simp only [Console.keyTyped]
  refine (agrees.keyChar held sameLock).bind fun first second typed => ?_
  obtain ⟨char, leftNext⟩ := first
  obtain ⟨other, rightNext⟩ := second
  obtain ⟨sameChar, sameConsole⟩ := typed
  dsimp only at sameChar sameConsole ⊢
  by_cases pressed : scancode &&& 0x80 = 0
  · obtain rfl : char = other := sameChar pressed
    split
    · refine (sameConsole.eraseChar char).bind fun first second erased => ?_
      obtain ⟨toPrint, leftErased⟩ := first
      obtain ⟨rfl, sameErased⟩ := erased
      refine (sameErased.keyEcho _).bind fun first second echoed => ?_
      obtain ⟨checkEnter, leftEchoed⟩ := first
      obtain ⟨rfl, sameEchoed⟩ := echoed
      exact .done ⟨⟨held.shift, held.ctrl, held.alt⟩, sameEchoed.keyWrap _⟩
    · exact .done ⟨held, sameConsole⟩
  · rw [if_neg fun both => pressed both.1, if_neg fun both => pressed both.1]
    exact .done ⟨held, sameConsole⟩

theorem altKey_same (held : SameHeld keys others) :
    SameHeld (altKey keys scancode) (altKey others scancode) := by
  simp only [altKey]
  split
  · exact ⟨held.shift, held.ctrl, rfl⟩
  · split
    · exact ⟨held.shift, held.ctrl, rfl⟩
    · exact held

theorem makeRoom_letter (letter : TypesLetter behind scancode) {console : Console} :
    console.makeRoom (behind.kbdusAt scancode) = console := by
  obtain ⟨lower, _, inside, low, high⟩ := letter.tables
  obtain ⟨small, _⟩ := letter_tables ⟨_, inside⟩ low high
  rw [← lower] at small
  exact if_neg fun full => small.2.2 full.2

theorem modifierKey_same (held : SameHeld keys others) :
    Option.Rel SameHeld (modifierKey keys scancode) (modifierKey others scancode) := by
  simp only [modifierKey]
  split
  · exact .some ⟨rfl, held.ctrl, held.alt⟩
  split
  · exact .some ⟨rfl, held.ctrl, held.alt⟩
  split
  · exact .some ⟨held.shift, rfl, held.alt⟩
  split
  · exact .some ⟨held.shift, rfl, held.alt⟩
  split
  · exact .some ⟨held.shift, held.ctrl, held.alt⟩
  · exact .none

theorem switchKey_same (held : SameHeld keys others) :
    switchKey keys scancode = switchKey others scancode := by
  simp only [switchKey]
  rw [held.alt]

theorem makeRoom (agrees : Agrees left right) (toPrint : Byte) :
    Agrees (left.makeRoom toPrint) (right.makeRoom toPrint) := by
  simp only [Console.makeRoom]
  rw [agrees.bufferI]
  split
  · refine ⟨agrees.cells, agrees.x, agrees.y, rfl, fun i inside => ?_⟩
    dsimp only at inside ⊢
    have kept : i ≠ right.bufferI - 1 := by omega
    rw [Function.update_of_ne kept, Function.update_of_ne kept]
    exact agrees.line i (by rw [agrees.bufferI]; omega)
  · exact agrees

/-- The same terminal asked for, the same keys held and consoles that agree. -/
abbrev SameDrive (first second : Option Int × Keyboard × Console) : Prop :=
  first.1 = second.1 ∧ SameKeys first.2 second.2

theorem terminalKeyPressed (agrees : Agrees left right) (held : SameHeld keys others)
    (capslock : TypesLetter behind scancode → keys.ctrl = false → left.bufferI < NUM_CHARS →
      keys.capslock = others.capslock) :
    Meets SameDrive (left.terminalKeyPressed behind keys scancode)
      (right.terminalKeyPressed behind others scancode) := by
  have sameRoom := agrees.makeRoom (behind.kbdusAt scancode)
  have sameAlt : SameHeld (altKey keys scancode) (altKey others scancode) := altKey_same held
  have sameLock : (altKey keys scancode).ctrl = false → TypesLetter behind scancode →
      (left.makeRoom (behind.kbdusAt scancode)).bufferI < NUM_CHARS →
      (altKey keys scancode).capslock = (altKey others scancode).capslock := by
    intro noCtrl letter room
    rw [altKey_ctrl] at noCtrl
    rw [makeRoom_letter letter] at room
    rw [altKey_capslock, altKey_capslock]
    exact capslock letter noCtrl room
  simp only [Console.terminalKeyPressed]
  generalize altKey keys scancode = leftKeys at sameAlt sameLock ⊢
  generalize altKey others scancode = rightKeys at sameAlt sameLock ⊢
  have modified : Option.Rel SameHeld (modifierKey leftKeys scancode) (modifierKey rightKeys scancode) :=
    modifierKey_same sameAlt
  generalize modifierKey leftKeys scancode = leftModified at modified ⊢
  generalize modifierKey rightKeys scancode = rightModified at modified ⊢
  cases modified with
  | some sameKeys => exact .done ⟨rfl, sameKeys, sameRoom⟩
  | none =>
      dsimp only
      rw [switchKey_same sameAlt]
      cases switchKey rightKeys scancode with
      | some term => exact .done ⟨rfl, sameAlt, sameRoom⟩
      | none =>
          dsimp only
          rw [← sameAlt.ctrl]
          split
          · refine .done ⟨rfl, sameAlt, ?_⟩
            split
            · exact sameRoom.pressedClear
            · exact sameRoom
          · split
            · rename_i noCtrl _
              refine (sameRoom.keyTyped sameAlt (sameLock (eq_false_of_ne_true noCtrl))).bind fun first second typed => ?_
              obtain ⟨leftTyped, leftNext⟩ := first
              obtain ⟨rightTyped, rightNext⟩ := second
              exact .done ⟨rfl, typed⟩
            · exact .done ⟨rfl, sameAlt, sameRoom⟩

end Console.Agrees

namespace Console

variable {behind : BehindTables} {keys after : Keyboard} {scancode : Byte} {console final : Console}
  {asked : Option Int}

theorem storeCell_line {char : Byte} (done : console.storeCell char = .done final) :
    final.lineBuffer = console.lineBuffer ∧ final.bufferI = console.bufferI := by
  unfold storeCell at done
  dsimp only at done
  split at done
  · cases done
    exact ⟨rfl, rfl⟩
  · cases done

theorem putc_line {char : Byte} (done : console.putc char = .done final) :
    final.lineBuffer = console.lineBuffer ∧ final.bufferI = console.bufferI := by
  unfold putc at done
  split at done
  · cases done
    exact ⟨rfl, rfl⟩
  · obtain ⟨stored, storing, rest⟩ := Outcome.bind_eq_done.mp done
    cases rest
    have line : stored.lineBuffer = console.lineBuffer ∧ stored.bufferI = console.bufferI :=
      storeCell_line storing
    exact line

theorem keyWrap_line (console : Console) (checkEnter : Bool) :
    (console.keyWrap checkEnter).lineBuffer = console.lineBuffer ∧
      (console.keyWrap checkEnter).bufferI = console.bufferI := by
  simp only [keyWrap]
  split
  · split
    · exact ⟨rfl, rfl⟩
    · split
      · exact ⟨rfl, rfl⟩
      · exact ⟨rfl, rfl⟩
  · exact ⟨rfl, rfl⟩

/-- A switch is asked for with the alt key held and the cursor where it was. -/
theorem terminalKeyPressed_asks {term : Int}
    (done : console.terminalKeyPressed behind keys scancode = .done (some term, after, final)) :
    after = altKey keys scancode ∧ switchKey (altKey keys scancode) scancode = some term ∧
      final.x = console.x ∧ final.y = console.y := by
  have room : (console.makeRoom (behind.kbdusAt scancode)).x = console.x ∧
      (console.makeRoom (behind.kbdusAt scancode)).y = console.y := by
    simp only [makeRoom]
    split
    · exact ⟨rfl, rfl⟩
    · exact ⟨rfl, rfl⟩
  unfold terminalKeyPressed at done
  dsimp only at done
  split at done
  · cases done
  · split at done
    · rename_i select
      cases done
      exact ⟨rfl, select, room⟩
    · split at done
      · cases done
      · split at done
        · obtain ⟨typed, _, rest⟩ := Outcome.bind_eq_done.mp done
          cases rest
        · cases done

theorem switchKey_alt {term : Int} (select : switchKey keys scancode = some term) :
    keys.alt = true := by
  unfold switchKey at select
  split at select
  · rename_i held
    exact held
  · cases select

/-- The function keys are no modifiers. -/
theorem modifierKey_of_switchKey {term : Int} (select : switchKey keys scancode = some term) :
    modifierKey keys scancode = none := by
  unfold switchKey at select
  split at select
  · split at select
    · rename_i f1
      subst f1
      rfl
    · split at select
      · rename_i f2
        subst f2
        rfl
      · split at select
        · rename_i f3
          subst f3
          rfl
        · cases select
  · cases select

theorem terminalKeyPressed_selects {term : Int}
    (select : switchKey (altKey keys scancode) scancode = some term) :
    console.terminalKeyPressed behind keys scancode =
      .done (some term, altKey keys scancode, console.makeRoom (behind.kbdusAt scancode)) := by
  simp only [terminalKeyPressed, modifierKey_of_switchKey select, select]

/-- The scancodes that the key handler looks for. -/
def specialKeys : List Byte :=
  [0x38, 0xB8, 0x2A, 0x36, 0xAA, 0xB6, 0x1D, 0x9D, 0xBA, 0xBB, 0xBC, 0xBD, 0x3A]

theorem specialKeys_type_no_letter : ∀ index : Fin 128, 97 ≤ kbdusTable.getD index 0 →
    kbdusTable.getD index 0 ≤ 122 → ∀ special ∈ specialKeys, special.toNat ≠ index := by
  decide +kernel

theorem letter_not_special (letter : TypesLetter behind scancode) {special : Byte}
    (member : special ∈ specialKeys) : scancode ≠ special := by
  intro same
  obtain ⟨_, _, inside, low, high⟩ := letter.tables
  exact specialKeys_type_no_letter ⟨_, inside⟩ low high special member
    (congrArg UInt8.toNat same).symm

theorem letter_key (letter : TypesLetter behind scancode) (noCtrl : keys.ctrl = false)
    (room : console.bufferI < NUM_CHARS)
    (done : console.terminalKeyPressed behind keys scancode = .done (asked, after, final)) :
    asked = none ∧ final.bufferI = console.bufferI + 1 ∧
      final.lineBuffer console.bufferI = letterOf behind keys scancode := by
  have other : ∀ special ∈ specialKeys, scancode ≠ special :=
    fun special member => letter_not_special letter member
  simp only [specialKeys, List.mem_cons, List.not_mem_nil, or_false, forall_eq_or_imp,
    forall_eq] at other
  obtain ⟨alt, altUp, leftShift, rightShift, leftUp, rightUp, ctrl, ctrlUp, capsUp, f1, f2, f3, caps⟩ :=
    other
  have noModifier : modifierKey keys scancode = none := by
    simp only [modifierKey, leftShift, rightShift, leftUp, rightUp, ctrl, ctrlUp, capsUp, or_self,
      if_false]
  have noSwitch : switchKey keys scancode = none := by
    simp only [switchKey, f1, f2, f3, if_false, ite_self]
  have sameKeys : altKey keys scancode = keys := by
    simp only [altKey, alt, altUp, if_false]
  obtain ⟨nonzero, notErased, notNewline⟩ := letter.printable keys
  have printed : scancode &&& 0x80 = 0 ∧ letterOf behind keys scancode ≠ 0 := ⟨letter.1, nonzero⟩
  simp only [terminalKeyPressed, Console.Agrees.makeRoom_letter letter, sameKeys, noModifier,
    noSwitch, noCtrl, Bool.false_eq_true, if_false, caps, ne_eq, not_false_eq_true, if_true,
    keyTyped, letter.keyChar, Outcome.done_bind, if_pos printed, eraseChar, if_neg notErased,
    keyEcho, if_pos room, echoChar, notNewline] at done
  obtain ⟨⟨_, ended⟩, typing, returned⟩ := Outcome.bind_eq_done.mp done
  cases returned
  obtain ⟨⟨_, appended⟩, echoing, wrapped⟩ := Outcome.bind_eq_done.mp typing
  cases wrapped
  obtain ⟨⟨_, echoed⟩, printing, appending⟩ := Outcome.bind_eq_done.mp echoing
  cases appending
  obtain ⟨put, putting, flagged⟩ := Outcome.bind_eq_done.mp printing
  cases flagged
  obtain ⟨sameLine, sameCount⟩ := putc_line putting
  obtain ⟨lineKept, countKept⟩ := keyWrap_line (echoed.appendChar (letterOf behind keys scancode)) false
  refine ⟨rfl, ?_, ?_⟩
  · rw [countKept]
    exact congrArg (· + 1) sameCount
  · rw [lineKept, ← sameCount]
    exact Function.update_self ..

end Console

end Ece391
