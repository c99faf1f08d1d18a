import Ece391.Terminal.Agreement

namespace Ece391

open Library

/-! # What a key asks for

The handler decides by the scancode and the modifiers alone what to do; the
console comes in where it does it.
-/

/-- What `terminal_key_pressed` does with a key. -/
inductive KeyAction where
  | nothing
  | switchTo (term : Int)
  | clear
  | backspace
  | type (char : Byte)
deriving DecidableEq

/-- The character of a key under the modifiers. -/
def typedChar (behind : BehindTables) (keys : Keyboard) (scancode : Byte) : Byte :=
  if 97 ≤ behind.kbdusAt scancode ∧ behind.kbdusAt scancode ≤ 122 then
    letterOf behind keys scancode
  else if keys.shift then behind.kbdusShiftAt scancode
  else behind.kbdusAt scancode

/-- The modifiers after a key. -/
def keyModifiers (keys : Keyboard) (scancode : Byte) : Keyboard :=
  (modifierKey (altKey keys scancode) scancode).getD (altKey keys scancode)

def keyAction (behind : BehindTables) (keys : Keyboard) (scancode : Byte) : KeyAction :=
  match modifierKey (altKey keys scancode) scancode, switchKey (altKey keys scancode) scancode with
  | some _, _ => .nothing
  | none, some term => .switchTo term
  | none, none =>
      if keys.ctrl then (if scancode = 0x26 then .clear else .nothing)
      else if scancode = 0x0E then .backspace
      else if scancode = 0x3A then .nothing
      else if scancode &&& 0x80 = 0 ∧ typedChar behind keys scancode ≠ 0 then
        .type (typedChar behind keys scancode)
      else .nothing

variable {behind : BehindTables} {keys : Keyboard} {scancode : Byte} {console : Console} {char : Byte}

/-- The key of the backspace is the only one that types it, and no key types a
carriage return. -/
theorem tables_type : ∀ index : Fin 128,
    (index ≠ 14 → kbdusTable.getD index 0 ≠ 8 ∧ kbdusShiftTable.getD index 0 ≠ 8) ∧
    kbdusTable.getD index 0 ≠ 13 ∧ kbdusShiftTable.getD index 0 ≠ 13 ∧
    (kbdusTable.getD index 0 = 10 → index = 28) ∧ kbdusShiftTable.getD index 0 ≠ 10 := by
  decide

theorem typedChar_tables (behind : BehindTables) (keys : Keyboard)
    (pressed : scancode &&& 0x80 = 0) :
    scancode.toNat < 128 ∧
      behind.kbdusAt scancode = kbdusTable.getD scancode.toNat 0 ∧
      (typedChar behind keys scancode = kbdusTable.getD scancode.toNat 0 ∨
        typedChar behind keys scancode = kbdusShiftTable.getD scancode.toNat 0) := by
  have inside := lt_of_pressed pressed
  have lower : behind.kbdusAt scancode = kbdusTable.getD scancode.toNat 0 := if_pos inside
  have upper : behind.kbdusShiftAt scancode = kbdusShiftTable.getD scancode.toNat 0 := if_pos inside
  refine ⟨UInt8.lt_iff_toNat_lt.mp inside, lower, ?_⟩
  simp only [typedChar]
  rw [letterOf_cases, lower, upper]
  split
  · split
    · exact .inl rfl
    · exact .inr rfl
  · split
    · exact .inr rfl
    · exact .inl rfl

theorem typedChar_ne_backspace (behind : BehindTables) (keys : Keyboard)
    (pressed : scancode &&& 0x80 = 0) (other : scancode ≠ 0x0E) :
    typedChar behind keys scancode ≠ 8 ∧ behind.kbdusAt scancode ≠ 8 := by
  obtain ⟨inside, lower, typed⟩ := typedChar_tables behind keys pressed
  have notKey : (⟨scancode.toNat, inside⟩ : Fin 128) ≠ 14 :=
    fun same => other (UInt8.toNat_inj.mp (Fin.mk.inj same))
  obtain ⟨plain, shifted⟩ := (tables_type ⟨_, inside⟩).1 notKey
  refine ⟨?_, fun erases => plain (lower.symm.trans erases)⟩
  rcases typed with isLower | isUpper
  · rw [isLower]
    exact plain
  · rw [isUpper]
    exact shifted

theorem typedChar_ne_return (pressed : scancode &&& 0x80 = 0) :
    typedChar behind keys scancode ≠ 13 := by
  obtain ⟨inside, _, typed⟩ := typedChar_tables behind keys pressed
  obtain ⟨_, plain, shifted, _⟩ := tables_type ⟨_, inside⟩
  rcases typed with isLower | isUpper
  · rw [isLower]
    exact plain
  · rw [isUpper]
    exact shifted

/-- Only the Enter key types a newline. -/
theorem enter_of_newline (pressed : scancode &&& 0x80 = 0)
    (newline : typedChar behind keys scancode = 10) : scancode = 0x1C := by
  obtain ⟨inside, _, typed⟩ := typedChar_tables behind keys pressed
  obtain ⟨_, _, _, plain, shifted⟩ := tables_type ⟨_, inside⟩
  rcases typed with isLower | isUpper
  · have index := plain (isLower.symm.trans newline)
    exact UInt8.toNat_inj.mp (Fin.mk.inj index)
  · exact absurd (isUpper.symm.trans newline) shifted

theorem typedChar_altKey :
    typedChar behind (altKey keys scancode) scancode = typedChar behind keys scancode := by
  simp only [typedChar, letterOf, altKey_shift, altKey_capslock]

theorem enter_of_table (inside : scancode < 0x80) (newline : behind.kbdusAt scancode = 10) :
    scancode = 0x1C := by
  have lower : behind.kbdusAt scancode = kbdusTable.getD scancode.toNat 0 := if_pos inside
  have index := UInt8.lt_iff_toNat_lt.mp inside
  have isEnter := (tables_type ⟨_, index⟩).2.2.2.1 (lower.symm.trans newline)
  exact UInt8.toNat_inj.mp (Fin.mk.inj isEnter)

/-- The Enter key types its newline only while neither shift nor ctrl is held. -/
theorem keyAction_enter (behind : BehindTables) (keys : Keyboard) :
    keyAction behind keys 0x1C = if keys.shift ∨ keys.ctrl then .nothing else .type 10 := by
  obtain ⟨shift, ctrl, capslock, alt, checkEnter⟩ := keys
  cases shift <;> cases ctrl <;> cases alt <;> rfl

/-- Only the Enter key finds a newline in the table, if a released key finds nothing. -/
theorem kbdusAt_ne_newline (released : ∀ code, behind.kbdus code = 0) (other : scancode ≠ 0x1C) :
    behind.kbdusAt scancode ≠ 10 := by
  by_cases inside : scancode < 0x80
  · exact fun newline => other (enter_of_table inside newline)
  · rw [BehindTables.kbdusAt, if_neg inside, released]
    decide

/-- A key that types is pressed while ctrl is not held. -/
theorem keyAction_type (types : keyAction behind keys scancode = .type char) :
    scancode &&& 0x80 = 0 ∧ scancode ≠ 0x0E ∧ char = typedChar behind keys scancode ∧ char ≠ 0 := by
  unfold keyAction at types
  split at types
  · cases types
  · cases types
  · split at types
    · split at types
      · cases types
      · cases types
    · split at types
      · cases types
      · rename_i other
        split at types
        · cases types
        · split at types
          · rename_i typed
            cases types
            exact ⟨typed.1, other, rfl, typed.2⟩
          · cases types

/-- Only the L key clears the screen. -/
theorem keyAction_clear (clears : keyAction behind keys scancode = .clear) : scancode = 0x26 := by
  unfold keyAction at clears
  split at clears
  · cases clears
  · cases clears
  · split at clears
    · split at clears
      · rename_i isL
        exact isL
      · cases clears
    · split at clears
      · cases clears
      · split at clears
        · cases clears
        · split at clears
          · cases clears
          · cases clears

namespace Console

theorem keyTyped_backspace : console.keyTyped behind keys 0x0E = (do
    let erased ← console.backspacePressed
    return (keys, erased)) := by
  have erases : console.keyChar behind keys 0x0E = (do
      let erased ← console.backspacePressed
      return (0, erased)) := rfl
  simp only [keyTyped]
  rw [erases, Outcome.bind_assoc]
  rfl

theorem keyChar_other (other : scancode ≠ 0x0E) :
    console.keyChar behind keys scancode = .done (typedChar behind keys scancode, console) := by
  simp only [keyChar, typedChar, letterOf, other, and_false, if_false]
  split
  · rfl
  · rfl

/-- What a key that is no modifier does while no control key is held, in terms of
the character it types. -/
theorem keyTyped_eq (other : scancode ≠ 0x0E) :
    console.keyTyped behind keys scancode =
      if scancode &&& 0x80 = 0 ∧ typedChar behind keys scancode ≠ 0 then do
        let (checkEnter, echoed) ← console.keyEcho (typedChar behind keys scancode)
        return ({ keys with checkEnter }, echoed.keyWrap checkEnter)
      else .done (keys, console) := by
  simp only [keyTyped]
  rw [keyChar_other other, Outcome.done_bind]
  dsimp only
  split
  · rename_i printed
    have notErased := (typedChar_ne_backspace behind keys printed.1 other).1
    rw [eraseChar, if_neg notErased, Outcome.done_bind]
  · rfl

/-- What the handler does is what the action of the key says. -/
theorem terminalKeyPressed_eq (behind : BehindTables) (keys : Keyboard) (scancode : Byte)
    (console : Console) :
    console.terminalKeyPressed behind keys scancode =
      let room := console.makeRoom (behind.kbdusAt scancode)
      let held := keyModifiers keys scancode
      match keyAction behind keys scancode with
      | .nothing => .done (none, held, room)
      | .switchTo term => .done (some term, held, room)
      | .clear => .done (none, held, room.pressedClear)
      | .backspace => do
          let erased ← room.backspacePressed
          return (none, held, erased)
      | .type char => do
          let (checkEnter, echoed) ← room.keyEcho char
          return (none, { held with checkEnter }, echoed.keyWrap checkEnter) := by
  simp only [terminalKeyPressed, keyModifiers, keyAction]
  cases modifier : modifierKey (altKey keys scancode) scancode with
  | some changed => rfl
  | none =>
      cases select : switchKey (altKey keys scancode) scancode with
      | some term => rfl
      | none =>
          simp only [altKey_ctrl]
          by_cases ctrl : keys.ctrl = true
          · simp only [if_pos ctrl]
            by_cases clears : scancode = 0x26
            · simp only [if_pos clears]
              rfl
            · simp only [if_neg clears]
              rfl
          · simp only [if_neg ctrl]
            by_cases erases : scancode = 0x0E
            · subst erases
              rw [if_pos (by decide), if_pos rfl, keyTyped_backspace, Outcome.bind_assoc]
              rfl
            · simp only [if_neg erases]
              by_cases capslock : scancode = 0x3A
              · simp only [if_neg (not_not_intro capslock), if_pos capslock]
                rfl
              · rw [if_pos capslock, if_neg capslock, keyTyped_eq erases, typedChar_altKey]
                split
                · rw [Outcome.bind_assoc]
                  rfl
                · rfl

end Console

end Ece391
