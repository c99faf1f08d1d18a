import Ece391.Terminal.Console

namespace Ece391

/-! # The loops of pressed_enter

`Console.pressedEnter` says what they leave.  The copy goes from the first cell to
the last and never reads a cell that it has written.
-/

/-- The first loop, over the cells from `i` on: each takes the character of the cell
below. -/
def moveRows : (remaining i : Nat) → (videoMem : Nat → Byte) → Nat → Byte
  | 0, _, videoMem => videoMem
  | remaining + 1, i, videoMem =>
      let moved := Function.update videoMem (2 * i) (videoMem (2 * (i + 80)))
      moveRows remaining (i + 1) (Function.update moved (2 * i + 1) ATTRIB)

/-- The second loop, whose body is the first of the two statements. -/
def blankCells : (remaining i : Nat) → (videoMem : Nat → Byte) → Nat → Byte
  | 0, _, videoMem => videoMem
  | remaining + 1, i, videoMem =>
      blankCells remaining (i + 1) (Function.update videoMem (2 * i) 32)

/-- `i` is the number of cells when the last statement runs. -/
def pressedEnterLoops (videoMem : Nat → Byte) : Nat → Byte :=
  let moved := moveRows (NUM_ROWS * NUM_COLS - 80) 0 videoMem
  let blanked := blankCells 80 (NUM_ROWS * NUM_COLS - 80) moved
  Function.update blanked (2 * (NUM_ROWS * NUM_COLS) + 1) ATTRIB

variable {videoMem : Nat → Byte} {remaining i offset : Nat}

theorem moveRows_eq (remaining i : Nat) (videoMem : Nat → Byte) (offset : Nat) :
    moveRows remaining i videoMem offset =
      if 2 * i ≤ offset ∧ offset < 2 * (i + remaining) then
        (if offset % 2 = 0 then videoMem (offset + 160) else ATTRIB)
      else videoMem offset := by
  induction remaining generalizing i videoMem with
  | zero =>
      rw [if_neg (by omega)]
      rfl
  | succ remaining ih =>
      rw [moveRows, ih]
      by_cases later : 2 * (i + 1) ≤ offset ∧ offset < 2 * (i + 1 + remaining)
      · have unread : offset + 160 ≠ 2 * i + 1 ∧ offset + 160 ≠ 2 * i := by omega
        have inside : 2 * i ≤ offset ∧ offset < 2 * (i + (remaining + 1)) := by omega
        rw [if_pos later, if_pos inside, Function.update_of_ne unread.1,
          Function.update_of_ne unread.2]
      · rw [if_neg later]
        by_cases isAttribute : offset = 2 * i + 1
        · have inside : 2 * i ≤ offset ∧ offset < 2 * (i + (remaining + 1)) := by omega
          rw [if_pos inside, if_neg (by omega), isAttribute, Function.update_self]
        · rw [Function.update_of_ne isAttribute]
          by_cases isChar : offset = 2 * i
          · have inside : 2 * i ≤ offset ∧ offset < 2 * (i + (remaining + 1)) := by omega
            have below : 2 * (i + 80) = offset + 160 := by omega
            rw [if_pos inside, if_pos (by omega), ← below, isChar, Function.update_self]
          · rw [if_neg (by omega), Function.update_of_ne isChar]

theorem blankCells_eq (remaining i : Nat) (videoMem : Nat → Byte) (offset : Nat) :
    blankCells remaining i videoMem offset =
      if 2 * i ≤ offset ∧ offset < 2 * (i + remaining) ∧ offset % 2 = 0 then 32
      else videoMem offset := by
  induction remaining generalizing i videoMem with
  | zero =>
      rw [if_neg (by omega)]
      rfl
  | succ remaining ih =>
      rw [blankCells, ih]
      by_cases later : 2 * (i + 1) ≤ offset ∧ offset < 2 * (i + 1 + remaining) ∧ offset % 2 = 0
      · rw [if_pos later, if_pos (by omega)]
      · rw [if_neg later]
        by_cases isChar : offset = 2 * i
        · rw [if_pos (by omega), isChar, Function.update_self]
        · rw [if_neg (by omega), Function.update_of_ne isChar]

theorem pressedEnterLoops_at (videoMem : Nat → Byte) (offset : Nat) :
    pressedEnterLoops videoMem offset =
      if offset < 3840 then (if offset % 2 = 0 then videoMem (offset + 160) else ATTRIB)
      else if offset < 4000 ∧ offset % 2 = 0 then 32
      else if offset = 4001 then ATTRIB
      else videoMem offset := by
  have loops : pressedEnterLoops videoMem =
      Function.update (blankCells 80 1920 (moveRows 1920 0 videoMem)) 4001 ATTRIB := rfl
  rw [loops]
  by_cases behind : offset = 4001
  · subst behind
    rw [Function.update_self]
    rfl
  · rw [Function.update_of_ne behind, blankCells_eq, moveRows_eq, if_neg behind]
    by_cases upper : offset < 3840
    · have notBlank : ¬ (2 * 1920 ≤ offset ∧ offset < 2 * (1920 + 80) ∧ offset % 2 = 0) := by omega
      have inRows : 2 * 0 ≤ offset ∧ offset < 2 * (0 + 1920) := by omega
      rw [if_neg notBlank, if_pos inRows, if_pos upper]
    · have notInRows : ¬ (2 * 0 ≤ offset ∧ offset < 2 * (0 + 1920)) := by omega
      have lastRow : (2 * 1920 ≤ offset ∧ offset < 2 * (1920 + 80) ∧ offset % 2 = 0) ↔
          offset < 4000 ∧ offset % 2 = 0 := by omega
      rw [if_neg upper, if_neg notInRows]
      simp only [lastRow]

/-- The loops do what `Console.pressedEnter` says. -/
theorem pressedEnterLoops_eq (console : Console) :
    console.pressedEnter.cells = pressedEnterLoops console.cells := by
  funext offset
  rw [pressedEnterLoops_at]
  rfl

/-- The offset of a character; its attribute is behind it. -/
def cellOffset (row column : Nat) : Nat := 2 * (NUM_COLS * row + column)

/-- Every row is the one that was below it, the last one is blank, and nothing
outside the cells has changed. -/
structure Scrolls (before after : Nat → Byte) : Prop where
  rows : ∀ row < NUM_ROWS - 1, ∀ column < NUM_COLS,
    after (cellOffset row column) = before (cellOffset (row + 1) column) ∧
      after (cellOffset row column + 1) = ATTRIB
  blank : ∀ column < NUM_COLS, after (cellOffset (NUM_ROWS - 1) column) = 32 ∧
    after (cellOffset (NUM_ROWS - 1) column + 1) = ATTRIB
  outside : ∀ offset, 2 * (NUM_ROWS * NUM_COLS) ≤ offset → after offset = before offset

/-- A scroll moves the picture and nothing else if and only if the attributes of the
last row, which it leaves, and the byte of the attribute behind the last cell, which
it sets, have the right value already. -/
theorem pressedEnter_scrolls_iff (videoMem : Nat → Byte) :
    Scrolls videoMem (pressedEnterLoops videoMem) ↔
      (∀ column < NUM_COLS, videoMem (cellOffset (NUM_ROWS - 1) column + 1) = ATTRIB) ∧
        videoMem (2 * (NUM_ROWS * NUM_COLS) + 1) = ATTRIB := by
  constructor
  · intro scrolls
    constructor
    · intro column inside
      have blank := (scrolls.blank column inside).2
      simp only [cellOffset, NUM_ROWS, NUM_COLS] at inside blank ⊢
      rw [pressedEnterLoops_at, if_neg (by omega), if_neg (by omega), if_neg (by omega)] at blank
      exact blank
    · have same := scrolls.outside (2 * (NUM_ROWS * NUM_COLS) + 1) (Nat.le_succ _)
      rw [pressedEnterLoops_at] at same
      exact same.symm
  · rintro ⟨attributes, behind⟩
    constructor
    · intro row above column inside
      simp only [cellOffset, NUM_ROWS, NUM_COLS] at above inside ⊢
      constructor
      · have below : 2 * (80 * row + column) + 160 = 2 * (80 * (row + 1) + column) := by omega
        rw [pressedEnterLoops_at, if_pos (by omega), if_pos (by omega), below]
      · rw [pressedEnterLoops_at, if_pos (by omega), if_neg (by omega)]
    · intro column inside
      have isAttribute := attributes column inside
      simp only [cellOffset, NUM_ROWS, NUM_COLS] at inside isAttribute ⊢
      constructor
      · rw [pressedEnterLoops_at, if_neg (by omega), if_pos (by omega)]
      · rw [pressedEnterLoops_at, if_neg (by omega), if_neg (by omega), if_neg (by omega)]
        exact isAttribute
    · intro offset outside
      simp only [NUM_ROWS, NUM_COLS] at outside behind
      rw [pressedEnterLoops_at, if_neg (by omega), if_neg (by omega)]
      by_cases isBehind : offset = 4001
      · rw [if_pos isBehind, isBehind]
        exact behind.symm
      · rw [if_neg isBehind]

/-- On a page of zeros the byte at 4001 changes. -/
theorem pressedEnter_changes_behind : ¬ Scrolls (fun _ => 0) (pressedEnterLoops fun _ => 0) := by
  intro scrolls
  have same := scrolls.outside 4001 (by decide)
  rw [pressedEnterLoops_at] at same
  exact absurd same (by decide)

end Ece391
