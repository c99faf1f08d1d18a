import Ece391.Terminal.Screen

namespace Ece391

open Library

/-! # Output in one call and in two (terminal.c)

A call of `terminal_write` goes by the length of its whole string, so a character
may be treated another way in a shorter string.
-/

/-- The characters stand at `buf`, a NUL behind them. -/
structure HoldsString (buf : UserMemory) (chars : List Byte) : Prop where
  measured : strlen buf = .done chars.length
  bytes : ∀ i < chars.length, buf i = chars[i]?

namespace Console

/-- `terminal_write`, with the line buffer that it leaves. -/
def write (buf : UserMemory) (nbytes : Int) (console : Console) : Outcome Console := do
  let (_, console) ← console.terminalWrite buf nbytes
  return { console with bufferI := 0 }

/-- The first `count` characters of two strings, of which the first has `length`,
in a call for each. -/
def writeParts (first second : UserMemory) (length count : Nat) (console : Console) :
    Outcome Console := do
  let console ← console.write first (min count length : Nat)
  console.write second (count - length : Nat)

/-- The turns of the loop for the characters of a string that is long or not. -/
def writeChars (long : Bool) : List Byte → Console → Outcome Console
  | [], console => .done console
  | char :: chars, console => do
      let console ← (console.wrapLine (long = true)).putc char
      writeChars long chars console

/-- The same picture and the same cursor. -/
structure SameScreen (left right : Console) : Prop where
  cells : ∀ offset < CELL_BYTES, left.cells offset = right.cells offset
  x : left.x = right.x
  y : left.y = right.y

end Console

/-- Where the rule for long strings leaves the cursor: a character that comes to
the last column starts a new row, and no character goes below the last row. -/
def nextCursor (cursor : Int × Int) (char : Byte) : Int × Int :=
  let (x, y) :=
    if cursor.1 + 1 = NUM_COLS then (0, min (cursor.2 + 1) (NUM_ROWS - 1))
    else (cursor.1, min cursor.2 (NUM_ROWS - 1))
  if char = 10 ∨ char = 13 then (0, y + 1) else (x + 1, y)

/-- The last cell of the last row. -/
def lastCell : Int × Int := (NUM_COLS - 1, NUM_ROWS - 1)

/-- Of a string that is long only with the other part, no character comes to the
last cell. -/
structure AvoidsLastCell (cursor : Int × Int) (chars others : List Byte) : Prop where
  first : chars.length ≤ NUM_COLS → ∀ i < chars.length,
    (chars.take i).foldl nextCursor cursor ≠ lastCell
  second : others.length ≤ NUM_COLS → ∀ i < others.length,
    (chars ++ others.take i).foldl nextCursor cursor ≠ lastCell

variable {buf first second whole : UserMemory} {chars others : List Byte} {console after : Console}
  {char : Byte} {long : Bool}

namespace Console

theorem writeChars_append (long : Bool) (chars others : List Byte) (console : Console) :
    writeChars long (chars ++ others) console =
      (writeChars long chars console >>= writeChars long others) := by
  induction chars generalizing console with
  | nil => rfl
  | cons char chars ih =>
      simp only [List.cons_append, writeChars, ih, Outcome.bind_assoc]

end Console

theorem HoldsString.loaded (holds : HoldsString buf chars) {i : Nat} (inside : i ≤ chars.length) :
    ∃ byte, buf i = some byte := by
  by_cases last : i = chars.length
  · exact ⟨0, by rw [last, (strlen_eq_done.mp holds.measured).2.2]⟩
  · obtain ⟨byte, present, _⟩ := (strlen_eq_done.mp holds.measured).2.1 i (by omega)
    exact ⟨byte, present⟩

theorem HoldsString.writeLoop (holds : HoldsString buf chars) {remaining i : Nat} {toPrint : Byte}
    (inside : i + remaining ≤ chars.length) (loaded : buf i = some toPrint) :
    Console.writeLoop buf remaining i toPrint console = do
      let after ← Console.writeChars (NUM_COLS < chars.length) ((chars.drop i).take remaining) console
      return ((chars.drop i).take remaining, after) := by
  induction remaining generalizing i toPrint console with
  | zero => rfl
  | succ remaining ih =>
      obtain ⟨byte, present, notNul⟩ := (strlen_eq_done.mp holds.measured).2.1 i (by omega)
      obtain rfl : byte = toPrint := Option.some.inj (present.symm.trans loaded)
      have isChar : chars[i]? = some byte := (holds.bytes i (by omega)).symm.trans loaded
      obtain ⟨inBounds, isByte⟩ := List.getElem?_eq_some_iff.mp isChar
      obtain ⟨next, nextLoaded⟩ := holds.loaded (show i + 1 ≤ chars.length by omega)
      rw [List.drop_eq_getElem_cons inBounds, isByte, List.take_succ_cons]
      simp only [Console.writeLoop, Console.writeChars, gt_iff_lt, decide_eq_true_eq]
      rw [if_neg notNul, holds.measured, Outcome.done_bind, Outcome.bind_assoc]
      congr 1
      funext printed
      rw [nextLoaded]
      dsimp only
      rw [ih (by omega) nextLoaded, Outcome.bind_assoc]
      rfl

theorem HoldsString.write (holds : HoldsString buf chars) {count : Nat}
    (inside : count ≤ chars.length) :
    console.write buf count = do
      let after ← Console.writeChars (NUM_COLS < chars.length) (chars.take count) console
      return { after with bufferI := 0 } := by
  obtain ⟨toPrint, loaded⟩ := holds.loaded (Nat.zero_le _)
  have looped := @HoldsString.writeLoop buf chars console holds count 0 toPrint (by omega) loaded
  rw [List.drop_zero] at looped
  simp only [Console.write, Console.terminalWrite, loaded, Int.toNat_natCast, looped,
    Outcome.bind_assoc, Outcome.pure_eq, Outcome.done_bind]

namespace Console

theorem wrapLine_bufferI (console : Console) (long : Prop) [Decidable long] (bufferI : Nat) :
    wrapLine long { console with bufferI } = { console.wrapLine long with bufferI } := by
  have first : (if console.x = 0 then
        if console.y < NUM_ROWS then setCursor { console with bufferI } 0 console.y
        else (pressedEnter { console with bufferI }).setCursor 0 (NUM_ROWS - 1)
      else { console with bufferI }) =
      { (if console.x = 0 then
          if console.y < NUM_ROWS then console.setCursor 0 console.y
          else console.pressedEnter.setCursor 0 (NUM_ROWS - 1)
        else console) with bufferI } := by
    split
    · split
      · rfl
      · rfl
    · rfl
  simp only [wrapLine]
  rw [first]
  generalize (if console.x = 0 then _ else console) = started
  dsimp only
  split
  · split
    · rfl
    · rfl
  · split
    · split
      · rfl
      · rfl
    · rfl

theorem putc_bufferI (console : Console) (char : Byte) (bufferI : Nat) :
    putc { console with bufferI } char =
      (console.putc char >>= fun after => .done { after with bufferI }) := by
  simp only [putc]
  split
  · rfl
  · simp only [storeCell]
    split
    · rfl
    · rfl

/-- What is in the line buffer has no part in what is written. -/
theorem writeChars_bufferI (long : Bool) (chars : List Byte) (console : Console) (bufferI : Nat) :
    writeChars long chars { console with bufferI } =
      (writeChars long chars console >>= fun after => .done { after with bufferI }) := by
  induction chars generalizing console with
  | nil => rfl
  | cons char chars ih =>
      simp only [writeChars, wrapLine_bufferI, putc_bufferI, Outcome.bind_assoc,
        Outcome.done_bind, ih]

end Console

theorem nextCursor_lastCell (char : Byte) :
    nextCursor lastCell char = if char = 10 ∨ char = 13 then (0, 25) else (1, 24) := rfl

namespace Console

/-- The long rule keeps the cursor in front of the last column and on the screen. -/
theorem InRows.wrapLine_long (inRows : console.InRows) :
    (console.wrapLine (true = true)).x = (if console.x + 1 = NUM_COLS then 0 else console.x) ∧
      (console.wrapLine (true = true)).y =
        if console.x + 1 = NUM_COLS then min (console.y + 1) (NUM_ROWS - 1)
        else min console.y (NUM_ROWS - 1) := by
  obtain ⟨left, right, top, bottom⟩ := inRows
  simp only [Console.wrapLine]
  simp only [NUM_COLS, NUM_ROWS] at *
  by_cases first : console.x = 0
  · by_cases above : console.y < 25
    · simp [first, above, setCursor]
      omega
    · simp [first, above, setCursor]
      omega
  · have above : console.y < 25 := bottom.resolve_right first
    by_cases last : console.x + 1 = 80
    · by_cases lastRow : console.y + 1 = 25
      · simp only [first, ↓reduceIte, last, Nat.cast_ofNat, and_self, lastRow, ne_eq,
          not_true_eq_false, setCursor, Int.reduceSub, true_and]
        decide
      · simp [first, last, lastRow, setCursor]
        omega
    · simp [first, last]
      omega

theorem InRows.long_turn (inRows : console.InRows) (char : Byte) :
    ∃ after, (console.wrapLine (true = true)).putc char = .done after ∧ after.InRows ∧
      (after.x, after.y) = nextCursor (console.x, console.y) char := by
  obtain ⟨wrappedIn, _⟩ := inRows.wrapLine (true = true)
  obtain ⟨column, row⟩ := inRows.wrapLine_long
  obtain ⟨left, right, top, bottom⟩ := inRows
  generalize console.wrapLine (true = true) = wrapped at wrappedIn column row ⊢
  have cursor : (if console.x + 1 = NUM_COLS then (0, min (console.y + 1) (NUM_ROWS - 1))
      else (console.x, min console.y (NUM_ROWS - 1)) : Int × Int) = (wrapped.x, wrapped.y) := by
    rw [column, row]
    split
    · rfl
    · rfl
  by_cases newline : char = 10 ∨ char = 13
  · have printed := @putc_newline wrapped char newline
    refine ⟨_, printed, wrappedIn.putc char _ printed, ?_⟩
    simp only [nextCursor, cursor, if_pos newline, setCursor]
  · have visible : wrapped.Visible := by
      have capped : ∀ y : Int, min y (NUM_ROWS - 1) < NUM_ROWS := by
        intro y
        simp only [NUM_ROWS]
        omega
      refine wrappedIn.visible ?_
      rw [row]
      split
      · exact capped _
      · exact capped _
    have printed := visible.putc newline
    refine ⟨_, printed, wrappedIn.putc char _ printed, ?_⟩
    have notLast : ¬ wrapped.x + 1 = NUM_COLS := by
      rw [column]
      split
      · decide
      · assumption
    simp only [nextCursor, cursor, if_neg newline, if_neg notLast]

/-- The two rules differ in the last cell of the screen only. -/
theorem InRows.wrapLine_short (inRows : console.InRows)
    (elsewhere : (console.x, console.y) ≠ lastCell) :
    console.wrapLine (false = true) = console.wrapLine (true = true) := by
  obtain ⟨left, right, top, bottom⟩ := inRows
  simp only [Console.wrapLine]
  by_cases last : console.x + 1 = NUM_COLS
  · have notFirst : console.x ≠ 0 := by
      simp only [NUM_COLS] at last
      omega
    have above : console.y < NUM_ROWS := bottom.resolve_right notFirst
    have notLastRow : console.y + 1 ≠ NUM_ROWS := by
      intro lastRow
      refine elsewhere (Prod.ext ?_ ?_)
      · exact eq_sub_of_add_eq last
      · exact eq_sub_of_add_eq lastRow
    simp [notFirst, last, above, notLastRow]
  · have notWrapped : ¬ ((if console.x = 0 then
          if console.y < NUM_ROWS then console.setCursor 0 console.y
          else console.pressedEnter.setCursor 0 (NUM_ROWS - 1)
        else console).x + 1 = NUM_COLS) := by
      have started : ¬ ((0 : Int) + 1 = NUM_COLS) := by decide
      split
      · split
        · exact started
        · exact started
      · exact last
    simp [notWrapped]

theorem short_corner (corner : (console.x, console.y) = lastCell)
    (printed : (console.wrapLine (false = true)).putc char = .done after) :
    after.y = 0 ∨ after.y = 26 := by
  have x : console.x = 79 := congrArg Prod.fst corner
  have y : console.y = 24 := congrArg Prod.snd corner
  have wrapped : console.wrapLine (false = true) = console.setCursor 0 25 := by
    simp [wrapLine, x, y, NUM_COLS, NUM_ROWS]
  rw [wrapped, putc] at printed
  split at printed
  · cases printed
    exact .inr rfl
  · obtain ⟨stored, storing, rest⟩ := Outcome.bind_eq_done.mp printed
    cases rest
    obtain ⟨sameX, sameY, _⟩ := storeCell_cursor char stored storing
    refine .inl ?_
    simp only [setCursor, sameX, sameY]
    decide

/-- A character at the last cell of the screen tells the rules apart. -/
theorem InRows.corner_differs {other : Console} {left right : Console} (inRows : other.InRows)
    (corner : (console.x, console.y) = lastCell) (same : (other.x, other.y) = lastCell)
    (isShort : (console.wrapLine (false = true)).putc char = .done left)
    (isLong : (other.wrapLine (true = true)).putc char = .done right) : left.y ≠ right.y := by
  obtain ⟨after, printed, _, cursor⟩ := inRows.long_turn char
  cases printed.symm.trans isLong
  have row : right.y = 24 ∨ right.y = 25 := by
    have isRow := congrArg Prod.snd cursor
    rw [same, nextCursor_lastCell] at isRow
    dsimp only at isRow
    rw [isRow]
    split
    · exact .inr rfl
    · exact .inl rfl
  have other := short_corner corner isShort
  omega

theorem InRows.writeChars_long (inRows : console.InRows) (chars : List Byte) :
    ∃ after, writeChars true chars console = .done after ∧ after.InRows ∧
      (after.x, after.y) = chars.foldl nextCursor (console.x, console.y) := by
  induction chars generalizing console with
  | nil => exact ⟨console, rfl, inRows, rfl⟩
  | cons char chars ih =>
      obtain ⟨printed, printing, printedIn, cursor⟩ := inRows.long_turn char
      obtain ⟨after, written, afterIn, last⟩ := ih printedIn
      refine ⟨after, ?_, afterIn, ?_⟩
      · rw [writeChars, printing, Outcome.done_bind, written]
      · rw [last, cursor, List.foldl_cons]

/-- A short string is written like a long one that does not come to the last cell. -/
theorem InRows.writeChars_short (inRows : console.InRows)
    (avoids : ∀ i < chars.length,
      (chars.take i).foldl nextCursor (console.x, console.y) ≠ lastCell) :
    writeChars false chars console = writeChars true chars console := by
  induction chars generalizing console with
  | nil => rfl
  | cons char chars ih =>
      have elsewhere : (console.x, console.y) ≠ lastCell := avoids 0 (Nat.succ_pos _)
      obtain ⟨printed, printing, printedIn, cursor⟩ := inRows.long_turn char
      rw [writeChars, writeChars, inRows.wrapLine_short elsewhere, printing, Outcome.done_bind,
        Outcome.done_bind]
      refine ih printedIn fun i inside => ?_
      rw [cursor]
      exact avoids (i + 1) (Nat.succ_lt_succ inside)

end Console

/-- Both come to an end, with the same picture and the same cursor. -/
def SameOutput (left right : Outcome Console) : Prop :=
  ∃ first second, left = .done first ∧ right = .done second ∧ first.SameScreen second

/-- The turns of two calls for the first `count` characters. -/
def Console.writeTurns (long longer : Bool) (chars others : List Byte) (count : Nat)
    (console : Console) : Outcome Console :=
  Console.writeChars long (chars.take count) console >>=
    Console.writeChars longer (others.take (count - chars.length))

theorem sameOutput_reset {left right : Outcome Console} :
    SameOutput (left >>= fun after => .done { after with bufferI := 0 })
      (right >>= fun after => .done { after with bufferI := 0 }) ↔ SameOutput left right := by
  constructor
  · rintro ⟨_, _, isLeft, isRight, same⟩
    obtain ⟨first, done, last⟩ := Outcome.bind_eq_done.mp isLeft
    obtain ⟨second, done', last'⟩ := Outcome.bind_eq_done.mp isRight
    cases last
    cases last'
    exact ⟨first, second, done, done', same.cells, same.x, same.y⟩
  · rintro ⟨first, second, rfl, rfl, same⟩
    exact ⟨_, _, rfl, rfl, same.cells, same.x, same.y⟩

namespace Console

theorem writeParts_eq (holds : HoldsString first chars) (holdsSecond : HoldsString second others)
    {count : Nat} (inside : count ≤ chars.length + others.length) :
    console.writeParts first second chars.length count =
      (console.writeTurns (NUM_COLS < chars.length) (NUM_COLS < others.length) chars others count >>=
        fun after => .done { after with bufferI := 0 }) := by
  rw [writeParts, holds.write (Nat.min_le_right ..), writeTurns, Outcome.bind_assoc,
    Outcome.bind_assoc, ← List.take_eq_take_min]
  congr 1
  funext after
  rw [Outcome.pure_eq, Outcome.done_bind, holdsSecond.write (by omega), writeChars_bufferI,
    Outcome.bind_assoc]
  rfl

theorem writeWhole_eq (holds : HoldsString whole (chars ++ others)) {count : Nat}
    (inside : count ≤ chars.length + others.length) :
    console.write whole count =
      (console.writeTurns (NUM_COLS < chars.length + others.length)
          (NUM_COLS < chars.length + others.length) chars others count >>=
        fun after => .done { after with bufferI := 0 }) := by
  rw [holds.write (by rw [List.length_append]; exact inside), List.take_append, writeChars_append,
    List.length_append]
  rfl

theorem InRows.writeChars_exists (inRows : console.InRows) (long : Bool) (chars : List Byte) :
    ∃ after, writeChars long chars console = .done after ∧ after.InRows := by
  induction chars generalizing console with
  | nil => exact ⟨console, rfl, inRows⟩
  | cons char chars ih =>
      obtain ⟨wrappedIn, onPage⟩ := inRows.wrapLine (long = true)
      obtain ⟨printed, printing⟩ := wrappedIn.puts_char onPage char
      obtain ⟨after, written, afterIn⟩ := ih (wrappedIn.putc char printed printing)
      exact ⟨after, by rw [writeChars, printing, Outcome.done_bind, written], afterIn⟩

theorem InRows.writeTurns_exists (inRows : console.InRows) (long longer : Bool)
    (chars others : List Byte) (count : Nat) :
    ∃ after, console.writeTurns long longer chars others count = .done after := by
  obtain ⟨between, written, betweenIn⟩ := inRows.writeChars_exists long (chars.take count)
  obtain ⟨after, finished, _⟩ :=
    betweenIn.writeChars_exists longer (others.take (count - chars.length))
  exact ⟨after, Outcome.bind_eq_done.mpr ⟨between, written, finished⟩⟩

/-- Parts that avoid the last cell are written by the rule for long strings. -/
theorem InRows.writeTurns_long (inRows : console.InRows) {long longer : Bool} {count : Nat}
    (avoidsFirst : long = false → ∀ i < chars.length,
      (chars.take i).foldl nextCursor (console.x, console.y) ≠ lastCell)
    (avoidsSecond : longer = false → ∀ i < others.length,
      (chars ++ others.take i).foldl nextCursor (console.x, console.y) ≠ lastCell) :
    console.writeTurns long longer chars others count =
      console.writeTurns true true chars others count := by
  have firstLong : writeChars long (chars.take count) console =
      writeChars true (chars.take count) console := by
    cases long with
    | true => rfl
    | false =>
        refine inRows.writeChars_short fun i inside => ?_
        rw [List.length_take] at inside
        rw [List.take_take, Nat.min_eq_left (by omega)]
        exact avoidsFirst rfl i (by omega)
  obtain ⟨between, written, betweenIn, cursor⟩ := inRows.writeChars_long (chars.take count)
  rw [writeTurns, writeTurns, firstLong, written, Outcome.done_bind, Outcome.done_bind]
  cases longer with
  | true => rfl
  | false =>
      refine betweenIn.writeChars_short fun i inside => ?_
      rw [List.length_take] at inside
      -- there is a character of the second part only behind the whole first one
      have complete : chars.take count = chars := List.take_of_length_le (by omega)
      rw [List.take_take, Nat.min_eq_left (by omega), cursor, complete, ← List.foldl_append]
      exact avoidsSecond rfl i (by omega)

theorem InRows.writeTurns_cursor (inRows : console.InRows) (chars others : List Byte) (count : Nat) :
    ∃ after, console.writeTurns true true chars others count = .done after ∧ after.InRows ∧
      (after.x, after.y) =
        (chars.take count ++ others.take (count - chars.length)).foldl nextCursor
          (console.x, console.y) := by
  obtain ⟨after, written, afterIn, cursor⟩ :=
    inRows.writeChars_long (chars.take count ++ others.take (count - chars.length))
  rw [writeChars_append] at written
  exact ⟨after, written, afterIn, cursor⟩

theorem writeTurns_first (long longer : Bool) (others : List Byte) {i : Nat}
    (inside : i < chars.length) :
    console.writeTurns long longer chars others (i + 1) =
      (console.writeTurns long longer chars others i >>= writeChars long [chars[i]]) := by
  have before : i - chars.length = 0 := by omega
  have after : i + 1 - chars.length = 0 := by omega
  have nothing : ∀ left : Outcome Console, (left >>= writeChars longer []) = left := by
    intro left
    cases left <;> rfl
  rw [writeTurns, writeTurns, before, after, List.take_zero, nothing, nothing,
    List.take_succ_eq_append_getElem inside, writeChars_append]

theorem writeTurns_second (long longer : Bool) (chars : List Byte) {i : Nat}
    (inside : i < others.length) :
    console.writeTurns long longer chars others (chars.length + i + 1) =
      (console.writeTurns long longer chars others (chars.length + i) >>=
        writeChars longer [others[i]]) := by
  have before : chars.length + i - chars.length = i := by omega
  have after : chars.length + i + 1 - chars.length = i + 1 := by omega
  have whole : chars.take (chars.length + i) = chars := List.take_of_length_le (by omega)
  have still : chars.take (chars.length + i + 1) = chars := List.take_of_length_le (by omega)
  rw [writeTurns, writeTurns, before, after, whole, still,
    List.take_succ_eq_append_getElem inside, Outcome.bind_assoc]
  congr 1
  funext between
  rw [writeChars_append]

/-- Where one more character keeps the outputs the same under different rules, it
is not at the last cell. -/
theorem elsewhere_of_same {parts all : Outcome Console} {right : Console}
    (same : SameOutput parts all) (isRight : all = .done right) (rightIn : right.InRows)
    (again : SameOutput (parts >>= writeChars false [char]) (all >>= writeChars true [char])) :
    (right.x, right.y) ≠ lastCell := by
  intro corner
  obtain ⟨left, other, rfl, isOther, sameScreen⟩ := same
  cases isRight.symm.trans isOther
  subst isRight
  obtain ⟨left', right', shortDone, longDone, sameAgain⟩ := again
  rw [Outcome.done_bind, writeChars] at shortDone longDone
  obtain ⟨_, shortTurn, isLeft'⟩ := Outcome.bind_eq_done.mp shortDone
  obtain ⟨_, longTurn, isRight'⟩ := Outcome.bind_eq_done.mp longDone
  cases isLeft'
  cases isRight'
  have atCorner : (left.x, left.y) = lastCell := by
    rw [sameScreen.x, sameScreen.y, corner]
  exact rightIn.corner_differs atCorner corner shortTurn longTurn sameAgain.y

/-- Outputs that never differ avoid the last cell. -/
theorem InRows.avoids_of_same (inRows : console.InRows) {chars others : List Byte}
    (same : ∀ count ≤ chars.length + others.length, SameOutput
      (console.writeTurns (NUM_COLS < chars.length) (NUM_COLS < others.length) chars others count)
      (console.writeTurns true true chars others count)) :
    AvoidsLastCell (console.x, console.y) chars others := by
  refine ⟨fun short i inside => ?_, fun short i inside => ?_⟩
  · have isShort : decide (NUM_COLS < chars.length) = false := decide_eq_false (by omega)
    obtain ⟨after, written, afterIn, cursor⟩ := inRows.writeTurns_cursor chars others i
    have nothing : i - chars.length = 0 := by omega
    rw [nothing, List.take_zero, List.append_nil] at cursor
    rw [← cursor]
    have again := same (i + 1) (by omega)
    rw [writeTurns_first _ _ _ inside, writeTurns_first _ _ _ inside, isShort] at again
    have before := same i (by omega)
    rw [isShort] at before
    exact elsewhere_of_same before written afterIn again
  · have isShort : decide (NUM_COLS < others.length) = false := decide_eq_false (by omega)
    obtain ⟨after, written, afterIn, cursor⟩ :=
      inRows.writeTurns_cursor chars others (chars.length + i)
    rw [Nat.add_sub_cancel_left, List.take_of_length_le (by omega)] at cursor
    rw [← cursor]
    have again := same (chars.length + i + 1) (by omega)
    rw [writeTurns_second _ _ _ inside, writeTurns_second _ _ _ inside, isShort] at again
    have before := same (chars.length + i) (by omega)
    rw [isShort] at before
    exact elsewhere_of_same before written afterIn again

theorem InRows.turns_eq (inRows : console.InRows) {chars others : List Byte}
    (avoids : NUM_COLS < chars.length + others.length →
      AvoidsLastCell (console.x, console.y) chars others) (count : Nat) :
    console.writeTurns (NUM_COLS < chars.length) (NUM_COLS < others.length) chars others count =
      console.writeTurns (NUM_COLS < chars.length + others.length)
        (NUM_COLS < chars.length + others.length) chars others count := by
  by_cases isLong : NUM_COLS < chars.length + others.length
  · obtain ⟨avoidsFirst, avoidsSecond⟩ := avoids isLong
    rw [decide_eq_true isLong]
    refine inRows.writeTurns_long (fun short => avoidsFirst ?_) fun short => avoidsSecond ?_
    · have := of_decide_eq_false short
      omega
    · have := of_decide_eq_false short
      omega
  · have short : ¬ NUM_COLS < chars.length := by omega
    have shortSecond : ¬ NUM_COLS < others.length := by omega
    rw [decide_eq_false isLong, decide_eq_false short, decide_eq_false shortSecond]

end Console

/-- Any number of characters leaves the same screen and the same cursor in one
call and in two, if and only if no character comes to the last cell that only the
whole string treats as one of a long string. -/
theorem chunked_output_iff {first second whole : UserMemory} {chars others : List Byte}
    {console : Console} (visible : console.Visible) (holds : HoldsString first chars)
    (holdsSecond : HoldsString second others) (holdsWhole : HoldsString whole (chars ++ others)) :
    (∀ count ≤ chars.length + others.length,
        SameOutput (console.writeParts first second chars.length count)
          (console.write whole count)) ↔
      (NUM_COLS < chars.length + others.length →
        AvoidsLastCell (console.x, console.y) chars others) := by
  have inRows := visible.inRows
  have turns : ∀ count ≤ chars.length + others.length,
      (SameOutput (console.writeParts first second chars.length count)
          (console.write whole count) ↔
        SameOutput
          (console.writeTurns (NUM_COLS < chars.length) (NUM_COLS < others.length) chars others count)
          (console.writeTurns (NUM_COLS < chars.length + others.length)
            (NUM_COLS < chars.length + others.length) chars others count)) := by
    intro count inside
    rw [Console.writeParts_eq holds holdsSecond inside, Console.writeWhole_eq holdsWhole inside,
      sameOutput_reset]
  constructor
  · intro same isLong
    apply inRows.avoids_of_same
    intro count inside
    have sameTurns := (turns count inside).mp (same count inside)
    rwa [decide_eq_true isLong] at sameTurns
  · intro avoids count inside
    rw [turns count inside, inRows.turns_eq avoids count]
    obtain ⟨after, written⟩ := inRows.writeTurns_exists (NUM_COLS < chars.length + others.length)
      (NUM_COLS < chars.length + others.length) chars others count
    exact ⟨after, after, written, written, fun _ _ => rfl, rfl, rfl⟩

/-- User memory with a string at `buf`. -/
def memoryOf (chars : List Byte) : UserMemory := fun i => some (chars[i]?.getD 0)

theorem memoryOf_holds {chars : List Byte} (nulFree : 0 ∉ chars)
    (short : chars.length < 4294967296) : HoldsString (memoryOf chars) chars where
  measured := by
    refine strlen_eq_done.mpr ⟨short, fun j below => ⟨chars[j], ?_, ?_⟩, ?_⟩
    · rw [memoryOf, List.getElem?_eq_getElem below]
      rfl
    · exact fun isNul => nulFree (isNul ▸ List.getElem_mem below)
    · rw [memoryOf, List.getElem?_eq_none (Nat.le_refl _)]
      rfl
  bytes i below := by
    rw [memoryOf, List.getElem?_eq_getElem below]
    rfl

theorem chunked_output_iff_long :
    (∀ count ≤ [(97 : Byte)].length + (List.replicate 81 (98 : Byte)).length,
        SameOutput ((blankConsole 0 24).writeParts (memoryOf [97]) (memoryOf (List.replicate 81 98))
            [(97 : Byte)].length count)
          ((blankConsole 0 24).write (memoryOf ([97] ++ List.replicate 81 98)) count)) ↔
      (NUM_COLS < [(97 : Byte)].length + (List.replicate 81 (98 : Byte)).length →
        AvoidsLastCell ((blankConsole 0 24).x, (blankConsole 0 24).y) [97]
          (List.replicate 81 98)) :=
  have nulFree : (0 : Byte) ∉ List.replicate 81 98 := by simp
  chunked_output_iff ⟨by decide, by decide, by decide, by decide⟩
    (memoryOf_holds (by decide) (by decide)) (memoryOf_holds nulFree (by decide))
    (memoryOf_holds (by simp) (by decide))

/-- A letter at the last cell of the screen, and 81 more in the next call. -/
theorem chunked_output_differs :
    ¬ SameOutput ((blankConsole 79 24).writeParts (memoryOf [97]) (memoryOf (List.replicate 81 97))
        1 82)
      ((blankConsole 79 24).write (memoryOf ([97] ++ List.replicate 81 97)) (82 : Nat)) := by
  have letters : ∀ count, (0 : Byte) ∉ List.replicate count 97 := by
    intro count member
    exact absurd (List.eq_of_mem_replicate member) (by decide)
  have inRows : (blankConsole 79 24).InRows :=
    Console.Visible.inRows ⟨by decide, by decide, by decide, by decide⟩
  have first : HoldsString (memoryOf [97]) [97] := memoryOf_holds (letters 1) (by decide)
  have second := memoryOf_holds (letters 81) (by decide)
  have whole : HoldsString (memoryOf ([97] ++ List.replicate 81 97)) ([97] ++ List.replicate 81 97) :=
    memoryOf_holds (letters 82) (by decide)
  intro same
  have turns : SameOutput
      ((blankConsole 79 24).writeTurns false true [97] (List.replicate 81 97) 82)
      ((blankConsole 79 24).writeTurns true true [97] (List.replicate 81 97) 82) := by
    refine sameOutput_reset.mp ?_
    have parts : (blankConsole 79 24).writeParts (memoryOf [97]) (memoryOf (List.replicate 81 97))
        1 82 = _ := Console.writeParts_eq first second (by decide)
    rw [parts, Console.writeWhole_eq whole (by decide)] at same
    exact same
  obtain ⟨left, right, isLeft, isRight, sameScreen⟩ := turns
  obtain ⟨corner, cornerDone, cornerIn⟩ := inRows.writeChars_exists false [97]
  have cornerCursor : (corner.x, corner.y) = (1, 0) := by
    cases cornerDone
    rfl
  obtain ⟨after, written, _, cursor⟩ := cornerIn.writeChars_long (List.replicate 81 97)
  have isAfter : left = after := by
    have both : (blankConsole 79 24).writeTurns false true [97] (List.replicate 81 97) 82 =
        .done after := Outcome.bind_eq_done.mpr ⟨corner, cornerDone, written⟩
    exact Outcome.done.inj (isLeft.symm.trans both)
  obtain ⟨other, otherDone, _, otherCursor⟩ :=
    inRows.writeTurns_cursor [97] (List.replicate 81 97) 82
  cases isRight.symm.trans otherDone
  have rows : after.y = right.y := by
    rw [← isAfter]
    exact sameScreen.y
  have row : after.y = 1 := by
    rw [cornerCursor] at cursor
    exact congrArg Prod.snd (cursor.trans (by decide +kernel : _ = ((3 : Int), (1 : Int))))
  have otherRow : right.y = 24 :=
    congrArg Prod.snd (otherCursor.trans (by decide +kernel : _ = ((3 : Int), (24 : Int))))
  omega

end Ece391
