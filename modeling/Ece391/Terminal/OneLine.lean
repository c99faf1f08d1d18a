import Ece391.Terminal.Line
import Ece391.Terminal.ReadLength

namespace Ece391

open Library Kernel

/-! # One read of the terminal

`terminal_read` looks again and again whether the last character of the line
buffer is a newline; in between the keys come in.
-/

/-- Some characters and one newline, at the end. -/
def IsLine (line : List Byte) : Prop := ∃ text, line = text ++ [10] ∧ 10 ∉ text

/-- The key leaves a line with its newline as it is. -/
def LeavesLine (behind : BehindTables) (keys : Keyboard) (scancode : Byte) (line : List Byte) :
    Prop :=
  match keyAction behind keys scancode with
  | .type _ => line.length = NUM_CHARS
  | .backspace => False
  | .clear => False
  | _ => line.length = NUM_CHARS → behind.kbdusAt scancode ≠ 10

section Lines

variable {behind : BehindTables} {keys : Keyboard} {scancode : Byte} {line : List Byte}

theorem madeRoom_length (toPrint : Byte) (line : List Byte) :
    (madeRoom toPrint line).length ≤ line.length := by
  simp only [madeRoom]
  split
  · rw [List.length_dropLast]
    exact Nat.sub_le ..
  · exact Nat.le_refl _

theorem madeRoom_clean (toPrint : Byte) (clean : 10 ∉ line) : 10 ∉ madeRoom toPrint line := by
  simp only [madeRoom]
  split
  · exact fun member => clean (List.dropLast_subset line member)
  · exact clean

theorem editLine_length (action : KeyAction) (bounded : line.length ≤ NUM_CHARS) :
    (editLine action line).length ≤ NUM_CHARS := by
  cases action with
  | type char =>
      rw [editLine_type]
      split
      · rw [List.length_append, List.length_singleton]
        assumption
      · exact bounded
  | backspace =>
      rw [editLine_backspace, List.length_dropLast]
      omega
  | clear => exact Nat.zero_le _
  | nothing => exact bounded
  | switchTo term => exact bounded

theorem keyLine_length (bounded : line.length ≤ NUM_CHARS) :
    (keyLine behind keys scancode line).length ≤ NUM_CHARS :=
  editLine_length _ ((madeRoom_length _ line).trans bounded)

/-- The first Enter ends the line. -/
theorem keyLine_enter (bounded : line.length ≤ NUM_CHARS) (clean : 10 ∉ line)
    (shift : keys.shift = false) (ctrl : keys.ctrl = false) :
    IsLine (keyLine behind keys 0x1C line) := by
  have types : keyAction behind keys 0x1C = .type 10 := by
    rw [keyAction_enter, shift, ctrl]
    rfl
  have room : (madeRoom (behind.kbdusAt 0x1C) line).length < NUM_CHARS := by
    simp only [madeRoom]
    split
    · rename_i full
      rw [List.length_dropLast, full.1]
      decide
    · rename_i notFull
      have table : behind.kbdusAt 0x1C = 10 := rfl
      exact Nat.lt_of_le_of_ne bounded fun full => notFull ⟨full, table⟩
  refine ⟨_, ?_, madeRoom_clean (behind.kbdusAt 0x1C) clean⟩
  rw [keyLine, types]
  exact if_pos room

theorem keyLine_enter_eq (room : line.length < NUM_CHARS) (shift : keys.shift = false)
    (ctrl : keys.ctrl = false) : keyLine behind keys 0x1C line = line ++ [10] := by
  have types : keyAction behind keys 0x1C = .type 10 := by
    rw [keyAction_enter, shift, ctrl]
    rfl
  have notFull : madeRoom (behind.kbdusAt 0x1C) line = line :=
    if_neg fun both => Nat.ne_of_lt room both.1
  rw [keyLine, types, notFull]
  exact if_pos room

/-- No other key puts a newline into the line. -/
theorem keyLine_clean (clean : 10 ∉ line)
    (other : scancode = 0x1C → keys.shift = true ∨ keys.ctrl = true) :
    10 ∉ keyLine behind keys scancode line := by
  have room := madeRoom_clean (behind.kbdusAt scancode) clean
  simp only [keyLine]
  cases action : keyAction behind keys scancode with
  | nothing => exact room
  | switchTo term => exact room
  | clear => exact List.not_mem_nil
  | backspace => exact fun member => room (List.dropLast_subset _ member)
  | type char =>
      obtain ⟨pressed, _, isTyped, _⟩ := keyAction_type action
      have notNewline : char ≠ 10 := by
        rintro rfl
        have enter := enter_of_newline pressed isTyped.symm
        rw [enter, keyAction_enter, if_pos (other enter)] at action
        cases action
      rw [editLine_type]
      split
      · intro member
        rcases List.mem_append.mp member with earlier | last
        · exact room earlier
        · exact notNewline (List.mem_singleton.mp last).symm
      · exact room

theorem madeRoom_eq_iff {toPrint : Byte} (nonempty : 0 < line.length) :
    madeRoom toPrint line = line ↔ (line.length = NUM_CHARS → toPrint ≠ 10) := by
  simp only [madeRoom]
  split
  · rename_i full
    refine ⟨fun same => ?_, fun other => absurd full.2 (other full.1)⟩
    have length := congrArg List.length same
    rw [List.length_dropLast] at length
    omega
  · rename_i notBoth
    exact ⟨fun _ full newline => notBoth ⟨full, newline⟩, fun _ => rfl⟩

/-- A key that types leaves a full line: the Enter key puts its newline where it
took the last one away, and no other fits. -/
theorem keyLine_full {char : Byte} (isLine : IsLine line) (full : line.length = NUM_CHARS)
    (action : keyAction behind keys scancode = .type char) :
    keyLine behind keys scancode line = line := by
  rw [keyLine, action, editLine_type]
  by_cases newline : behind.kbdusAt scancode = 10
  · have enter := enter_of_table (lt_of_pressed (keyAction_type action).1) newline
    have isNewline : char = 10 := by
      rw [enter, keyAction_enter] at action
      split at action
      · cases action
      · cases action
        rfl
    have made : madeRoom (behind.kbdusAt scancode) line = line.dropLast :=
      if_pos ⟨full, newline⟩
    rw [made, isNewline, List.length_dropLast, full, if_pos (by decide)]
    obtain ⟨text, rfl, _⟩ := isLine
    rw [List.dropLast_concat]
  · have made : madeRoom (behind.kbdusAt scancode) line = line := if_neg fun both => newline both.2
    rw [made]
    exact if_neg (Nat.not_lt_of_le full.ge)

theorem keyLine_eq_iff (isLine : IsLine line) (bounded : line.length ≤ NUM_CHARS) :
    keyLine behind keys scancode line = line ↔ LeavesLine behind keys scancode line := by
  have shorter := madeRoom_length (behind.kbdusAt scancode) line
  have nonempty : 0 < line.length := by
    obtain ⟨text, rfl, _⟩ := isLine
    rw [List.length_append]
    exact Nat.succ_pos _
  unfold LeavesLine
  cases action : keyAction behind keys scancode with
  | nothing =>
      rw [keyLine, action]
      exact madeRoom_eq_iff nonempty
  | switchTo term =>
      rw [keyLine, action]
      exact madeRoom_eq_iff nonempty
  | clear =>
      refine ⟨fun same => ?_, False.elim⟩
      rw [keyLine, action] at same
      exact absurd (congrArg List.length same) (Nat.ne_of_lt nonempty)
  | backspace =>
      refine ⟨fun same => ?_, False.elim⟩
      rw [keyLine, action] at same
      have length := congrArg List.length same
      rw [editLine_backspace, List.length_dropLast] at length
      omega
  | type char =>
      refine ⟨fun same => ?_, fun full => keyLine_full isLine full action⟩
      by_contra notFull
      have room : line.length < NUM_CHARS := Nat.lt_of_le_of_ne bounded notFull
      rw [keyLine, action, (madeRoom_eq_iff nonempty).mpr fun full => absurd full notFull,
        editLine_type, if_pos room] at same
      have length := congrArg List.length same
      rw [List.length_append, List.length_singleton] at length
      omega

end Lines

/-- A call of `terminal_read` on `reader` with the line at the first Enter that
came, and the bytes it has delivered if it has returned. -/
structure Reading where
  driver : TerminalDriver
  reader : TerminalId
  first : Option (List Byte)
  delivered : Option (List Byte)

/-- A step of the driver, or one evaluation of the condition of the loop. -/
inductive ReadInput where
  | input (input : ConsoleInput)
  | poll

def ConsoleInput.scancode : ConsoleInput → Option Byte
  | .key scancode _ _ _ _ => some scancode
  | _ => none

namespace Reading

variable (image : Image) (behind : BehindTables)

/-- While the reader is shown only keys come in, for it runs and is in its loop;
while another terminal is shown anything may happen there. -/
def step (reading : Reading) : ReadInput → Option Reading
  | .input input =>
      if reading.delivered ≠ none then none
      else if reading.driver.kernel.oldTerminal = reading.reader then
        match input.scancode with
        | none => none
        | some scancode =>
            (reading.driver.step image behind input).map fun driver =>
              { reading with
                driver
                first :=
                  if reading.first = none ∧ scancode = 0x1C then
                    some (driver.kernel.lineOf reading.reader)
                  else reading.first }
      else (reading.driver.step image behind input).map fun driver => { reading with driver }
  | .poll =>
      if reading.delivered = none ∧ reading.driver.kernel.oldTerminal = reading.reader then
        if Kernel.LineEntered (reading.driver.kernel.terminals reading.reader) then
          (reading.driver.kernel.takeLine fun _ => 0).toOption.map fun result =>
            { reading with
              driver := { reading.driver with kernel := result.2.2 }
              delivered := some ((List.range result.1.toNat).map result.2.1) }
        else some reading
      else none

/-- A read that starts, with the line buffer just emptied. -/
def start (driver : TerminalDriver) : Reading := ⟨driver, driver.kernel.oldTerminal, none, none⟩

def StartsShells (reading : Reading) : ReadInput → Prop
  | .input input => reading.driver.StartsShells image behind input
  | .poll => True

/-- Before the first Enter, that key is pressed with neither shift nor ctrl held;
behind it, no key changes the line. -/
def KeepsOneLine (reading : Reading) : ReadInput → Prop
  | .input input =>
      reading.driver.kernel.oldTerminal = reading.reader → ∀ scancode, input.scancode = some scancode →
        if reading.first = none then
          scancode = 0x1C →
            reading.driver.keyboard.shift = false ∧ reading.driver.keyboard.ctrl = false
        else LeavesLine behind reading.driver.keyboard scancode
          (reading.driver.kernel.lineOf reading.reader)
  | .poll => True

end Reading

def readSystem (image : Image) (behind : BehindTables) : Transitions Reading ReadInput :=
  ⟨Reading.step image behind⟩

/-- The first Enter ends a line, which stays as it is until it is delivered, and
nothing else is delivered. -/
structure ReadsOneLine (reading : Reading) : Prop where
  ended : ∀ line, reading.first = some line → IsLine line ∧
    (reading.delivered = none → reading.driver.kernel.lineOf reading.reader = line)
  returned : ∀ bytes, reading.delivered = some bytes → reading.first = some bytes

/-- The state of a read: up to the first Enter there is no newline in the line. -/
structure Awaits (reading : Reading) : Prop extends ReadsOneLine reading where
  attended : ∃ processes, Attended reading.driver.kernel processes
  bounded : reading.delivered = none →
    (reading.driver.kernel.lineOf reading.reader).length ≤ NUM_CHARS
  clean : reading.first = none → reading.delivered = none ∧
    10 ∉ reading.driver.kernel.lineOf reading.reader

variable {image : Image} {behind : BehindTables} {reading next : Reading} {input : ConsoleInput}
  {kernel after : Kernel} {processes : Forest TerminalId Nat}

theorem lineEntered_newline {term : TerminalId} (entered : LineEntered (kernel.terminals term)) :
    10 ∈ kernel.lineOf term := by
  obtain ⟨nonempty, newline⟩ := entered
  refine List.mem_map.mpr ⟨(kernel.terminals term).bufferI - 1, ?_, newline⟩
  exact List.mem_range.mpr (Nat.sub_one_lt nonempty)

theorem lineEntered_of_newline {term : TerminalId} {text : List Byte}
    (same : kernel.lineOf term = text ++ [10]) : LineEntered (kernel.terminals term) := by
  have length : (kernel.terminals term).bufferI = text.length + 1 := by
    have counted := congrArg List.length same
    rw [List.length_append, List.length_singleton] at counted
    exact Console.line_length.symm.trans counted
  have inside : text.length < (kernel.consoleOf term).bufferI :=
    (Nat.lt_succ_self _).trans_eq length.symm
  have last : (kernel.lineOf term)[text.length]? = (text ++ [10])[text.length]? := by rw [same]
  rw [List.getElem?_concat_length, lineOf, Console.line, List.getElem?_map,
    List.getElem?_range inside] at last
  refine ⟨by omega, ?_⟩
  rw [length, Nat.add_sub_cancel]
  exact Option.some.inj last

/-- What is delivered is the line. -/
theorem takeLine_delivers {value : Int} {buf result : Nat → Byte}
    (attended : Attended kernel processes)
    (taken : kernel.takeLine buf = .done (value, result, after)) :
    (List.range value.toNat).map result = kernel.lineOf kernel.oldTerminal := by
  obtain ⟨_, reads, _⟩ := attended.takeLine taken
  obtain ⟨rfl, rest⟩ := Prod.mk.inj reads
  obtain ⟨rfl, _⟩ := Prod.mk.inj rest
  rw [Int.toNat_natCast]
  refine List.map_congr_left fun i member => ?_
  exact if_pos (List.mem_range.mp member)

/-- A key that comes while the reader is shown. -/
structure TakesKey (behind : BehindTables) (scancode : Byte) (reading next : Reading) : Prop where
  undelivered : reading.delivered = none
  waits : next.delivered = none
  reader : next.reader = reading.reader
  first : next.first = if reading.first = none ∧ scancode = 0x1C then
    some (next.driver.kernel.lineOf reading.reader) else reading.first
  line : next.driver.kernel.lineOf reading.reader = keyLine behind reading.driver.keyboard scancode
    (reading.driver.kernel.lineOf reading.reader)
  attended : ∃ grown, Attended next.driver.kernel grown

theorem Awaits.key (awaits : Awaits reading)
    (starts : reading.driver.StartsShells image behind input)
    (shown : reading.driver.kernel.oldTerminal = reading.reader)
    (stepped : reading.step image behind (.input input) = some next) :
    ∃ scancode, input.scancode = some scancode ∧ TakesKey behind scancode reading next := by
  obtain ⟨processes, attended⟩ := awaits.attended
  simp only [Reading.step, if_pos shown] at stepped
  split at stepped
  · cases stepped
  rename_i notDone
  have undelivered : reading.delivered = none := not_not.mp notDone
  cases input with
  | key scancode irq frame tlb cached =>
      obtain ⟨driver, driverStepped, rfl⟩ := Option.map_eq_some_iff.mp stepped
      obtain ⟨asked, console, drives, line, _⟩ := driver_step_lineOf attended starts driverStepped
      have typed := Console.terminalKeyPressed_line behind reading.driver.keyboard scancode _ drives
      rw [shown] at line
      refine ⟨scancode, rfl, undelivered, undelivered, rfl, rfl, line.trans ?_,
        driver_step_attended attended starts driverStepped⟩
      rw [typed, ← shown]
      rfl
  | _ => cases stepped

theorem TakesKey.bounded {scancode : Byte} (takes : TakesKey behind scancode reading next)
    (awaits : Awaits reading) : (next.driver.kernel.lineOf next.reader).length ≤ NUM_CHARS := by
  rw [takes.reader, takes.line]
  exact keyLine_length (awaits.bounded takes.undelivered)

theorem TakesKey.returned {scancode : Byte} (takes : TakesKey behind scancode reading next)
    (bytes : List Byte) (delivered : next.delivered = some bytes) : next.first = some bytes := by
  rw [takes.waits] at delivered
  cases delivered

/-- The first Enter, which starts the line that is delivered. -/
theorem Awaits.enter (awaits : Awaits reading) (takes : TakesKey behind 0x1C reading next)
    (fresh : reading.first = none) (shift : reading.driver.keyboard.shift = false)
    (ctrl : reading.driver.keyboard.ctrl = false) : Awaits next := by
  have first := takes.first
  rw [if_pos ⟨fresh, rfl⟩] at first
  have isLine : IsLine (next.driver.kernel.lineOf reading.reader) := by
    rw [takes.line]
    exact keyLine_enter (awaits.bounded takes.undelivered) (awaits.clean fresh).2 shift ctrl
  refine ⟨⟨fun other isOther => ?_, takes.returned⟩, takes.attended,
    fun _ => takes.bounded awaits, fun nothing => ?_⟩
  · cases first.symm.trans isOther
    rw [takes.reader]
    exact ⟨isLine, fun _ => rfl⟩
  · rw [first] at nothing
    cases nothing

/-- Any other key before the first Enter. -/
theorem Awaits.edit {scancode : Byte} (awaits : Awaits reading)
    (takes : TakesKey behind scancode reading next) (fresh : reading.first = none)
    (other : scancode ≠ 0x1C) : Awaits next := by
  have first := takes.first
  rw [if_neg fun both => other both.2] at first
  have clean : 10 ∉ next.driver.kernel.lineOf next.reader := by
    rw [takes.reader, takes.line]
    exact keyLine_clean (awaits.clean fresh).2 fun isEnter => absurd isEnter other
  refine ⟨⟨fun line isFirst => ?_, takes.returned⟩, takes.attended,
    fun _ => takes.bounded awaits, fun _ => ⟨takes.waits, clean⟩⟩
  rw [first, fresh] at isFirst
  cases isFirst

/-- A key behind the first Enter that leaves the line. -/
theorem Awaits.leave {scancode : Byte} (awaits : Awaits reading)
    (takes : TakesKey behind scancode reading next) (started : reading.first ≠ none)
    (leaves : LeavesLine behind reading.driver.keyboard scancode
      (reading.driver.kernel.lineOf reading.reader)) : Awaits next := by
  have first := takes.first
  rw [if_neg fun both => started both.1] at first
  obtain ⟨ended, isFirst⟩ := Option.ne_none_iff_exists'.mp started
  obtain ⟨isLine, same⟩ := awaits.ended ended isFirst
  have bounded := awaits.bounded takes.undelivered
  have line := takes.line
  rw [same takes.undelivered] at leaves line bounded
  have unchanged := line.trans ((keyLine_eq_iff isLine bounded).mpr leaves)
  refine ⟨⟨fun other isOther => ?_, takes.returned⟩, takes.attended,
    fun _ => takes.bounded awaits, fun nothing => ?_⟩
  · cases isFirst.symm.trans (first.symm.trans isOther)
    rw [takes.reader]
    exact ⟨isLine, fun _ => unchanged⟩
  · exact absurd (first.symm.trans nothing) started

/-- A step while another terminal is shown. -/
theorem Awaits.elsewhere (awaits : Awaits reading)
    (starts : reading.driver.StartsShells image behind input)
    (hidden : reading.driver.kernel.oldTerminal ≠ reading.reader)
    (stepped : reading.step image behind (.input input) = some next) :
    reading.delivered = none ∧ next.delivered = none ∧ next.reader = reading.reader ∧
      next.first = reading.first ∧ next.driver.kernel.lineOf reading.reader =
        reading.driver.kernel.lineOf reading.reader ∧
      ∃ grown, Attended next.driver.kernel grown := by
  obtain ⟨processes, attended⟩ := awaits.attended
  simp only [Reading.step, if_neg hidden] at stepped
  split at stepped
  · cases stepped
  rename_i notDone
  have undelivered : reading.delivered = none := not_not.mp notDone
  obtain ⟨driver, driverStepped, rfl⟩ := Option.map_eq_some_iff.mp stepped
  obtain ⟨_, _, _, _, others⟩ := driver_step_lineOf attended starts driverStepped
  exact ⟨undelivered, undelivered, rfl, rfl, others _ hidden.symm,
    driver_step_attended attended starts driverStepped⟩

theorem Awaits.poll (awaits : Awaits reading)
    (stepped : reading.step image behind .poll = some next) : Awaits next := by
  obtain ⟨processes, attended⟩ := awaits.attended
  unfold Reading.step at stepped
  dsimp only at stepped
  split at stepped
  · rename_i waits
    split at stepped
    · rename_i entered
      obtain ⟨⟨value, result, kernel⟩, taking, rfl⟩ := Option.map_eq_some_iff.mp stepped
      have taken := Outcome.toOption_eq_some.mp taking
      have delivers := takeLine_delivers attended taken
      obtain ⟨_, _, draws⟩ := attended.takeLine taken
      have started : reading.first ≠ none :=
        fun nothing => (awaits.clean nothing).2 (lineEntered_newline entered)
      obtain ⟨line, isFirst⟩ := Option.ne_none_iff_exists'.mp started
      obtain ⟨isLine, same⟩ := awaits.ended line isFirst
      rw [waits.2, same waits.1] at delivers
      refine ⟨⟨fun other isOther => ?_, fun bytes isDelivered => ?_⟩, ⟨_, attended.draws draws⟩,
        nofun, fun nothing => absurd nothing started⟩
      · cases isFirst.symm.trans isOther
        exact ⟨isLine, nofun⟩
      · cases isDelivered
        rw [delivers]
        exact isFirst
    · cases stepped
      exact awaits
  · cases stepped

/-- An allowed step keeps the invariant of the read. -/
theorem Awaits.step {rinput : ReadInput} (awaits : Awaits reading)
    (starts : reading.StartsShells image behind rinput)
    (keeps : reading.KeepsOneLine behind rinput)
    (stepped : reading.step image behind rinput = some next) : Awaits next := by
  cases rinput with
  | poll => exact awaits.poll stepped
  | input input =>
      by_cases shown : reading.driver.kernel.oldTerminal = reading.reader
      · obtain ⟨scancode, isKey, takes⟩ := awaits.key starts shown stepped
        have keepsHere := keeps shown scancode isKey
        by_cases fresh : reading.first = none
        · rw [if_pos fresh] at keepsHere
          by_cases enter : scancode = 0x1C
          · subst enter
            obtain ⟨shift, ctrl⟩ := keepsHere rfl
            exact awaits.enter takes fresh shift ctrl
          · exact awaits.edit takes fresh enter
        · rw [if_neg fresh] at keepsHere
          exact awaits.leave takes fresh keepsHere
      · obtain ⟨undelivered, waits, reader, first, line, grown⟩ :=
          awaits.elsewhere starts shown stepped
        have delivered : next.delivered = reading.delivered := waits.trans undelivered.symm
        refine ⟨⟨?_, ?_⟩, grown, ?_, ?_⟩
        · rw [first, reader, line, delivered]
          exact awaits.ended
        · rw [delivered, first]
          exact awaits.returned
        · rw [delivered, reader, line]
          exact awaits.bounded
        · rw [delivered, first, reader, line]
          exact awaits.clean

/-- Any other step loses the line. -/
theorem Awaits.breaks {rinput : ReadInput} (awaits : Awaits reading)
    (starts : reading.StartsShells image behind rinput)
    (breaks : ¬ reading.KeepsOneLine behind rinput)
    (stepped : reading.step image behind rinput = some next) : ¬ ReadsOneLine next := by
  intro reads
  cases rinput with
  | poll => exact breaks trivial
  | input input =>
      refine breaks fun shown scancode isKey => ?_
      obtain ⟨other, isOther, takes⟩ := awaits.key starts shown stepped
      cases isKey.symm.trans isOther
      have first := takes.first
      split
      · rename_i fresh
        intro enter
        rw [if_pos ⟨fresh, enter⟩] at first
        by_contra held
        have modified : reading.driver.keyboard.shift = true ∨
            reading.driver.keyboard.ctrl = true := by
          cases shift : reading.driver.keyboard.shift with
          | true => exact .inl rfl
          | false =>
              cases ctrl : reading.driver.keyboard.ctrl with
              | true => exact .inr rfl
              | false => exact absurd ⟨shift, ctrl⟩ held
        obtain ⟨text, same, _⟩ := (reads.ended _ first).1
        have clean : 10 ∉ next.driver.kernel.lineOf reading.reader := by
          rw [takes.line]
          exact keyLine_clean (awaits.clean fresh).2 fun _ => modified
        rw [same] at clean
        exact clean (List.mem_append_right _ (List.mem_singleton_self 10))
      · rename_i started
        obtain ⟨ended, isFirst⟩ := Option.ne_none_iff_exists'.mp started
        rw [if_neg fun both => started both.1] at first
        obtain ⟨isLine, same⟩ := awaits.ended ended isFirst
        have kept := (reads.ended ended (first.trans isFirst)).2 takes.waits
        rw [takes.reader] at kept
        have line := takes.line
        have bounded := awaits.bounded takes.undelivered
        rw [same takes.undelivered] at line bounded ⊢
        exact (keyLine_eq_iff isLine bounded).mp (line.symm.trans kept)

theorem start_awaits {driver waiting : TerminalDriver}
    (attended : Attended driver.kernel processes)
    (started : driver.step image behind .awaitLine = some waiting) :
    Awaits (.start waiting) := by
  obtain ⟨kernel, awaiting, rfl⟩ := Option.map_eq_some_iff.mp started
  have draws := attended.awaitLine (Outcome.toOption_eq_some.mp awaiting)
  have empty : kernel.lineOf kernel.oldTerminal = [] := congrArg Console.line draws.shown
  refine ⟨⟨nofun, nofun⟩, ⟨processes, attended.draws draws⟩, fun _ => ?_, fun _ => ⟨rfl, ?_⟩⟩
  · exact (congrArg List.length empty).trans_le (Nat.zero_le _)
  · exact fun member => List.not_mem_nil (empty ▸ member)

/-- However the keys fall between the looks at the line buffer, the read returns
the one line that the first Enter ended, exactly when that Enter is typed without
modifiers and no key changes the line from then on. -/
theorem read_returns_one_line_iff {image : Image} {behind : BehindTables} {first : Kernel}
    {keyboard : Keyboard} {before : List ConsoleInput} {driver waiting : TerminalDriver}
    {inputs : List ReadInput} {final : Reading} (started : FirstShell image first)
    (starts : (consoleSystem image behind).Respects (TerminalDriver.StartsShells image behind)
      ⟨first, keyboard⟩ before)
    (reached : (consoleSystem image behind).run ⟨first, keyboard⟩ before = some driver)
    (entered : driver.step image behind .awaitLine = some waiting)
    (startsReading : (readSystem image behind).Respects (Reading.StartsShells image behind)
      (.start waiting) inputs)
    (ran : (readSystem image behind).run (.start waiting) inputs = some final) :
    (readSystem image behind).Always ReadsOneLine (.start waiting) inputs ↔
      (readSystem image behind).Respects (Reading.KeepsOneLine behind) (.start waiting) inputs := by
  obtain ⟨processes, attended⟩ := run_attended started starts reached
  have preserved : ∀ (reading : Reading) (rinput : ReadInput) (next : Reading), Awaits reading →
      reading.StartsShells image behind rinput → reading.KeepsOneLine behind rinput →
      (readSystem image behind).step reading rinput = some next → Awaits next :=
    fun reading rinput next awaits starts keeps stepped => awaits.step starts keeps stepped
  have broken : ∀ (reading : Reading) (rinput : ReadInput) (next : Reading), Awaits reading →
      reading.StartsShells image behind rinput → ¬ reading.KeepsOneLine behind rinput →
      (readSystem image behind).step reading rinput = some next → ¬ ReadsOneLine next :=
    fun reading rinput next awaits starts breaks stepped => awaits.breaks starts breaks stepped
  exact Transitions.always_iff_respects_of preserved (fun reading awaits => awaits.toReadsOneLine)
    broken (start_awaits attended entered) startsReading ran

/-- Enter is handled at once, and the modifiers stay. -/
theorem enter_handled {keys : Keyboard} (shift : keys.shift = false) (ctrl : keys.ctrl = false)
    (console : Console) :
    ∃ checkEnter final, console.terminalKeyPressed behind keys 0x1C =
      .done (none, { keys with checkEnter }, final) := by
  have types : keyAction behind keys 0x1C = .type 10 := by
    rw [keyAction_enter, shift, ctrl]
    rfl
  have held : keyModifiers keys 0x1C = keys := rfl
  obtain ⟨echoed, echoes⟩ : ∃ echoed,
      (console.makeRoom (behind.kbdusAt 0x1C)).keyEcho 10 = .done echoed := by
    simp only [Console.keyEcho, Console.echoChar]
    rw [if_neg (not_not_intro rfl)]
    split
    · split
      · exact ⟨_, rfl⟩
      · exact ⟨_, rfl⟩
    · exact ⟨_, rfl⟩
  refine ⟨echoed.1, echoed.2.keyWrap echoed.1, ?_⟩
  rw [Console.terminalKeyPressed_eq, types, held]
  dsimp only
  rw [echoes]
  rfl

theorem enter_starts (driver : TerminalDriver) :
    driver.StartsShells image behind enterPressed := by
  intro term handled handling
  obtain ⟨⟨asked, keyboard, console⟩, pressed, returned⟩ := Outcome.bind_eq_done.mp handling
  cases returned
  obtain ⟨_, selects, _⟩ := Console.terminalKeyPressed_asks pressed
  have noSwitch : ∀ keys : Keyboard, switchKey keys 0x1C = none := by
    intro keys
    simp only [switchKey]
    split
    · rfl
    · rfl
  rw [noSwitch] at selects
  cases selects

theorem enter_step {driver : TerminalDriver} (attended : Attended driver.kernel processes)
    (shift : driver.keyboard.shift = false) (ctrl : driver.keyboard.ctrl = false) :
    ∃ next : TerminalDriver, driver.step image behind enterPressed = some next ∧
      Attended next.kernel processes ∧ next.keyboard.shift = false ∧
      next.keyboard.ctrl = false ∧ next.kernel.oldTerminal = driver.kernel.oldTerminal ∧
      next.kernel.cr3 = driver.kernel.cr3 ∧
      next.kernel.lineOf driver.kernel.oldTerminal = keyLine behind driver.keyboard 0x1C
        (driver.kernel.lineOf driver.kernel.oldTerminal) := by
  obtain ⟨checkEnter, final, pressed⟩ : ∃ checkEnter final,
      driver.kernel.shownConsole.terminalKeyPressed behind driver.keyboard 0x1C =
        .done (none, { driver.keyboard with checkEnter }, final) := enter_handled shift ctrl _
  have line := Console.terminalKeyPressed_line behind driver.keyboard 0x1C _ pressed
  obtain ⟨drawn, _, stepped, draws⟩ :
      ∃ drawn, TerminalDriver.keyHandled behind 0x1C zeroedIrq (fun _ => false) driver =
          .done (none, ⟨drawn, { driver.keyboard with checkEnter }⟩) ∧
        (consoleSystem image behind).step driver enterPressed =
          some ⟨drawn, { driver.keyboard with checkEnter }⟩ ∧ Draws driver.kernel final drawn :=
    keyDraws_step image zeroedFrame cachedEverywhere _ attended pressed
  refine ⟨_, stepped, attended.draws draws, shift, ctrl, draws.oldTerminal, draws.cr3, ?_⟩
  have shows : drawn.lineOf driver.kernel.oldTerminal = final.line := by
    rw [← draws.oldTerminal]
    exact congrArg Console.line draws.shown
  exact shows.trans line

theorem enter_reads {reading : Reading} {driver : TerminalDriver}
    (undelivered : reading.delivered = none)
    (shown : reading.driver.kernel.oldTerminal = reading.reader)
    (stepped : reading.driver.step image behind enterPressed = some driver) :
    ∃ first, reading.step image behind (.input enterPressed) =
      some ⟨driver, reading.reader, first, none⟩ := by
  refine ⟨if reading.first = none ∧ (0x1C : Byte) = 0x1C then
    some (driver.kernel.lineOf reading.reader) else reading.first, ?_⟩
  have mapped : reading.step image behind (.input enterPressed) =
      (reading.driver.step image behind enterPressed).map fun driver =>
        { reading with
          driver
          first :=
            if reading.first = none ∧ (0x1C : Byte) = 0x1C then
              some (driver.kernel.lineOf reading.reader)
            else reading.first } :=
    (if_neg (not_not_intro undelivered)).trans (if_pos shown)
  rw [mapped, stepped, Option.map_some, undelivered]

/-- Two Enters between two looks at the line buffer. -/
theorem two_enters_read :
    ∃ start waiting final, FirstShell shellImage start ∧
      TerminalDriver.step shellImage zeroedTables ⟨start, noModifiers⟩ .awaitLine = some waiting ∧
      (readSystem shellImage zeroedTables).Respects (Reading.StartsShells shellImage zeroedTables)
        (.start waiting) [.input enterPressed, .input enterPressed, .poll] ∧
      (readSystem shellImage zeroedTables).run (.start waiting)
        [.input enterPressed, .input enterPressed, .poll] = some final ∧
      final.delivered = some [10, 10] := by
  obtain ⟨start, started, launched⟩ := firstShell_exists shellImage_valid zeroedMemory zeroedFrame
  obtain ⟨processes, attended⟩ := started.attended
  obtain ⟨kernel, awaits⟩ : ∃ kernel, start.awaitLine = .done kernel :=
    ⟨_, attended.awaits launched.cr3⟩
  have draws := attended.awaitLine awaits
  have empty : kernel.lineOf kernel.oldTerminal = [] := congrArg Console.line draws.shown
  have waits : TerminalDriver.step shellImage zeroedTables ⟨start, noModifiers⟩ .awaitLine =
      some ⟨kernel, noModifiers⟩ := by
    simp only [TerminalDriver.step, awaits, Outcome.toOption_done, Option.map_some]
  obtain ⟨first, firstStep, firstAttended, shift, ctrl, firstShown, firstCr3, firstLine⟩ :
      ∃ next : TerminalDriver, TerminalDriver.step shellImage zeroedTables ⟨kernel, noModifiers⟩
          enterPressed = some next ∧ _ := enter_step (attended.draws draws) rfl rfl
  obtain ⟨second, secondStep, secondAttended, _, _, secondShown, secondCr3, secondLine⟩ :
      ∃ next : TerminalDriver, first.step shellImage zeroedTables enterPressed = some next ∧ _ :=
    enter_step firstAttended shift ctrl
  dsimp only at firstLine firstShown firstCr3
  rw [empty, keyLine_enter_eq (by decide) rfl rfl, List.nil_append] at firstLine
  rw [firstShown, firstLine, keyLine_enter_eq (by decide) shift ctrl] at secondLine
  rw [firstShown] at secondShown
  have entered : LineEntered (second.kernel.terminals second.kernel.oldTerminal) := by
    rw [secondShown]
    exact lineEntered_of_newline secondLine
  have current : findProgramid second.kernel.cr3 = .done 1 := by
    rw [secondCr3, firstCr3, draws.cr3]
    exact launched.cr3
  obtain ⟨result, after, taken⟩ := secondAttended.takesLine current entered fun _ => 0
  have delivers := takeLine_delivers secondAttended taken
  rw [secondShown, secondLine] at delivers
  obtain ⟨firstEnter, readsFirst⟩ : ∃ line,
      (Reading.start ⟨kernel, noModifiers⟩).step shellImage zeroedTables (.input enterPressed) =
        some ⟨first, kernel.oldTerminal, line, none⟩ := enter_reads rfl rfl firstStep
  obtain ⟨line, readsSecond⟩ : ∃ line,
      Reading.step shellImage zeroedTables ⟨first, kernel.oldTerminal, firstEnter, none⟩
        (.input enterPressed) = some ⟨second, kernel.oldTerminal, line, none⟩ :=
    enter_reads rfl firstShown secondStep
  refine ⟨start, _, ⟨⟨after, second.keyboard⟩, kernel.oldTerminal, line, some [10, 10]⟩, started,
    waits, ?_, ?_, rfl⟩
  · refine Transitions.respects_of_forall _ fun rinput member reading => ?_
    simp only [List.mem_cons, List.not_mem_nil, or_false] at member
    rcases member with rfl | rfl | rfl
    · exact enter_starts reading.driver
    · exact enter_starts reading.driver
    · trivial
  · refine Transitions.run_cons.mpr ⟨_, readsFirst, Transitions.run_cons.mpr ⟨_, readsSecond, ?_⟩⟩
    refine Transitions.run_singleton.trans ?_
    rw [secondShown] at entered
    simp only [readSystem, Reading.step, secondShown, entered, taken, and_self, if_true,
      Outcome.toOption_done, Option.map_some]
    rw [delivers]
    rfl

theorem read_returns_one_line_iff_enter_twice :
    ∃ start waiting, FirstShell shellImage start ∧
      ((readSystem shellImage zeroedTables).Always ReadsOneLine (.start waiting)
          [.input enterPressed, .input enterPressed, .poll] ↔
        (readSystem shellImage zeroedTables).Respects (Reading.KeepsOneLine zeroedTables)
          (.start waiting) [.input enterPressed, .input enterPressed, .poll]) := by
  obtain ⟨start, waiting, final, started, waits, starts, ran, _⟩ := two_enters_read
  have reached : (consoleSystem shellImage zeroedTables).run ⟨start, noModifiers⟩ [] =
      some ⟨start, noModifiers⟩ := rfl
  have nothing : (consoleSystem shellImage zeroedTables).Respects
      (TerminalDriver.StartsShells shellImage zeroedTables) ⟨start, noModifiers⟩ [] := trivial
  exact ⟨start, waiting, started,
    read_returns_one_line_iff started nothing reached waits starts ran⟩

theorem second_newline_delivered :
    ∃ start waiting final, FirstShell shellImage start ∧
      TerminalDriver.step shellImage zeroedTables ⟨start, noModifiers⟩ .awaitLine = some waiting ∧
      (readSystem shellImage zeroedTables).run (.start waiting)
        [.input enterPressed, .input enterPressed, .poll] = some final ∧
      final.delivered = some [10, 10] ∧
      ¬ (readSystem shellImage zeroedTables).Always ReadsOneLine (.start waiting)
        [.input enterPressed, .input enterPressed, .poll] := by
  obtain ⟨start, waiting, final, started, waits, _, ran, delivered⟩ := two_enters_read
  refine ⟨start, waiting, final, started, waits, ran, delivered, fun always => ?_⟩
  have reads := always.last ran
  obtain ⟨⟨text, same, clean⟩, _⟩ := reads.ended _ (reads.returned _ delivered)
  obtain ⟨rfl, _⟩ := List.append_inj' (show [10] ++ [10] = text ++ [10] from same) rfl
  exact clean (List.mem_singleton_self 10)

end Ece391
