import Ece391.Terminal.Switching

namespace Ece391

open Library Kernel

/-! # Steps of the kernel with its keyboard

A step draws on the console that is shown, as a function of this console alone,
and then takes at most one step of the kernel.
-/

variable {image : Image} {behind : BehindTables} {driver next : TerminalDriver}
  {processes : Forest TerminalId Nat} {input : ConsoleInput}

namespace Console

/-- What an input does to the console that is shown. -/
def drive (behind : BehindTables) (keyboard : Keyboard) (console : Console) :
    ConsoleInput → Outcome (Option Int × Keyboard × Console)
  | .call _ => .done (none, keyboard, console)
  | .key scancode _ _ _ _ => console.terminalKeyPressed behind keyboard scancode
  | .write buf nbytes _ => do
      let (_, console) ← console.terminalWrite buf nbytes
      let _ ← strlen buf
      return (none, keyboard, { console with bufferI := 0 })
  | .puts text _ => do
      let console ← console.puts text
      return (none, keyboard, console)
  | .awaitLine => .done (none, keyboard, { console with bufferI := 0 })
  | .takeLine =>
      if console.bufferI ≠ 0 ∧ console.lineBuffer (console.bufferI - 1) = 10 then
        .done (none, keyboard, { console with bufferI := 0 })
      else .spins
  | .store bytes _ => .done (none, keyboard, { console with
      cells := fun offset =>
        if offset < MEM_4KB ∧ bytes offset ≠ none then (bytes offset).getD 0
        else console.cells offset })

end Console

/-- The step of the kernel that follows when `term` is the terminal to show. -/
def ConsoleInput.follow (term : Option Int) : ConsoleInput → Option Event
  | .call event => some event
  | .key _ irq frame tlb _ => term.map fun term => .terminalSwitch term irq frame tlb
  | _ => none

/-- The kernel after the drawing and the step that may follow it. -/
def Follows (image : Image) (drawn : Kernel) (event : Option Event) (after : Kernel) : Prop :=
  match event with
  | none => after = drawn
  | some event => drawn.step image event = some after ∧ ShellStarts image drawn event

namespace Kernel

variable {kernel after : Kernel}

theorem Draws.refl (kernel : Kernel) : Draws kernel kernel.shownConsole kernel :=
  ⟨rfl, rfl, rfl, rfl, rfl, rfl, rfl, rfl, fun _ => rfl, fun _ => rfl, fun _ => Iff.rfl, rfl,
    fun _ _ => rfl⟩

theorem terminalAt_index (term : TerminalId) : terminalAt (term : Nat) = some term := by
  revert term
  decide

theorem resetLine_shown (kernel : Kernel) :
    kernel.resetLine (kernel.oldTerminal : Nat) = .done (kernel.setTerminal kernel.oldTerminal
      { kernel.terminals kernel.oldTerminal with bufferI := 0 }) := by
  rw [resetLine, terminalAt_index]

theorem writes_to_stdout {pcb : Pcb} (isOpen : (pcb.fd 1).flags ≠ 0) :
    ¬ ((1 : Int) < 0 ∨ (1 : Int) > 7 ∨ (1 : Int) = 0 ∨ (pcb.fd (1 : Int).toNat).flags = 0) := by
  intro refused
  rcases refused with negative | beyond | zero | free
  · omega
  · omega
  · omega
  · exact isOpen free

/-- `write` to descriptor 1 returns when the terminal driver does. -/
theorem Attended.writes {buf : UserMemory} {nbytes : Int} {printed : List Byte} {console : Console}
    {length : Nat} (attended : Attended kernel processes) (cached : Nat → Bool)
    (writes : kernel.shownConsole.terminalWrite buf nbytes = .done (printed, console))
    (measured : strlen buf = .done length) :
    ∃ after, kernel.sysWrite cached 1 buf nbytes = .done (int32 length, printed, after) := by
  obtain ⟨cur, current⟩ := attended.running
  obtain ⟨isOpen, isTerminal⟩ := attended.stdoutOfCurrent current
  have driverIs : ((kernel.pcb cur).fd (1 : Int).toNat).sysopsPtr = .terminalOps := isTerminal
  have drawn := setConsole_draws attended.onScreen cached console
  obtain ⟨reset, resets⟩ : ∃ reset,
      (kernel.setConsole cached console).resetLine (kernel.oldTerminal : Nat) = .done reset := by
    rw [← drawn.oldTerminal]
    exact ⟨_, resetLine_shown _⟩
  rw [← attended.onScreen.reads cached] at writes
  refine ⟨reset, ?_⟩
  rw [sysWrite, current, Outcome.done_bind]
  dsimp only
  rw [if_neg (writes_to_stdout isOpen), driverIs, driverWrite, Kernel.terminalWrite, current,
    Outcome.done_bind, attended.findTerminal current, writes]
  simp only [Outcome.done_bind, resets, Outcome.pure_eq, measured, if_true]

/-- `write` to descriptor 1 prints on the terminal that is shown. -/
theorem Attended.write {cached : Nat → Bool} {buf : UserMemory} {nbytes value : Int}
    {printed : List Byte} (attended : Attended kernel processes)
    (done : kernel.sysWrite cached 1 buf nbytes = .done (value, printed, after)) :
    ∃ length console, strlen buf = .done length ∧ value = int32 length ∧
      kernel.shownConsole.terminalWrite buf nbytes = .done (printed, console) ∧
      Draws kernel { console with bufferI := 0 } after := by
  obtain ⟨cur, current, rest⟩ := Outcome.bind_eq_done.mp done
  obtain ⟨isOpen, isTerminal⟩ := attended.stdoutOfCurrent current
  have allowed := writes_to_stdout isOpen
  dsimp only at rest
  rw [if_neg allowed] at rest
  obtain ⟨⟨result, output, written⟩, driving, returned⟩ := Outcome.bind_eq_done.mp rest
  have driverIs : ((kernel.pcb cur).fd (1 : Int).toNat).sysopsPtr = .terminalOps := isTerminal
  rw [driverIs] at driving
  obtain ⟨again, currentAgain, printing⟩ := Outcome.bind_eq_done.mp driving
  obtain rfl : again = cur := Outcome.done.inj (currentAgain.symm.trans current)
  obtain ⟨⟨chars, console⟩, writes, resetting⟩ := Outcome.bind_eq_done.mp printing
  obtain ⟨reset, resets, finished⟩ := Outcome.bind_eq_done.mp resetting
  cases finished
  obtain ⟨length, measured, answer⟩ := Outcome.bind_eq_done.mp returned
  cases answer
  have drawn := setConsole_draws attended.onScreen cached console
  rw [attended.findTerminal current, ← drawn.oldTerminal] at resets
  obtain rfl := Outcome.done.inj ((resetLine_shown _).symm.trans resets)
  have cleared := drawn.trans resetLine_draws
  rw [drawn.shown] at cleared
  rw [attended.onScreen.reads cached] at writes
  exact ⟨length, console, measured, rfl, writes, cleared⟩

theorem Attended.awaits {cur : Nat} (attended : Attended kernel processes)
    (current : findProgramid kernel.cr3 = .done cur) :
    kernel.awaitLine = .done (kernel.setTerminal kernel.oldTerminal
      { kernel.terminals kernel.oldTerminal with bufferI := 0 }) := by
  rw [awaitLine, current, Outcome.done_bind, attended.findTerminal current]
  exact resetLine_shown kernel

theorem Attended.awaitLine (attended : Attended kernel processes)
    (done : kernel.awaitLine = .done after) :
    Draws kernel { kernel.shownConsole with bufferI := 0 } after := by
  obtain ⟨cur, current, _⟩ := Outcome.bind_eq_done.mp done
  obtain rfl := Outcome.done.inj ((attended.awaits current).symm.trans done)
  exact resetLine_draws

theorem Attended.takeLine {buf result : Nat → Byte} {value : Int}
    (attended : Attended kernel processes)
    (done : kernel.takeLine buf = .done (value, result, after)) :
    LineEntered (kernel.terminals kernel.oldTerminal) ∧
      (value, result, { kernel.shownConsole with bufferI := 0 }) =
        kernel.shownConsole.keyboardRead buf ∧
      Draws kernel { kernel.shownConsole with bufferI := 0 } after := by
  obtain ⟨cur, current, rest⟩ := Outcome.bind_eq_done.mp done
  rw [attended.findTerminal current, terminalAt_index] at rest
  dsimp only at rest
  split at rest
  · rename_i entered
    cases rest
    rw [attended.onScreen.reads fun _ => false]
    exact ⟨entered, rfl, setConsole_draws attended.onScreen _ _⟩
  · cases rest

end Kernel

/-- A line that was entered is taken. -/
theorem Kernel.Attended.takesLine {kernel : Kernel} {cur : Nat}
    (attended : Attended kernel processes) (current : findProgramid kernel.cr3 = .done cur)
    (entered : LineEntered (kernel.terminals kernel.oldTerminal)) (buf : Nat → Byte) :
    ∃ result after, kernel.takeLine buf =
      .done ((kernel.terminals kernel.oldTerminal).bufferI, result, after) := by
  let read := (kernel.console fun _ => false).keyboardRead buf
  refine ⟨read.2.1, kernel.setConsole (fun _ => false) read.2.2, ?_⟩
  rw [Kernel.takeLine, current, Outcome.done_bind, attended.findTerminal current, terminalAt_index]
  exact if_pos entered

/-- The drawing of a key, up to the switch it may ask for. -/
theorem keyHandled_draws {scancode : Byte} {irq : IrqFrame} {cached : Nat → Bool} {term : Option Int}
    {handled : TerminalDriver} (attended : Attended driver.kernel processes)
    (done : driver.keyHandled behind scancode irq cached = .done (term, handled)) :
    ∃ console, driver.kernel.shownConsole.terminalKeyPressed behind driver.keyboard scancode =
        .done (term, handled.keyboard, console) ∧
      Draws driver.kernel console handled.kernel := by
  obtain ⟨⟨asked, keyboard, console⟩, pressed, returned⟩ := Outcome.bind_eq_done.mp done
  cases returned
  have marked := keyMark_draws attended.shown irq
  have onScreen := marked.onScreen attended.onScreen
  have reads := onScreen.reads cached
  rw [marked.shown] at reads
  refine ⟨console, ?_, marked.trans (setConsole_draws onScreen cached console)⟩
  rw [← reads]
  exact pressed

/-- Every key that returns on the console that is shown is handled. -/
theorem keyHandled_done {scancode : Byte} {irq : IrqFrame} {term : Option Int} {keys : Keyboard}
    {console : Console} (attended : Attended driver.kernel processes) (cached : Nat → Bool)
    (pressed : driver.kernel.shownConsole.terminalKeyPressed behind driver.keyboard scancode =
      .done (term, keys, console)) :
    ∃ handled, driver.keyHandled behind scancode irq cached = .done (term, ⟨handled, keys⟩) ∧
      Draws driver.kernel console handled := by
  have marked := keyMark_draws attended.shown irq
  have onScreen := marked.onScreen attended.onScreen
  have reads := onScreen.reads cached
  rw [marked.shown] at reads
  refine ⟨_, ?_, marked.trans (setConsole_draws onScreen cached console)⟩
  rw [← reads] at pressed
  exact Outcome.bind_eq_done.mpr ⟨_, pressed, rfl⟩

/-- A key that asks for no switch. -/
theorem keyDraws_step {scancode : Byte} {irq : IrqFrame} {keys : Keyboard} {console : Console}
    (image : Image) (frame : CallFrame) (tlb : TlbUse) (cached : Nat → Bool)
    (attended : Attended driver.kernel processes)
    (pressed : driver.kernel.shownConsole.terminalKeyPressed behind driver.keyboard scancode =
      .done (none, keys, console)) :
    ∃ drawn, driver.keyHandled behind scancode irq cached = .done (none, ⟨drawn, keys⟩) ∧
      (consoleSystem image behind).step driver (.key scancode irq frame tlb cached) =
        some ⟨drawn, keys⟩ ∧ Draws driver.kernel console drawn := by
  obtain ⟨drawn, handling, draws⟩ :
      ∃ drawn, driver.keyHandled behind scancode irq cached = .done (none, ⟨drawn, keys⟩) ∧
        Draws driver.kernel console drawn := keyHandled_done attended cached pressed
  have handled : driver.keyPressed image behind scancode irq frame tlb cached =
      .done ⟨drawn, keys⟩ := Outcome.bind_eq_done.mpr ⟨_, handling, rfl⟩
  exact ⟨drawn, handling, Outcome.toOption_eq_some.mpr handled, draws⟩

/-- A step draws what `drive` says and may then switch or make a call. -/
theorem driver_step (attended : Attended driver.kernel processes)
    (starts : driver.StartsShells image behind input)
    (stepped : driver.step image behind input = some next) :
    ∃ term console drawn, driver.kernel.shownConsole.drive behind driver.keyboard input =
        .done (term, next.keyboard, console) ∧
      Draws driver.kernel console drawn ∧ Follows image drawn (input.follow term) next.kernel := by
  cases input with
  | call event =>
      obtain ⟨after, kernelStep, rfl⟩ := Option.map_eq_some_iff.mp stepped
      exact ⟨none, _, _, rfl, .refl _, kernelStep, starts⟩
  | key scancode irq frame tlb cached =>
      have done := Outcome.toOption_eq_some.mp stepped
      obtain ⟨⟨term, handled⟩, handling, rest⟩ := Outcome.bind_eq_done.mp done
      obtain ⟨console, drives, draws⟩ := keyHandled_draws attended handling
      cases term with
      | none =>
          cases rest
          exact ⟨none, console, _, drives, draws, rfl⟩
      | some term =>
          obtain ⟨⟨control, after⟩, switched, returned⟩ := Outcome.bind_eq_done.mp rest
          cases returned
          refine ⟨some term, console, _, drives, draws, ?_, starts term handled handling⟩
          exact congrArg (fun outcome => outcome.toOption.map Prod.snd) switched
  | write buf nbytes cached =>
      obtain ⟨⟨value, printed, after⟩, writing, rfl⟩ := Option.map_eq_some_iff.mp stepped
      obtain ⟨length, console, measured, _, writes, draws⟩ :=
        attended.write (Outcome.toOption_eq_some.mp writing)
      refine ⟨none, _, after, ?_, draws, rfl⟩
      simp only [Console.drive, writes, measured, Outcome.done_bind, Outcome.pure_eq]
  | puts text cached =>
      obtain ⟨console, putting, rfl⟩ := Option.map_eq_some_iff.mp stepped
      have puts := Outcome.toOption_eq_some.mp putting
      rw [attended.onScreen.reads cached] at puts
      refine ⟨none, console, _, ?_, setConsole_draws attended.onScreen cached console, rfl⟩
      simp only [Console.drive, puts, Outcome.done_bind, Outcome.pure_eq]
  | awaitLine =>
      obtain ⟨after, awaiting, rfl⟩ := Option.map_eq_some_iff.mp stepped
      exact ⟨none, _, after, rfl, attended.awaitLine (Outcome.toOption_eq_some.mp awaiting), rfl⟩
  | takeLine =>
      obtain ⟨⟨value, result, after⟩, taking, rfl⟩ := Option.map_eq_some_iff.mp stepped
      obtain ⟨entered, _, draws⟩ := attended.takeLine (Outcome.toOption_eq_some.mp taking)
      refine ⟨none, _, after, ?_, draws, rfl⟩
      rw [shownConsole_eq] at draws ⊢
      exact if_pos entered
  | store bytes cached =>
      cases stepped
      exact ⟨none, _, _, rfl, storeVideo_draws attended.onScreen _ _ _, rfl⟩

/-- Attended states are kept by every step whose new terminals get their shell. -/
theorem driver_step_attended (attended : Attended driver.kernel processes)
    (starts : driver.StartsShells image behind input)
    (stepped : driver.step image behind input = some next) :
    ∃ grown, Attended next.kernel grown := by
  obtain ⟨term, console, drawn, _, draws, follows⟩ := driver_step attended starts stepped
  have kept := attended.draws draws
  cases event : input.follow term with
  | none =>
      rw [event] at follows
      exact ⟨processes, follows ▸ kept⟩
  | some event' =>
      rw [event] at follows
      exact kept.step follows.2 follows.1

theorem run_attended {first : Kernel} {keyboard : Keyboard} {inputs : List ConsoleInput}
    (started : FirstShell image first)
    (starts : (consoleSystem image behind).Respects (TerminalDriver.StartsShells image behind)
      ⟨first, keyboard⟩ inputs)
    (ran : (consoleSystem image behind).run ⟨first, keyboard⟩ inputs = some driver) :
    ∃ processes, Attended driver.kernel processes := by
  have preserved : ∀ (driver : TerminalDriver) (input : ConsoleInput) (next : TerminalDriver),
      (∃ processes, Attended driver.kernel processes) → driver.StartsShells image behind input →
      (consoleSystem image behind).step driver input = some next →
      ∃ processes, Attended next.kernel processes := by
    intro driver input next related startsHere stepped
    obtain ⟨processes, attended⟩ := related
    exact driver_step_attended attended startsHere stepped
  exact (Transitions.always_of_respects preserved started.attended starts).last ran

end Ece391
