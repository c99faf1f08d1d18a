import Ece391.Terminal.Inputs

namespace Ece391

open Library Kernel

/-! # Switching away and back -/

variable {image : Image} {behind : BehindTables} {driver next : TerminalDriver}
  {processes : Forest TerminalId Nat} {kernel after : Kernel} {term : TerminalId}

/-- A kernel step is a switch to another terminal or leaves the consoles alone. -/
theorem switches_or_stays {event : Event} (attended : Attended kernel processes)
    (starts : ShellStarts image kernel event) (stepped : kernel.step image event = some after) :
    (∃ target irq frame tlb, event = .terminalSwitch ((target : TerminalId) : Nat) irq frame tlb ∧
        Switches kernel target tlb after) ∨
      ((∀ (target : TerminalId) irq frame tlb,
          event = .terminalSwitch target irq frame tlb → target = kernel.oldTerminal) ∧
        after.oldTerminal = kernel.oldTerminal ∧
        (∀ term, after.consoleOf term = kernel.consoleOf term) ∧
        ∀ term, (after.terminals term).active = (kernel.terminals term).active) := by
  by_cases switch : ∃ (target : TerminalId) (irq : IrqFrame) (frame : CallFrame) (tlb : TlbUse),
      event = .terminalSwitch target irq frame tlb ∧ target ≠ kernel.oldTerminal
  · obtain ⟨target, irq, frame, tlb, rfl, different⟩ := switch
    exact .inl ⟨target, irq, frame, tlb, rfl, attended.switches starts different stepped⟩
  · have stays : ∀ (target : TerminalId) irq frame tlb,
        event = .terminalSwitch target irq frame tlb → target = kernel.oldTerminal := by
      intro target irq frame tlb isSwitch
      by_contra different
      exact switch ⟨target, irq, frame, tlb, isSwitch, different⟩
    exact .inr ⟨stays, step_consoles stays stepped⟩

/-- A step from one state in which a terminal is hidden to another does not
touch its console. -/
theorem driver_step_hidden {input : ConsoleInput} (attended : Attended driver.kernel processes)
    (starts : driver.StartsShells image behind input)
    (stepped : driver.step image behind input = some next)
    (hidden : term ≠ driver.kernel.oldTerminal) (stillHidden : term ≠ next.kernel.oldTerminal) :
    next.kernel.consoleOf term = driver.kernel.consoleOf term ∧
      ((next.kernel.terminals term).active ≠ 0 ↔ (driver.kernel.terminals term).active ≠ 0) := by
  obtain ⟨asked, console, drawn, _, draws, follows⟩ := driver_step attended starts stepped
  have drawnHidden := draws.hidden term hidden
  have drawnActive := draws.active term
  have notShown : term ≠ drawn.oldTerminal := by rwa [draws.oldTerminal]
  cases event : input.follow asked with
  | none =>
      rw [event] at follows
      rw [follows]
      exact ⟨drawnHidden, drawnActive⟩
  | some event' =>
      rw [event] at follows
      rcases switches_or_stays (attended.draws draws) follows.2 follows.1 with
        ⟨target, irq, frame, tlb, _, switches⟩ | ⟨_, _, consoles, used⟩
      · have notTarget : term ≠ target := by rwa [switches.oldTerminal] at stillHidden
        refine ⟨(switches.others term notShown notTarget).trans drawnHidden, ?_⟩
        rw [switches.active term, drawnActive]
        exact or_iff_left notTarget
      · rw [consoles, used]
        exact ⟨drawnHidden, drawnActive⟩

/-- The console of a terminal that stays hidden is what it was, however long the
run and whatever it draws. -/
theorem run_hidden {inputs : List ConsoleInput} (attended : ∃ processes, Attended driver.kernel processes)
    (starts : (consoleSystem image behind).Respects (TerminalDriver.StartsShells image behind) driver
      inputs)
    (hidden : (consoleSystem image behind).Always (fun other => term ≠ other.kernel.oldTerminal) driver
      inputs)
    (active : (driver.kernel.terminals term).active ≠ 0)
    (ran : (consoleSystem image behind).run driver inputs = some next) :
    next.kernel.consoleOf term = driver.kernel.consoleOf term ∧
      (next.kernel.terminals term).active ≠ 0 ∧ ∃ processes, Attended next.kernel processes := by
  let invariant (other : TerminalDriver) : Prop :=
    other.kernel.consoleOf term = driver.kernel.consoleOf term ∧
      (other.kernel.terminals term).active ≠ 0 ∧ ∃ processes, Attended other.kernel processes
  have initial : invariant driver := ⟨rfl, active, attended⟩
  apply Transitions.run_preserves_while _ initial starts hidden ran
  intro state input after settled starts stateHidden afterHidden stepped
  obtain ⟨console, stateActive, processes, attended⟩ := settled
  obtain ⟨sameConsole, stillActive⟩ :=
    driver_step_hidden attended starts stepped stateHidden afterHidden
  exact ⟨sameConsole.trans console, stillActive.mpr stateActive,
    driver_step_attended attended starts stepped⟩

/-- The cells and the logical cursor of the screen are those of another state. -/
structure Restored (before after : Kernel) : Prop where
  cells : ∀ offset < CELL_BYTES, after.video .screen offset = before.video .screen offset
  screenX : after.screenX = before.screenX
  screenY : after.screenY = before.screenY

/-- The copy that comes back is the screen, but for the bytes that `clear` stored
through the new entry of the page table. -/
theorem restored_iff {left middle back : Kernel} {target : TerminalId} {tlb tlb' : TlbUse}
    (away : Switches kernel target tlb left)
    (kept : middle.consoleOf kernel.oldTerminal = left.consoleOf kernel.oldTerminal)
    (active : (middle.terminals kernel.oldTerminal).active ≠ 0)
    (returned : Switches middle kernel.oldTerminal tlb' back) :
    Restored kernel back ↔ ∀ offset < CELL_BYTES, tlb.clear offset = true ∨
      kernel.video .screen offset = blankByte offset := by
  obtain ⟨isBack, backCells⟩ := returned.resumed active
  rw [kept] at isBack backCells
  have inPage : ∀ offset, offset < CELL_BYTES → offset < MEM_4KB := by
    intro offset inside
    unfold CELL_BYTES NUM_ROWS NUM_COLS at inside
    simp only [MEM_4KB]
    omega
  have cell : ∀ offset < CELL_BYTES, back.video .screen offset =
      if tlb.clear offset = false then blankByte offset else kernel.video .screen offset := by
    intro offset inside
    have copied := (backCells offset (inPage offset inside)).trans
      (away.leftCells offset (inPage offset inside))
    rw [shownConsole_eq back, shownConsole_eq kernel] at copied
    simpa only [inside, true_and] using copied
  have cursor := congrArg (fun console : Console => (console.x, console.y)) (isBack.trans
    (congrArg (fun console : Console => { console with cells := back.shownConsole.cells }) away.left))
  rw [shownConsole_eq back, shownConsole_eq kernel] at cursor
  obtain ⟨sameX, sameY⟩ := Prod.mk.inj cursor
  constructor
  · intro restored offset inside
    cases cached : tlb.clear offset with
    | true => exact .inl rfl
    | false =>
        have stored := cell offset inside
        rw [if_pos cached, restored.cells offset inside] at stored
        exact .inr stored
  · intro condition
    refine ⟨fun offset inside => ?_, sameX, sameY⟩
    rw [cell offset inside]
    rcases condition offset inside with cached | blank
    · rw [cached]
      rfl
    · rw [blank, ite_self]

/-- A terminal in use needs no shell. -/
theorem startsShell_of_active {irq : IrqFrame} {frame : CallFrame} {tlb : TlbUse}
    (attended : Attended kernel processes) (different : term ≠ kernel.oldTerminal)
    (active : (kernel.terminals term).active ≠ 0) :
    ShellStarts image kernel (.terminalSwitch term irq frame tlb) := by
  obtain ⟨cur, current⟩ := attended.running
  obtain ⟨ebp, esp, resumed, switched⟩ :=
    keyboardSwitch_active image current different active irq frame tlb
  intro refused returned
  rw [switched] at returned
  cases returned

theorem call_switches {irq : IrqFrame} {frame : CallFrame} {tlb : TlbUse}
    (attended : Attended driver.kernel processes) (different : term ≠ driver.kernel.oldTerminal)
    (active : (driver.kernel.terminals term).active ≠ 0)
    (stepped : (consoleSystem image behind).step driver
      (.call (.terminalSwitch term irq frame tlb)) = some next) :
    Switches driver.kernel term tlb next.kernel ∧ ∃ grown, Attended next.kernel grown := by
  have starts : ShellStarts image driver.kernel (.terminalSwitch term irq frame tlb) :=
    startsShell_of_active attended different active
  obtain ⟨after, kernelStep, rfl⟩ := Option.map_eq_some_iff.mp stepped
  exact ⟨attended.switches starts different kernelStep, attended.step starts kernelStep⟩

/-- Switching from a terminal to another one in use and, after whatever happens
while the first one is hidden, back to it restores its screen if and only if
`clear` reached no byte of it, blank ones apart, through the new entry. -/
theorem switch_back_restores_iff {first : Kernel} {keyboard : Keyboard}
    {before between : List ConsoleInput} {left middle back : TerminalDriver} {target : TerminalId}
    {irq irq' : IrqFrame} {frame frame' : CallFrame} {tlb tlb' : TlbUse}
    (started : FirstShell image first)
    (starts : (consoleSystem image behind).Respects (TerminalDriver.StartsShells image behind)
      ⟨first, keyboard⟩ before)
    (ran : (consoleSystem image behind).run ⟨first, keyboard⟩ before = some driver)
    (active : (driver.kernel.terminals target).active ≠ 0)
    (different : target ≠ driver.kernel.oldTerminal)
    (away : (consoleSystem image behind).step driver
      (.call (.terminalSwitch target irq frame tlb)) = some left)
    (startsHidden : (consoleSystem image behind).Respects
      (TerminalDriver.StartsShells image behind) left between)
    (hidden : (consoleSystem image behind).Always
      (fun other => driver.kernel.oldTerminal ≠ other.kernel.oldTerminal) left between)
    (ranHidden : (consoleSystem image behind).run left between = some middle)
    (returned : (consoleSystem image behind).step middle
      (.call (.terminalSwitch driver.kernel.oldTerminal irq' frame' tlb')) = some back) :
    Restored driver.kernel back.kernel ↔ ∀ offset < CELL_BYTES, tlb.clear offset = true ∨
      driver.kernel.video .screen offset = blankByte offset := by
  obtain ⟨processes, attended⟩ := run_attended started starts ran
  obtain ⟨switches, settled⟩ := call_switches attended different active away
  have wasActive := (switches.active driver.kernel.oldTerminal).mpr (.inl attended.shown)
  obtain ⟨kept, stillActive, processesThen, attendedThen⟩ :=
    run_hidden settled startsHidden hidden wasActive ranHidden
  obtain ⟨comesBack, _⟩ := call_switches attendedThen (hidden.last ranHidden) stillActive returned
  exact restored_iff switches kept stillActive comesBack

theorem call_switch_exists {irq : IrqFrame} {frame : CallFrame} {tlb : TlbUse}
    (attended : Attended driver.kernel processes) (different : term ≠ driver.kernel.oldTerminal)
    (active : (driver.kernel.terminals term).active ≠ 0) :
    ∃ next, (consoleSystem image behind).step driver
      (.call (.terminalSwitch term irq frame tlb)) = some next := by
  obtain ⟨cur, current⟩ := attended.running
  obtain ⟨ebp, esp, after, switched⟩ :=
    keyboardSwitch_active image current different active irq frame tlb
  have stepped : driver.kernel.step image (.terminalSwitch term irq frame tlb) = some after :=
    congrArg (fun outcome => outcome.toOption.map Prod.snd) switched
  exact ⟨⟨after, driver.keyboard⟩, congrArg (Option.map _) stepped⟩

def noModifiers : Keyboard := ⟨false, false, false, false, false⟩

/-- Terminal 1 of a machine with two shells has an X in its first cell. -/
def openAndMark : List ConsoleInput :=
  [.call (.terminalSwitch (1 : TerminalId) zeroedIrq zeroedFrame cachedNowhere),
    .store (fun offset => if offset = 0 then some 88 else none) fun _ => false]

theorem openAndMark_runs (behind : BehindTables) :
    ∃ first driver, FirstShell shellImage first ∧
      (consoleSystem shellImage behind).Respects (TerminalDriver.StartsShells shellImage behind)
        ⟨first, noModifiers⟩ openAndMark ∧
      (consoleSystem shellImage behind).run ⟨first, noModifiers⟩ openAndMark = some driver ∧
      (driver.kernel.terminals 0).active ≠ 0 ∧ driver.kernel.oldTerminal = 1 ∧
      driver.kernel.video .screen 0 = 88 := by
  obtain ⟨first, started, launched⟩ := firstShell_exists shellImage_valid zeroedMemory zeroedFrame
  obtain ⟨shown, entry, second, leaving, switched, launchedSecond⟩ :=
    secondShell_exists shellImage_valid launched (show (1 : TerminalId) ≠ 0 by decide)
      zeroedIrq zeroedFrame cachedNowhere
  have starts : ShellStarts shellImage first
      (.terminalSwitch (1 : TerminalId) zeroedIrq zeroedFrame cachedNowhere) := by
    intro refused returned
    cases switched.symm.trans returned
  have kernelStep : first.step shellImage
      (.terminalSwitch (1 : TerminalId) zeroedIrq zeroedFrame cachedNowhere) = some second :=
    congrArg (fun outcome => outcome.toOption.map Prod.snd) switched
  let opened : TerminalDriver := ⟨second, noModifiers⟩
  have opens : (consoleSystem shellImage behind).step ⟨first, noModifiers⟩
      (.call (.terminalSwitch (1 : TerminalId) zeroedIrq zeroedFrame cachedNowhere)) = some opened :=
    congrArg (Option.map fun kernel => (⟨kernel, noModifiers⟩ : TerminalDriver)) kernelStep
  obtain ⟨processes, attended⟩ := started.attended
  have atFirst : first.oldTerminal = 0 := launched.oldTerminal.trans (boot_oldTerminal _)
  have different : (1 : TerminalId) ≠ first.oldTerminal := by
    rw [atFirst]
    decide
  have switches := attended.switches starts different kernelStep
  obtain ⟨grown, settled⟩ := attended.step starts kernelStep
  have marked := storeVideo_draws settled.onScreen (fun _ => false)
    (fun offset => offset < MEM_4KB ∧ (if offset = 0 then some (88 : Byte) else none) ≠ none)
    fun offset => (if offset = 0 then some (88 : Byte) else none).getD 0
  refine ⟨first, _, started, ⟨starts, fun _ _ => ⟨trivial, fun _ _ => trivial⟩⟩,
    Transitions.run_cons.mpr ⟨opened, opens, Transitions.run_singleton.trans rfl⟩, ?_, ?_, ?_⟩
  · refine (marked.active 0).mpr ((switches.active 0).mpr (.inl ?_))
    rw [← atFirst]
    exact attended.shown
  · exact marked.oldTerminal.trans switches.oldTerminal
  · have cells := congrArg (fun console => console.cells 0) marked.shown
    rw [shownConsole_eq] at cells
    have inPage : 0 < MEM_4KB ∧ (if (0 : Nat) = 0 then some (88 : Byte) else none) ≠ none :=
      ⟨by decide, by decide⟩
    dsimp only at cells
    rw [if_pos inPage] at cells
    exact cells

/-- From there to terminal 0 and back. -/
theorem openAndMark_returns (behind : BehindTables) {driver : TerminalDriver}
    (attended : Attended driver.kernel processes) (active : (driver.kernel.terminals 0).active ≠ 0)
    (isShown : driver.kernel.oldTerminal = 1) :
    ∃ left back, (consoleSystem shellImage behind).step driver
        (.call (.terminalSwitch (0 : TerminalId) zeroedIrq zeroedFrame cachedNowhere)) = some left ∧
      (consoleSystem shellImage behind).step left
        (.call (.terminalSwitch driver.kernel.oldTerminal zeroedIrq zeroedFrame cachedNowhere)) =
          some back ∧
      Switches driver.kernel 0 cachedNowhere left.kernel ∧
      Switches left.kernel driver.kernel.oldTerminal cachedNowhere back.kernel := by
  have different : (0 : TerminalId) ≠ driver.kernel.oldTerminal := by
    rw [isShown]
    decide
  obtain ⟨left, away⟩ : ∃ left, (consoleSystem shellImage behind).step driver
      (.call (.terminalSwitch (0 : TerminalId) zeroedIrq zeroedFrame cachedNowhere)) = some left :=
    call_switch_exists attended different active
  obtain ⟨switches, grown, attendedThen⟩ := call_switches attended different active away
  have hidden : driver.kernel.oldTerminal ≠ left.kernel.oldTerminal := by
    rw [switches.oldTerminal]
    exact Ne.symm different
  have wasActive := (switches.active driver.kernel.oldTerminal).mpr (.inl attended.shown)
  obtain ⟨back, returned⟩ : ∃ back, (consoleSystem shellImage behind).step left
      (.call (.terminalSwitch driver.kernel.oldTerminal zeroedIrq zeroedFrame cachedNowhere)) =
        some back := call_switch_exists attendedThen hidden wasActive
  exact ⟨left, back, away, returned, switches,
    (call_switches attendedThen hidden wasActive returned).1⟩

def zeroedTables : BehindTables := ⟨fun _ => 0, fun _ => 0⟩

theorem switch_back_restores_iff_marked :
    ∃ driver left back : TerminalDriver,
      (consoleSystem shellImage zeroedTables).step driver
        (.call (.terminalSwitch (0 : TerminalId) zeroedIrq zeroedFrame cachedNowhere)) = some left ∧
      (Restored driver.kernel back.kernel ↔ ∀ offset < CELL_BYTES,
        cachedNowhere.clear offset = true ∨ driver.kernel.video .screen offset = blankByte offset) := by
  obtain ⟨first, driver, started, starts, ran, active, isShown, _⟩ := openAndMark_runs zeroedTables
  obtain ⟨processes, attended⟩ := run_attended started starts ran
  obtain ⟨left, back, away, returned, switches, _⟩ :=
    openAndMark_returns zeroedTables attended active isShown
  have hidden : driver.kernel.oldTerminal ≠ left.kernel.oldTerminal := by
    rw [switches.oldTerminal]
    exact Ne.symm switches.different
  have startsNone : (consoleSystem shellImage zeroedTables).Respects
      (TerminalDriver.StartsShells shellImage zeroedTables) left [] := trivial
  have hiddenNone : (consoleSystem shellImage zeroedTables).Always
      (fun other => driver.kernel.oldTerminal ≠ other.kernel.oldTerminal) left [] := hidden
  have ranNone : (consoleSystem shellImage zeroedTables).run left [] = some left := rfl
  exact ⟨driver, left, back, away, switch_back_restores_iff started starts ran active
    switches.different away startsNone hiddenNone ranNone returned⟩

/-- The X is gone when the processor uses the new entries at once. -/
theorem switch_back_loses_cell :
    ∃ first driver left back, FirstShell shellImage first ∧
      (consoleSystem shellImage zeroedTables).run ⟨first, noModifiers⟩ openAndMark = some driver ∧
      (driver.kernel.terminals 0).active ≠ 0 ∧ driver.kernel.oldTerminal = 1 ∧
      (consoleSystem shellImage zeroedTables).step driver
        (.call (.terminalSwitch (0 : TerminalId) zeroedIrq zeroedFrame cachedNowhere)) = some left ∧
      (consoleSystem shellImage zeroedTables).step left
        (.call (.terminalSwitch (1 : TerminalId) zeroedIrq zeroedFrame cachedNowhere)) = some back ∧
      ¬ Restored driver.kernel back.kernel := by
  obtain ⟨first, driver, started, starts, ran, active, isShown, marked⟩ :=
    openAndMark_runs zeroedTables
  obtain ⟨processes, attended⟩ := run_attended started starts ran
  obtain ⟨left, back, away, returned, switches, comesBack⟩ :=
    openAndMark_returns zeroedTables attended active isShown
  have wasActive := (switches.active driver.kernel.oldTerminal).mpr (.inl attended.shown)
  have lost : ¬ Restored driver.kernel back.kernel := by
    intro restored
    have condition := (restored_iff switches rfl wasActive comesBack).mp restored
    rcases condition 0 (by decide) with cached | blank
    · cases cached
    · rw [marked] at blank
      exact absurd blank (by decide)
  rw [isShown] at returned
  exact ⟨first, driver, left, back, started, ran, active, isShown, away, returned, lost⟩

end Ece391
