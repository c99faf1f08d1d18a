import Ece391.Interrupt.Linkage
import Ece391.Interrupt.Allocation

namespace Ece391

open Library Kernel

/-! # The registers of an interrupted process

`terminals[]` keeps the stack registers of a terminal for as long as it is not
shown, whatever the others do.  The way back takes these two and the frame of
the interrupt; the other registers come from the code that shows the terminal.
-/

variable {image : Image} {machine next : Machine} {thread : Thread}

theorem call_own {request : Request} (called : machine.call image thread request = .done next) :
    Own machine.kernel next.kernel := by
  cases request with
  | halt status =>
      obtain ⟨cur, _, returned⟩ := Outcome.bind_eq_done.mp called
      cases returned
      exact .refl machine.kernel
  | execute command frame =>
      obtain ⟨⟨locals, kernel⟩, beginning, returned⟩ := Outcome.bind_eq_done.mp called
      have own := (beginExecute_eq_done beginning).own
      cases locals with
      | none => cases returned; exact own
      | some locals => cases returned; exact own
  | service service => cases called; exact .refl machine.kernel
  | invalid => cases called; exact .refl machine.kernel

theorem advance_own (advanced : machine.advance image thread = .done next) :
    Own machine.kernel next.kernel := by
  obtain ⟨pid, point, waiting⟩ := thread
  cases point with
  | user => cases advanced
  | lost => cases advanced
  | handler service =>
      obtain ⟨⟨value, kernel⟩, serving, returned⟩ := Outcome.bind_eq_done.mp advanced
      cases returned
      exact .ofQuiet (serve_quiet serving)
  | search locals i =>
      simp only [Machine.advance] at advanced
      split at advanced
      · cases advanced
        exact .refl machine.kernel
      split at advanced
      · cases advanced
      · cases advanced
        exact .refl machine.kernel
  | claim locals slot =>
      cases advanced
      exact claimSlot_own machine.kernel locals.curProgramid slot
  | launching locals stage =>
      obtain ⟨kernel, staged, rest⟩ := Outcome.bind_eq_done.mp advanced
      have own := (launchStage_eq_done staged).toOwn
      cases stage with
      | _ => cases rest; exact own
  | halting status cur parent stage =>
      obtain ⟨kernel, staged, rest⟩ := Outcome.bind_eq_done.mp advanced
      have own := (haltStage_eq_done staged).toOwn
      split at rest
      · cases rest
        exact own
      split at rest
      · cases rest
        exact own
      · cases rest
        exact own
  | _ => cases advanced; exact .refl machine.kernel

/-- A step has run on the shown terminal, or it was a keyboard interrupt. -/
theorem step_cases {input : Input} (stepped : (machineSystem image).step machine input = some next) :
    Own machine.kernel next.kernel ∨
      ∃ term irq frame tlb scratch thread, input = .interrupt term irq frame tlb scratch ∧
        Interrupted machine thread term irq frame scratch next := by
  cases here : machine.threads machine.kernel.oldTerminal with
  | none => simp only [machineSystem, Machine.step, here, reduceCtorEq] at stepped
  | some thread =>
      simp only [machineSystem, Machine.step, here] at stepped
      split at stepped
      · exact .inl (call_own (Outcome.toOption_eq_some.mp stepped))
      · cases stepped
      · exact .inl (advance_own (Outcome.toOption_eq_some.mp stepped))
      · cases stepped
      · exact .inr ⟨_, _, _, _, _, thread, rfl, interrupt_eq_some stepped⟩

/-- `terminals[term]` is in use and has the registers of the interrupt. -/
structure Kernel.Suspends (kernel : Kernel) (term : TerminalId) (irq : IrqFrame) : Prop where
  esp : (kernel.terminals term).esp = irq.esp_0
  ebp : (kernel.terminals term).ebp = irq.ebp_0
  active : (kernel.terminals term).active ≠ 0

theorem Leaves.suspends {kernel after : Kernel} {irq saved : IrqFrame} {target term : TerminalId}
    (leaves : Leaves kernel irq target after) (suspends : kernel.Suspends term saved)
    (other : term ≠ kernel.oldTerminal) (active : (after.terminals term).active ≠ 0) :
    after.Suspends term saved := by
  obtain ⟨esp, ebp⟩ := leaves.registers term other
  exact ⟨esp.trans suspends.esp, ebp.trans suspends.ebp, active⟩

theorem Opened.stays_active {kernel after : Kernel} {irq : IrqFrame} {frame : CallFrame}
    {target term : TerminalId} {slot : Nat} (opened : Opened kernel irq frame target slot after)
    (active : (kernel.terminals term).active ≠ 0) : (after.terminals term).active ≠ 0 := by
  have different : term ≠ target := by
    intro same
    exact active (same ▸ opened.notInUse)
  rwa [opened.active term different]

theorem Kernel.Suspends.step {term : TerminalId} {saved : IrqFrame} {input : Input}
    (suspends : machine.kernel.Suspends term saved) (other : term ≠ machine.kernel.oldTerminal)
    (stepped : (machineSystem image).step machine input = some next) :
    next.kernel.Suspends term saved := by
  rcases step_cases stepped with own | ⟨_, _, _, _, _, thread, _, interrupted⟩
  · have same := own.others term other
    exact ⟨by rw [same]; exact suspends.esp, by rw [same]; exact suspends.ebp,
      by rw [same]; exact suspends.active⟩
  · cases interrupted with
    | ignored => exact ⟨suspends.esp, suspends.ebp, suspends.active⟩
    | resumed isTerm resumed =>
        refine resumed.suspends suspends other ?_
        rw [resumed.active]
        exact suspends.active
    | opened isTerm found opened =>
        exact opened.suspends suspends other (opened.stays_active suspends.active)

/-- While a terminal is not shown its registers stay in `terminals[]`. -/
theorem Kernel.Suspends.run {term : TerminalId} {saved : IrqFrame} {inputs : List Input}
    {final : Machine} (suspends : machine.kernel.Suspends term saved)
    (away : (machineSystem image).Always (fun machine => term ≠ machine.kernel.oldTerminal)
      machine inputs)
    (ran : (machineSystem image).run machine inputs = some final) :
    final.kernel.Suspends term saved := by
  let invariant (machine : Machine) : Prop := machine.kernel.Suspends term saved
  have initial : invariant machine := suspends
  apply Transitions.run_preserves_while _ initial (Transitions.respects_true machine inputs) away ran
  intro machine input next suspends _ away _ stepped
  exact suspends.step away stepped

def Machine.ShownActive (machine : Machine) : Prop :=
  (machine.kernel.terminals machine.kernel.oldTerminal).active ≠ 0

theorem Machine.ShownActive.step {input : Input} (active : machine.ShownActive)
    (stepped : (machineSystem image).step machine input = some next) : next.ShownActive := by
  simp only [Machine.ShownActive] at active ⊢
  rcases step_cases stepped with own | ⟨_, _, _, _, _, thread, _, interrupted⟩
  · rwa [own.oldTerminal, own.active]
  · cases interrupted with
    | ignored => exact active
    | resumed isTerm resumed =>
        have shown := resumed.oldTerminal
        have inUse := resumed.inUse
        simp only [Machine.become]
        rwa [shown, resumed.active]
    | opened isTerm found opened =>
        have shown := opened.oldTerminal
        have inUse := opened.targetActive
        simp only [Machine.startShell, Machine.become]
        rw [shown, inUse]
        decide

theorem Machine.ShownActive.reached {first : Kernel} {returnValue : Word} {inputs : List Input}
    (started : FirstShell image first)
    (ran : (machineSystem image).run (Machine.start first returnValue) inputs = some machine) :
    machine.ShownActive := by
  have preserved : ∀ machine input next, Machine.ShownActive machine →
      (machineSystem image).step machine input = some next → next.ShownActive :=
    fun machine input next active stepped => active.step stepped
  have initial : (Machine.start first returnValue).ShownActive := by
    obtain ⟨_, placed⟩ := Placed.start started returnValue
    exact (placed.active _).mpr placed.shown
  exact Transitions.run_preserves preserved initial ran

/-- A keyboard interrupt that leaves the terminal saves the registers of the interrupt. -/
theorem leaves_suspends {term : Int} {irq : IrqFrame} {frame : CallFrame} {tlb : TlbUse}
    {scratch : Word} (active : machine.ShownActive)
    (left : (machineSystem image).step machine (.interrupt term irq frame tlb scratch) = some next)
    (away : next.kernel.oldTerminal ≠ machine.kernel.oldTerminal) :
    next.kernel.Suspends machine.kernel.oldTerminal irq := by
  rcases step_cases left with own | ⟨_, _, _, _, _, thread, same, interrupted⟩
  · exact absurd own.oldTerminal away
  · cases same
    cases interrupted with
    | ignored => exact absurd rfl away
    | resumed isTerm resumed =>
        have inUse := resumed.active machine.kernel.oldTerminal
        exact ⟨resumed.saved.1, resumed.saved.2, inUse ▸ active⟩
    | opened isTerm found opened =>
        exact ⟨opened.saved.1, opened.saved.2, opened.stays_active active⟩

/-- The switch back to a suspended terminal ends in `int_ret_helper` with its registers. -/
theorem Kernel.Suspends.shows {kernel after : Kernel} {term : TerminalId} {saved irq : IrqFrame}
    {frame : CallFrame} {tlb : TlbUse} {control : Control} (suspends : kernel.Suspends term saved)
    (other : term ≠ kernel.oldTerminal)
    (shows : kernel.keyboardSwitch image term irq frame tlb = .done (control, after)) :
    control = .intRetHelper saved.ebp_0 saved.esp_0 := by
  rw [keyboardSwitch_other other] at shows
  obtain ⟨left, leaving, rest⟩ := Outcome.bind_eq_done.mp shows
  obtain ⟨cur, leftTerminal⟩ := leaveTerminal_eq_done leaving
  have same : left.terminals term = kernel.terminals term := by
    rw [leftTerminal.terminals]
    exact Function.update_of_ne other ..
  rw [same, if_neg suspends.active] at rest
  cases rest
  rw [same, suspends.esp, suspends.ebp]

/-- The registers that are neither the stack's nor the frame's. -/
structure SameGeneral (left right : Registers) : Prop where
  eax : left.eax = right.eax
  ebx : left.ebx = right.ebx
  ecx : left.ecx = right.ecx
  edx : left.edx = right.edx
  esi : left.esi = right.esi
  edi : left.edi = right.edi

/-- `int_ret_helper` gives a process back what it had exactly when the six registers that no code
saves hold it already. -/
theorem intRetHelper_restores {process returning : Cpu} {gate : Gate}
    (called : CallsIntRetHelper returning (irqFrame process gate).ebp_0 (irqFrame process gate).esp_0)
    (kept : SameWords returning.memory (process.interrupt gate).memory (irqFrame process gate).esp_0
      process.frame.length) :
    (intRetHelper returning).registers = process.registers ↔
      SameGeneral returning.registers process.registers := by
  rw [intRetHelper_registers called kept]
  constructor
  · intro same
    rw [← same]
    exact ⟨rfl, rfl, rfl, rfl, rfl, rfl⟩
  · intro same
    simp only [same.eax, same.ebx, same.ecx, same.edx, same.esi, same.edi]

/-- The handler with `eax` in EAX, just after it has called `int_ret_helper`. -/
def returningTo (process : Cpu) (gate : Gate) (eax : Word) : Cpu :=
  let irq := irqFrame process gate
  let called := (process.interrupt gate).pushAll [0, irq.ebp_0, irq.esp_0]
  { called with registers := { called.registers with eax } }

theorem returningTo_calls (process : Cpu) (gate : Gate) (eax : Word) :
    CallsIntRetHelper (returningTo process gate eax) (irqFrame process gate).ebp_0
      (irqFrame process gate).esp_0 := by
  let irq := irqFrame process gate
  have nothing : Holds (process.interrupt gate).memory (process.interrupt gate).registers.esp [] :=
    trivial
  have pushed := Cpu.pushAll_holds (process.interrupt gate) [0, irq.ebp_0, irq.esp_0] nothing (by simp)
  have first : ([0, irq.ebp_0, irq.esp_0] ++ [])[1]? = some irq.ebp_0 := rfl
  have second : ([0, irq.ebp_0, irq.esp_0] ++ [])[2]? = some irq.esp_0 := rfl
  constructor
  · simp only [Cpu.word, returningTo]
    exact pushed.get first
  · simp only [Cpu.word, returningTo]
    exact pushed.get second

theorem returningTo_keeps (process : Cpu) (gate : Gate) (eax : Word) :
    SameWords (returningTo process gate eax).memory (process.interrupt gate).memory
      (irqFrame process gate).esp_0 process.frame.length := by
  let irq := irqFrame process gate
  have length := process.frame_length
  have kept := Cpu.pushAll_keeps (process.interrupt gate) [0, irq.ebp_0, irq.esp_0]
    process.frame.length (by simp only [List.length_cons, List.length_nil]; omega)
  simp only [returningTo]
  exact kept

/-- The call `int_ret_helper(ebp, esp)` with `eax` in EAX gives every process that `irq1_wrapper`
found with these stack registers back what it had. -/
def RestoresAll (gate : Gate) (irq : IrqFrame) (ebp esp eax : Word) : Prop :=
  ∀ process cpu : Cpu, irqFrame process gate = irq → CallsIntRetHelper cpu ebp esp →
    SameWords cpu.memory (process.interrupt gate).memory esp process.frame.length →
    cpu.registers.eax = eax → (intRetHelper cpu).registers = process.registers

/-- The same process with another value in EAX, which is nowhere in the frame. -/
def withEax (process : Cpu) (eax : Word) : Cpu :=
  { process with registers := { process.registers with eax } }

theorem irqFrame_withEax (process : Cpu) (gate : Gate) (eax : Word) :
    irqFrame (withEax process eax) gate = irqFrame process gate := by
  obtain ⟨_, entry⟩ := process.interrupt_registers gate
  obtain ⟨_, otherEntry⟩ := (withEax process eax).interrupt_registers gate
  have ebp : ((withEax process eax).interrupt gate).registers.ebp =
      (process.interrupt gate).registers.ebp := by
    rw [otherEntry, entry]
    rfl
  have esp : ((withEax process eax).interrupt gate).registers.esp =
      (process.interrupt gate).registers.esp := by
    simp only [Cpu.interrupt, Cpu.pushAll_esp, withEax, Cpu.frame]
    by_cases outer : Cpu.outer process.cs
    · simp only [outer, if_true]
    · simp only [outer, Bool.false_eq_true, if_false]
  simp only [irqFrame, ebp, esp]

theorem not_restoresAll (process : Cpu) (gate : Gate) (eax : Word) :
    ¬ RestoresAll gate (irqFrame process gate) (irqFrame process gate).ebp_0
      (irqFrame process gate).esp_0 eax := by
  intro restores
  let other := withEax process (eax + 1)
  let cpu := returningTo other gate eax
  have frame : irqFrame other gate = irqFrame process gate := irqFrame_withEax process gate (eax + 1)
  have called := returningTo_calls other gate eax
  have kept := returningTo_keeps other gate eax
  have restored := restores other cpu frame (frame ▸ called) (frame ▸ kept) rfl
  have same := (intRetHelper_restores called kept).mp restored
  have lost : eax = eax + 1 := same.eax
  simp at lost

/-- A keyboard interrupt takes the processor from `interrupted` and shows another terminal.  After
any steps of the others, the switch back ends in `int_ret_helper` with EAX as it comes to be by
then, whatever EAX was, so a process that differs from `interrupted` in EAX only makes the same
run and gets another value back. -/
theorem registers_never_restored {first : Kernel} {returnValue : Word} {before between : List Input}
    {left returning : Machine} {interrupted : Cpu} {wrapper : Word} {term : Int}
    {irq : IrqFrame} {frame frameBack : CallFrame} {tlb tlbBack : TlbUse} {scratch : Word}
    {control : Control} {after : Kernel} (started : FirstShell image first)
    (reached : (machineSystem image).run (Machine.start first returnValue) before = some machine)
    (leaves : (machineSystem image).step machine (.interrupt term
      (irqFrame interrupted (irqGate wrapper machine.kernel.tssEsp0)) frame tlb scratch) = some left)
    (away : (machineSystem image).Always
      (fun other => machine.kernel.oldTerminal ≠ other.kernel.oldTerminal) left between)
    (ran : (machineSystem image).run left between = some returning)
    (shows : returning.kernel.keyboardSwitch image machine.kernel.oldTerminal irq frameBack tlbBack =
      .done (control, after)) :
    ∃ ebp esp, control = .intRetHelper ebp esp ∧
      ¬ RestoresAll (irqGate wrapper machine.kernel.tssEsp0)
        (irqFrame interrupted (irqGate wrapper machine.kernel.tssEsp0)) ebp esp scratch := by
  have active := Machine.ShownActive.reached started reached
  have suspends := leaves_suspends active leaves (Ne.symm away.first)
  have back := (suspends.run away ran).shows (away.last ran) shows
  exact ⟨_, _, back, not_restoresAll interrupted _ scratch⟩

/-- A program in user mode with 1 in EAX and 0 in the other registers. -/
def countingProcess : Cpu where
  registers := ⟨1, 0, 0, 0, 0, 0, 0, 0, 0, 0⟩
  cs := 0x23
  ss := 0x2B
  memory _ := 0

/-- The first shell is left for a new terminal and shown again. -/
theorem there_and_back (process : Cpu) (wrapper : Word) :
    ∃ (first : Kernel) (left : Machine) (after : Kernel), FirstShell shellImage first ∧
      (machineSystem shellImage).step (Machine.start first 0) (.interrupt (1 : TerminalId)
        (irqFrame process (irqGate wrapper first.tssEsp0)) zeroedFrame cachedNowhere 0) = some left ∧
      first.oldTerminal ≠ left.kernel.oldTerminal ∧
      left.kernel.keyboardSwitch shellImage first.oldTerminal zeroedIrq zeroedFrame cachedNowhere =
        .done (.intRetHelper (irqFrame process (irqGate wrapper first.tssEsp0)).ebp_0
          (irqFrame process (irqGate wrapper first.tssEsp0)).esp_0, after) := by
  obtain ⟨first, started, launched⟩ := firstShell_exists shellImage_valid zeroedMemory zeroedFrame
  have nested := nested_first launched
  have shown : first.oldTerminal = 0 := launched.oldTerminal.trans (boot_oldTerminal _)
  have closed : (first.terminals 1).active = 0 := launched.inactive (by decide)
  have here : (Machine.start first 0).threads (Machine.start first 0).kernel.oldTerminal =
      some ⟨1, .user, []⟩ := by
    simp only [Machine.start, launched.cr3, Outcome.toOption_done, Option.map_some,
      Function.update_self]
  have active : (Machine.start first 0).ShownActive :=
    Machine.ShownActive.reached started (show (machineSystem shellImage).run _ [] = _ from rfl)
  have other : (1 : TerminalId) ≠ (Machine.start first 0).kernel.oldTerminal := by
    simp only [Machine.start, shown]
    decide
  have unmarked : 2 ∉ Thread.pids ⟨1, .user, []⟩ := by simp [Thread.pids]
  have unspilled : Thread.spill ⟨1, .user, []⟩ 0 = ⟨1, .user, []⟩ := rfl
  obtain ⟨left, _, leaves, shellStarted⟩ := shell_started shellImage_valid here (by simp) unmarked
    nested.current other closed (nested.findSlot (by decide)) (by decide)
    (irqFrame process (irqGate wrapper first.tssEsp0)) zeroedFrame cachedNowhere unspilled
  have away : first.oldTerminal ≠ left.kernel.oldTerminal := by
    rw [shellStarted.oldTerminal]
    exact Ne.symm other
  have suspends := leaves_suspends active leaves (Ne.symm away)
  obtain ⟨ebp, esp, after, shows⟩ := keyboardSwitch_active shellImage shellStarted.current away
    suspends.active zeroedIrq zeroedFrame cachedNowhere
  have control := suspends.shows away shows
  exact ⟨first, left, after, started, leaves, away, control ▸ shows⟩

theorem registers_never_restored_back :
    ∃ (first : Kernel) (left : Machine) (control : Control) (after : Kernel),
      FirstShell shellImage first ∧
      left.kernel.keyboardSwitch shellImage first.oldTerminal zeroedIrq zeroedFrame cachedNowhere =
        .done (control, after) ∧
      ∃ ebp esp, control = .intRetHelper ebp esp ∧
        ¬ RestoresAll (irqGate 0 first.tssEsp0) (irqFrame countingProcess (irqGate 0 first.tssEsp0))
          ebp esp 0 := by
  obtain ⟨first, left, after, started, leaves, away, shows⟩ := there_and_back countingProcess 0
  have reached : (machineSystem shellImage).run (Machine.start first 0) [] =
      some (Machine.start first 0) := rfl
  have stays : (machineSystem shellImage).Always
      (fun other => (Machine.start first 0).kernel.oldTerminal ≠ other.kernel.oldTerminal) left [] :=
    away
  have ran : (machineSystem shellImage).run left [] = some left := rfl
  have lost := registers_never_restored started reached leaves stays ran shows
  exact ⟨first, left, _, after, started, shows, lost⟩

/-- The process comes back with 0 in EAX instead of 1. -/
theorem registers_lost :
    ∃ (first : Kernel) (left : Machine) (after : Kernel) (ebp esp : Word) (cpu : Cpu),
      FirstShell shellImage first ∧
      (machineSystem shellImage).step (Machine.start first 0) (.interrupt (1 : TerminalId)
        (irqFrame countingProcess (irqGate 0 first.tssEsp0)) zeroedFrame cachedNowhere 0) =
        some left ∧
      left.kernel.keyboardSwitch shellImage first.oldTerminal zeroedIrq zeroedFrame cachedNowhere =
        .done (.intRetHelper ebp esp, after) ∧
      CallsIntRetHelper cpu ebp esp ∧
      SameWords cpu.memory (countingProcess.interrupt (irqGate 0 first.tssEsp0)).memory
        esp countingProcess.frame.length ∧
      countingProcess.registers.eax = 1 ∧ (intRetHelper cpu).registers.eax = 0 := by
  obtain ⟨first, left, after, started, leaves, _, shows⟩ := there_and_back countingProcess 0
  let gate := irqGate 0 first.tssEsp0
  have called := returningTo_calls countingProcess gate 0
  have kept := returningTo_keeps countingProcess gate 0
  refine ⟨first, left, after, _, _, returningTo countingProcess gate 0, started, leaves, shows, called,
    kept, rfl, ?_⟩
  rw [intRetHelper_registers called kept]
  simp only [returningTo]

end Ece391
