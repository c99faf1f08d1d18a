import Ece391.Interrupt.Linkage
import Ece391.Process.Slots

namespace Ece391

open Library Kernel

/-! # Switching tasks (scheduler.c)

`switch_task` saves the stack registers that it finds in `esp_0` and `ebp_0`.
Of the stubs only `irq1_wrapper` stores there, so what is saved is right as
long as the last keyboard interrupt came where the timer interrupt comes.
-/

namespace Kernel

/-- The terminal an entry of `tasks[]` points to. -/
def taskAt (kernel : Kernel) (index : Nat) : Outcome (Option TerminalId) :=
  match kernel.tasks index with
  | none => .done none
  | some task =>
      if range : 0 ≤ task ∧ task < 3 then .done (some ⟨task.toNat, by omega⟩) else .outOfBounds

/-- The loop of `switch_task` with `remaining` rounds to go. -/
def searchTask (kernel : Kernel) : Nat → Nat → Outcome (Option Nat)
  | 0, _ => .done none
  | remaining + 1, newTaskIdx => do
      let next := kernel.searchTask remaining ((newTaskIdx + 1) % MAXTERMS)
      match ← kernel.taskAt newTaskIdx with
      | none => next
      | some term => if (kernel.terminals term).active = 0 then next else return some newTaskIdx

/-- The task that the timer gives the processor to, with its index. -/
def selectTask (kernel : Kernel) : Outcome (Option (Nat × TerminalId × TerminalId)) := do
  match ← kernel.searchTask MAXTERMS ((kernel.currentTaskIdx + 1) % MAXTERMS) with
  | none => return none
  | some newTaskIdx =>
      if newTaskIdx = kernel.currentTaskIdx then return none
      else
        match ← kernel.taskAt kernel.currentTaskIdx with
        | none => .pageFault
        | some outgoing =>
            match ← kernel.taskAt newTaskIdx with
            | none => .pageFault
            | some incoming => return some (newTaskIdx, outgoing, incoming)

/-- `switch_task` once it has found another task. -/
def switchTasks (kernel : Kernel) (newTaskIdx : Nat) (outgoing incoming : TerminalId) :
    Control × Kernel :=
  let kernel := kernel.setTerminal outgoing
    { kernel.terminals outgoing with
      esp := kernel.esp_0
      ebp := kernel.ebp_0
      kernelEsp := kernel.tssEsp0
      cr3 := kernel.cr3 }
  let task := kernel.terminals incoming
  let kernel := { kernel with currentTaskIdx := newTaskIdx, tssEsp0 := stackTop task.programId }
  (.intRetHelper task.ebp task.esp, kernel.loadCr3 task.cr3)

def switchTask (kernel : Kernel) : Outcome (Control × Kernel) := do
  match ← kernel.selectTask with
  | none => return (.returns 0, kernel)
  | some (newTaskIdx, outgoing, incoming) => return kernel.switchTasks newTaskIdx outgoing incoming

end Kernel

/-- Beside the kernel: the programs that a timer interrupt has stopped and that
were not selected again, and for each switch of tasks what was saved and where
the timer interrupt came. -/
structure Timeshare where
  kernel : Kernel
  stopped : TerminalId → Option (Cpu × Gate)
  preempted : List (IrqFrame × IrqFrame)

/-- An event is a system call or a keyboard interrupt. -/
inductive TimedInput where
  | timer (process : Cpu) (wrapper : Word)
  | event (event : Event)

namespace Timeshare

def start (kernel : Kernel) : Timeshare := ⟨kernel, fun _ => none, []⟩

def savedFrame (kernel : Kernel) (term : TerminalId) : IrqFrame :=
  ⟨(kernel.terminals term).esp, (kernel.terminals term).ebp⟩

/-- The timer stops `outgoing` and selects `incoming`; a terminal is also
selected by being shown. -/
def step (image : Image) (state : Timeshare) : TimedInput → Option Timeshare
  | .timer process wrapper => do
      let selected ← state.kernel.selectTask.toOption
      let (_, after) ← state.kernel.switchTask.toOption
      match selected with
      | none => some { state with kernel := after }
      | some (_, outgoing, incoming) =>
          let gate := irqGate wrapper state.kernel.tssEsp0
          some
            { kernel := after
              stopped := Function.update
                (Function.update state.stopped outgoing (some (process, gate))) incoming none
              preempted := state.preempted ++ [(savedFrame after outgoing, irqFrame process gate)] }
  | .event event => do
      let after ← state.kernel.step image event
      some
        { state with
          kernel := after
          stopped :=
            if after.oldTerminal = state.kernel.oldTerminal then state.stopped
            else Function.update state.stopped after.oldTerminal none }

/-- What was saved is where the timer interrupts came, and a stopped task goes
on from there when it is selected. -/
structure Resumes (state : Timeshare) : Prop where
  saved : ∀ switch ∈ state.preempted, switch.1 = switch.2
  kept : ∀ term process gate, state.stopped term = some (process, gate) →
    savedFrame state.kernel term = irqFrame process gate
  continues : ∀ term process gate, state.stopped term = some (process, gate) →
    ∀ cpu : Cpu, CallsIntRetHelper cpu (state.kernel.terminals term).ebp
        (state.kernel.terminals term).esp →
      SameWords cpu.memory (process.interrupt gate).memory (irqFrame process gate).esp_0
        process.frame.length →
      (intRetHelper cpu).registers.eip = process.registers.eip

/-- A timer interrupt that switches tasks comes where the last keyboard
interrupt came, and so does a keyboard interrupt that leaves a terminal whose
program the timer has stopped. -/
def InPlace (state : Timeshare) : TimedInput → Prop
  | .timer process wrapper =>
      ∀ selected, state.kernel.selectTask = .done (some selected) →
        ⟨state.kernel.esp_0, state.kernel.ebp_0⟩ =
          irqFrame process (irqGate wrapper state.kernel.tssEsp0)
  | .event (.terminalSwitch term irq _ _) =>
      ∀ target : TerminalId, (target : Int) = term → target ≠ state.kernel.oldTerminal →
        ∀ process gate, state.stopped state.kernel.oldTerminal = some (process, gate) →
          irq = irqFrame process gate
  | .event _ => True

end Timeshare

def timeshareSystem (image : Image) : Transitions Timeshare TimedInput := ⟨Timeshare.step image⟩

variable {image : Image} {kernel after : Kernel} {state next : Timeshare}

/-- The right frame is all that a task needs to go on. -/
theorem Timeshare.Resumes.of_kept (saved : ∀ switch ∈ state.preempted, switch.1 = switch.2)
    (kept : ∀ term process gate, state.stopped term = some (process, gate) →
      savedFrame state.kernel term = irqFrame process gate) : state.Resumes where
  saved := saved
  kept := kept
  continues term process gate isStopped cpu called words := by
    have same := kept term process gate isStopped
    have ebp := congrArg IrqFrame.ebp_0 same
    have esp := congrArg IrqFrame.esp_0 same
    simp only [savedFrame] at ebp esp
    rw [ebp, esp] at called
    rw [intRetHelper_registers called words]

theorem switchTasks_outgoing (newTaskIdx : Nat) (outgoing incoming : TerminalId) :
    Timeshare.savedFrame (kernel.switchTasks newTaskIdx outgoing incoming).2 outgoing =
      ⟨kernel.esp_0, kernel.ebp_0⟩ := by
  simp only [Timeshare.savedFrame, Kernel.switchTasks, Kernel.loadCr3, Kernel.setTerminal,
    Function.update_self]

theorem switchTasks_other {newTaskIdx : Nat} {outgoing incoming term : TerminalId}
    (other : term ≠ outgoing) :
    Timeshare.savedFrame (kernel.switchTasks newTaskIdx outgoing incoming).2 term =
      Timeshare.savedFrame kernel term := by
  simp only [Timeshare.savedFrame, Kernel.switchTasks, Kernel.loadCr3, Kernel.setTerminal,
    Function.update_of_ne other]

/-- The state after the timer has stopped `outgoing`. -/
def Timeshare.preempt (state : Timeshare) (process : Cpu) (wrapper : Word) (newTaskIdx : Nat)
    (outgoing incoming : TerminalId) : Timeshare :=
  let gate := irqGate wrapper state.kernel.tssEsp0
  { kernel := (state.kernel.switchTasks newTaskIdx outgoing incoming).2
    stopped := Function.update (Function.update state.stopped outgoing (some (process, gate)))
      incoming none
    preempted := state.preempted ++
      [(⟨state.kernel.esp_0, state.kernel.ebp_0⟩, irqFrame process gate)] }

theorem step_timer (image : Image) (process : Cpu) (wrapper : Word) {newTaskIdx : Nat}
    {outgoing incoming : TerminalId}
    (selects : state.kernel.selectTask = .done (some (newTaskIdx, outgoing, incoming))) :
    state.step image (.timer process wrapper) =
      some (state.preempt process wrapper newTaskIdx outgoing incoming) := by
  have switches : state.kernel.switchTask =
      .done (state.kernel.switchTasks newTaskIdx outgoing incoming) := by
    simp only [Kernel.switchTask, selects, Outcome.done_bind, Outcome.pure_eq]
  simp only [Timeshare.step, selects, switches, Outcome.toOption_done, Option.bind_eq_bind,
    Option.bind_some, Timeshare.preempt, switchTasks_outgoing]

theorem timer_eq_some {process : Cpu} {wrapper : Word}
    (stepped : state.step image (.timer process wrapper) = some next) :
    (state.kernel.selectTask = .done none ∧ next = state) ∨
      ∃ newTaskIdx outgoing incoming,
        state.kernel.selectTask = .done (some (newTaskIdx, outgoing, incoming)) ∧
        next = state.preempt process wrapper newTaskIdx outgoing incoming := by
  obtain ⟨selected, selects, rest⟩ := Option.bind_eq_some_iff.mp stepped
  obtain ⟨⟨control, after⟩, switches, result⟩ := Option.bind_eq_some_iff.mp rest
  have isSelected := Outcome.toOption_eq_some.mp selects
  have switched := Outcome.toOption_eq_some.mp switches
  simp only [Kernel.switchTask, isSelected, Outcome.done_bind, Outcome.pure_eq] at switched
  cases selected with
  | none =>
      cases switched
      cases result
      exact .inl ⟨isSelected, rfl⟩
  | some tasks =>
      obtain ⟨newTaskIdx, outgoing, incoming⟩ := tasks
      have same := Outcome.done.inj switched
      have isAfter : after = (state.kernel.switchTasks newTaskIdx outgoing incoming).2 :=
        (congrArg Prod.snd same).symm
      subst isAfter
      cases result
      refine .inr ⟨newTaskIdx, outgoing, incoming, isSelected, ?_⟩
      simp only [Timeshare.preempt, switchTasks_outgoing]

theorem Timeshare.Resumes.timer {process : Cpu} {wrapper : Word} (resumes : state.Resumes)
    (inPlace : state.InPlace (.timer process wrapper))
    (stepped : state.step image (.timer process wrapper) = some next) : next.Resumes := by
  rcases timer_eq_some stepped with ⟨_, rfl⟩ | ⟨newTaskIdx, outgoing, incoming, selects, rfl⟩
  · exact resumes
  have place := inPlace _ selects
  refine .of_kept (fun switch member => ?_) fun term other gate isStopped => ?_
  · rcases List.mem_append.mp member with older | newest
    · exact resumes.saved switch older
    · obtain rfl := List.mem_singleton.mp newest
      exact place
  · simp only [Timeshare.preempt] at isStopped ⊢
    by_cases selected : term = incoming
    · rw [selected, Function.update_self] at isStopped
      cases isStopped
    rw [Function.update_of_ne selected] at isStopped
    by_cases same : term = outgoing
    · subst same
      rw [Function.update_self] at isStopped
      cases isStopped
      rw [switchTasks_outgoing]
      exact place
    · rw [Function.update_of_ne same] at isStopped
      rw [switchTasks_other same]
      exact resumes.kept term other gate isStopped

/-- The switch of tasks is recorded with what was saved. -/
theorem timer_breaks {process : Cpu} {wrapper : Word}
    (misplaced : ¬ state.InPlace (.timer process wrapper))
    (stepped : state.step image (.timer process wrapper) = some next) : ¬ next.Resumes := by
  simp only [Timeshare.InPlace, not_forall] at misplaced
  obtain ⟨selected, selects, differs⟩ := misplaced
  rcases timer_eq_some stepped with ⟨none, _⟩ | ⟨newTaskIdx, outgoing, incoming, _, rfl⟩
  · rw [selects] at none
    cases none
  · intro resumes
    exact differs (resumes.saved _ (List.mem_append_right _ (List.mem_singleton_self _)))

open Timeshare (savedFrame)

/-- A launch shows another program on the terminal and keeps its registers. -/
theorem Kernel.Launched.savedFrame {frame : CallFrame} {cur slot : Nat}
    (launched : Launched kernel frame cur slot after) (term : TerminalId) :
    savedFrame after term = savedFrame kernel term := by
  simp only [Timeshare.savedFrame, launched.terminals, Function.update_apply]
  split
  · rename_i same; rw [same]
  · rfl

theorem openTerminal_savedFrame (target term : TerminalId) :
    savedFrame (kernel.openTerminal target) term = savedFrame kernel term := by
  simp only [Timeshare.savedFrame, openTerminal, Function.update_apply]
  split
  · rename_i same; rw [same]
  · rfl

theorem keyboardSwitch_saves {target : TerminalId} {irq : IrqFrame} {frame : CallFrame}
    {tlb : TlbUse} {control : Control} (different : target ≠ kernel.oldTerminal)
    (switched : kernel.keyboardSwitch image target irq frame tlb = .done (control, after)) :
    after.oldTerminal = target ∧ ∀ term, savedFrame after term =
      if term = kernel.oldTerminal then irq else savedFrame kernel term := by
  rw [keyboardSwitch_other different] at switched
  obtain ⟨shown, leaves, rest⟩ := Outcome.bind_eq_done.mp switched
  obtain ⟨cur, leaving⟩ := leaveTerminal_eq_done leaves
  have shownFrame : ∀ term, savedFrame shown term =
      if term = kernel.oldTerminal then irq else savedFrame kernel term := by
    intro term
    simp only [Timeshare.savedFrame, leaving.terminals, Function.update_apply]
    split
    · rfl
    · rfl
  split at rest
  · rcases execute_eq_done rest with ⟨_, rfl⟩ | ⟨_, _, _, _, launched⟩
    · refine ⟨leaving.oldTerminal, fun term => ?_⟩
      rw [openTerminal_savedFrame, shownFrame]
    · refine ⟨launched.oldTerminal.trans leaving.oldTerminal, fun term => ?_⟩
      rw [launched.savedFrame, openTerminal_savedFrame, shownFrame]
  · have isAfter : after = (shown.resumeTerminal target tlb).2 :=
      (congrArg Prod.snd (Outcome.done.inj rest)).symm
    subst isAfter
    refine ⟨?_, fun term => ?_⟩
    · rw [resumeTerminal_oldTerminal, leaving.oldTerminal]
    · rw [← shownFrame]
      simp only [Timeshare.savedFrame, resumeTerminal_terminals]

/-- A step that shows no other terminal keeps all saved registers. -/
theorem step_savedFrame {event : Event} (stepped : kernel.step image event = some after) :
    (after.oldTerminal = kernel.oldTerminal ∧
        ∀ term, savedFrame after term = savedFrame kernel term) ∨
      ∃ (target : TerminalId) (irq : IrqFrame) (frame : CallFrame) (tlb : TlbUse)
        (control : Control), event = .terminalSwitch target irq frame tlb ∧
        target ≠ kernel.oldTerminal ∧
        kernel.keyboardSwitch image target irq frame tlb = .done (control, after) := by
  cases step_effect stepped with
  | refused returned => exact .inl ⟨rfl, fun _ => rfl⟩
  | quiet quiet other =>
      refine .inl ⟨quiet.oldTerminal, fun term => ?_⟩
      simp only [Timeshare.savedFrame, quiet.terminals]
  | launched returned launched => exact .inl ⟨launched.oldTerminal, launched.savedFrame⟩
  | left left =>
      refine .inl ⟨left.oldTerminal, fun term => ?_⟩
      simp only [Timeshare.savedFrame, left.terminals, Function.update_apply]
      split
      · rename_i same; rw [same]
      · rfl
  | restarted restarted =>
      rw [restarted.state]
      exact .inl ⟨rfl, fun _ => rfl⟩
  | opened different | abandoned different | resumed different =>
      obtain ⟨⟨control, next⟩, returned, rfl⟩ := Option.map_eq_some_iff.mp stepped
      exact .inr ⟨_, _, _, _, control, rfl, different, Outcome.toOption_eq_some.mp returned⟩

theorem event_eq_some {event : Event} (stepped : state.step image (.event event) = some next) :
    ∃ after, state.kernel.step image event = some after ∧
      next = { state with
        kernel := after
        stopped :=
          if after.oldTerminal = state.kernel.oldTerminal then state.stopped
          else Function.update state.stopped after.oldTerminal none } := by
  obtain ⟨after, kernelStep, result⟩ := Option.bind_eq_some_iff.mp stepped
  exact ⟨after, kernelStep, (Option.some.inj result).symm⟩

theorem Timeshare.Resumes.event {event : Event} (resumes : state.Resumes)
    (inPlace : state.InPlace (.event event))
    (stepped : state.step image (.event event) = some next) : next.Resumes := by
  obtain ⟨after, kernelStep, rfl⟩ := event_eq_some stepped
  refine .of_kept resumes.saved fun term process gate isStopped => ?_
  dsimp only at isStopped ⊢
  rcases step_savedFrame kernelStep with
    ⟨sameTerminal, sameFrames⟩ | ⟨target, irq, frame, tlb, control, rfl, different, switched⟩
  · rw [if_pos sameTerminal] at isStopped
    exact (sameFrames term).trans (resumes.kept term process gate isStopped)
  · obtain ⟨isShown, frames⟩ := keyboardSwitch_saves different switched
    have moved : after.oldTerminal ≠ state.kernel.oldTerminal := by rwa [isShown]
    rw [if_neg moved, isShown] at isStopped
    by_cases shown : term = target
    · rw [shown, Function.update_self] at isStopped
      cases isStopped
    rw [Function.update_of_ne shown] at isStopped
    have frameAfter := frames term
    by_cases left : term = state.kernel.oldTerminal
    · subst left
      rw [if_pos rfl] at frameAfter
      exact frameAfter.trans (inPlace target rfl different process gate isStopped)
    · rw [if_neg left] at frameAfter
      exact frameAfter.trans (resumes.kept term process gate isStopped)

/-- Leaving the terminal of a stopped task puts other registers in their place. -/
theorem event_breaks {event : Event} (misplaced : ¬ state.InPlace (.event event))
    (stepped : state.step image (.event event) = some next) : ¬ next.Resumes := by
  cases event with
  | terminalSwitch term irq frame tlb =>
      simp only [Timeshare.InPlace, not_forall] at misplaced
      obtain ⟨target, rfl, different, process, gate, isStopped, differs⟩ := misplaced
      obtain ⟨after, kernelStep, rfl⟩ := event_eq_some stepped
      obtain ⟨⟨control, _⟩, returned, rfl⟩ := Option.map_eq_some_iff.mp kernelStep
      obtain ⟨isShown, frames⟩ :=
        keyboardSwitch_saves different (Outcome.toOption_eq_some.mp returned)
      rw [isShown, if_neg different]
      intro resumes
      have stillStopped := Function.update_of_ne (Ne.symm different) none state.stopped
      have kept := resumes.kept _ process gate (stillStopped.trans isStopped)
      have saved := frames state.kernel.oldTerminal
      rw [if_pos rfl] at saved
      exact differs (saved.symm.trans kept)
  | _ => exact absurd trivial misplaced

/-- In every run the timer stops tasks where it finds them, and they go on from
there, if and only if every interrupt comes in place. -/
theorem preemption_resumes_iff {final : Timeshare} {inputs : List TimedInput}
    (ran : (timeshareSystem image).run (Timeshare.start kernel) inputs = some final) :
    (timeshareSystem image).Always Timeshare.Resumes (Timeshare.start kernel) inputs ↔
      (timeshareSystem image).Respects Timeshare.InPlace (Timeshare.start kernel) inputs := by
  refine Transitions.always_iff_respects ?_ (fun _ => id) ?_ ?_ ran
  · intro state input next resumes inPlace stepped
    have taken : state.step image input = some next := stepped
    cases input with
    | timer process wrapper => exact resumes.timer inPlace taken
    | event event => exact resumes.event inPlace taken
  · intro state input next _ misplaced stepped
    have taken : state.step image input = some next := stepped
    cases input with
    | timer process wrapper => exact timer_breaks misplaced taken
    | event event => exact event_breaks misplaced taken
  · exact .of_kept (fun _ member => by cases member) fun _ _ _ isStopped => by cases isStopped

/-- Two terminals with a shell each, both in the run queue; the first one runs. -/
def twoTasks : Kernel :=
  { zeroedMemory with
    openTasks := fun i => if i = 1 ∨ i = 2 then 0 else -1
    terminals := fun term =>
      if term = 0 then ⟨0, 0, fun _ => 0, 0, 0, 0, .task1PageDirectory, 0, 1, 1⟩
      else if term = 1 then ⟨0, 0, fun _ => 0, 0, 0, 0, .task2PageDirectory, 0, 2, 1⟩
      else ⟨0, 0, fun _ => 0, 0, 0, 0, .null, 0, 0, 0⟩
    tasks := fun i => if i = 0 then some 0 else if i = 1 then some 1 else none
    cr3 := .task1PageDirectory
    tssEsp0 := stackTop 1 }

/-- A program in user mode with this EBP and 0 in its other registers. -/
def programAt (ebp : Word) : Cpu where
  registers := ⟨0, 0, 0, 0, 0, 0, ebp, 0, 0, 0⟩
  cs := 0x23
  ss := 0x2B
  memory _ := 0

/-- The program presses on from EBP 0, where a key was pressed, to EBP 1, where
the timer stops it. -/
def keyThenTimer : List TimedInput :=
  [.event (.terminalSwitch (-1) (irqFrame (programAt 0) (irqGate 0 (stackTop 1))) zeroedFrame
    cachedNowhere), .timer (programAt 1) 0]

theorem keyThenTimer_runs (image : Image) :
    ∃ final, (timeshareSystem image).run (Timeshare.start twoTasks) keyThenTimer = some final ∧
      final.preempted = [(irqFrame (programAt 0) (irqGate 0 (stackTop 1)),
        irqFrame (programAt 1) (irqGate 0 (stackTop 1)))] := by
  let irq := irqFrame (programAt 0) (irqGate 0 (stackTop 1))
  let pressed : Kernel := { twoTasks with esp_0 := irq.esp_0, ebp_0 := irq.ebp_0 }
  let afterKey : Timeshare := ⟨pressed, fun _ => none, []⟩
  have first : (timeshareSystem image).step (Timeshare.start twoTasks)
      (.event (.terminalSwitch (-1) irq zeroedFrame cachedNowhere)) = some afterKey := rfl
  have selects : pressed.selectTask = .done (some (1, 0, 1)) := rfl
  have second : (timeshareSystem image).step afterKey (.timer (programAt 1) 0) =
      some (afterKey.preempt (programAt 1) 0 1 0 1) :=
    step_timer image (programAt 1) 0 selects
  exact ⟨_, Transitions.run_cons.mpr ⟨afterKey, first, Transitions.run_singleton.trans second⟩, rfl⟩

theorem preemption_resumes_iff_keyThenTimer :
    (timeshareSystem shellImage).Always Timeshare.Resumes (Timeshare.start twoTasks) keyThenTimer ↔
      (timeshareSystem shellImage).Respects Timeshare.InPlace (Timeshare.start twoTasks)
        keyThenTimer := by
  obtain ⟨final, ran, _⟩ := keyThenTimer_runs shellImage
  exact preemption_resumes_iff ran

/-- The timer interrupt came at EBP 1 and `switch_task` saves 0. -/
theorem preemption_saves_stale :
    ∃ final, (timeshareSystem shellImage).run (Timeshare.start twoTasks) keyThenTimer = some final ∧
      ¬ final.Resumes := by
  obtain ⟨final, ran, recorded⟩ := keyThenTimer_runs shellImage
  refine ⟨final, ran, fun resumes => ?_⟩
  have same := resumes.saved _ (recorded ▸ List.mem_singleton_self _)
  exact absurd (congrArg IrqFrame.ebp_0 same) (by decide)

end Ece391
