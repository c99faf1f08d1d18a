import Ece391.Interrupt.Preemption
import Ece391.Interrupt.RtcRead
import Ece391.Process.RunQueue
import Ece391.Terminal.Keys

namespace Ece391

open Library Kernel

/-! # Acknowledging interrupts (i8259.c, scheduler.c, terminal.c)

Each handler comes with the bytes it sends to the command ports of the two
interrupt controllers.  An entry of `tasks[]` that is not the address of one of
the terminals is followed into whatever memory is there.
-/

def PIC1_COMMAND : Nat := 0x20
def PIC2_COMMAND : Nat := 0xA0
def EOI : Nat := 0x60

/-- An `outb`. -/
structure PortWrite where
  value : Nat
  port : Nat
deriving DecidableEq, Repr

def sendEoi (irqNum : Nat) : List PortWrite :=
  if irqNum ≥ 8 then [⟨EOI ||| (irqNum - 8), PIC2_COMMAND⟩, ⟨EOI ||| 2, PIC1_COMMAND⟩]
  else [⟨EOI ||| irqNum, PIC1_COMMAND⟩]

/-- What the handlers work on; `outside` is what lies where `terminals[]` has no
element. -/
structure IrqState where
  driver : TerminalDriver
  outside : Int → Terminal

/-- What an interrupt finds: the scancode at the keyboard's port, and what the
stubs, the stack and the processor's caches hold. -/
structure Delivery where
  scancode : Byte
  irq : IrqFrame
  frame : CallFrame
  tlb : TlbUse
  cached : Nat → Bool

theorem terminal_inRange {term : Int} (range : 0 ≤ term ∧ term ≤ 2) : term.toNat < 3 := by omega

/-- `terminal_switch` with what it sends. -/
def Kernel.acknowledgedSwitch (image : Image) (term : Int) (frame : CallFrame) (tlb : TlbUse)
    (kernel : Kernel) : Outcome (Control × Kernel × List PortWrite) :=
  if range : 0 ≤ term ∧ term ≤ 2 then
    let target : TerminalId := ⟨term.toNat, terminal_inRange range⟩
    if kernel.oldTerminal = target then .done (.returns 0, kernel, [])
    else do
      let kernel ← kernel.leaveTerminal target tlb
      if (kernel.terminals target).active = 0 then do
        let (control, kernel) ← (kernel.openTerminal target).execute image (some shellCommand) frame
        return (control, kernel, sendEoi 1)
      else
        let (control, kernel) := kernel.resumeTerminal target tlb
        return (control, kernel, sendEoi 1)
  else .done (.returns 0, kernel, [])

namespace IrqState

variable (image : Image) (behind : BehindTables)

def setKernel (state : IrqState) (kernel : Kernel) : IrqState :=
  { state with driver := { state.driver with kernel } }

/-- `*tasks[index]` for an entry `task`. -/
def terminal (state : IrqState) (task : Int) : Terminal :=
  match terminalAt task with
  | some term => state.driver.kernel.terminals term
  | none => state.outside task

def setTerminal (state : IrqState) (task : Int) (terminal : Terminal) : IrqState :=
  match terminalAt task with
  | some term => state.setKernel (state.driver.kernel.setTerminal term terminal)
  | none => { state with outside := Function.update state.outside task terminal }

def activeTask (state : IrqState) (index : Nat) : Bool :=
  match state.driver.kernel.tasks index with
  | none => false
  | some task => (state.terminal task).active ≠ 0

/-- The loop of `switch_task` with `remaining` rounds to go. -/
def searchTask (state : IrqState) : Nat → Nat → Option Nat
  | 0, _ => none
  | remaining + 1, newTaskIdx =>
      if state.activeTask newTaskIdx then some newTaskIdx
      else state.searchTask remaining ((newTaskIdx + 1) % MAXTERMS)

/-- `switch_task` once it has found another task. -/
def switchTasks (state : IrqState) (newTaskIdx : Nat) :
    Outcome (Control × IrqState × List PortWrite) :=
  let kernel := state.driver.kernel
  match kernel.tasks kernel.currentTaskIdx, kernel.tasks newTaskIdx with
  | some outgoing, some incoming =>
      let state := state.setTerminal outgoing
        { state.terminal outgoing with
          esp := kernel.esp_0
          ebp := kernel.ebp_0
          kernelEsp := kernel.tssEsp0
          cr3 := kernel.cr3 }
      let task := state.terminal incoming
      let kernel := { state.driver.kernel with
        currentTaskIdx := newTaskIdx, tssEsp0 := stackTop task.programId }
      .done (.intRetHelper task.ebp task.esp, state.setKernel (kernel.loadCr3 task.cr3), sendEoi 0)
  | _, _ => .pageFault

def switchTask (state : IrqState) : Outcome (Control × IrqState × List PortWrite) :=
  let currentTaskIdx := state.driver.kernel.currentTaskIdx
  match state.searchTask MAXTERMS ((currentTaskIdx + 1) % MAXTERMS) with
  | none => .done (.returns 0, state, sendEoi 0)
  | some newTaskIdx =>
      if newTaskIdx = currentTaskIdx then .done (.returns 0, state, sendEoi 0)
      else state.switchTasks newTaskIdx

def irq0 (_ : Delivery) (state : IrqState) : Outcome (Control × IrqState × List PortWrite) :=
  state.switchTask

def irq1 (delivery : Delivery) (state : IrqState) :
    Outcome (Control × IrqState × List PortWrite) := do
  let (term, driver) ←
    state.driver.keyHandled behind delivery.scancode delivery.irq delivery.cached
  match term with
  | none => return (.returns 0, { state with driver }, [])
  | some term => do
      let kernel := { driver.kernel with esp_0 := delivery.irq.esp_0, ebp_0 := delivery.irq.ebp_0 }
      let (control, kernel, writes) ←
        kernel.acknowledgedSwitch image term delivery.frame delivery.tlb
      return (control, { state with driver := { driver with kernel } }, writes)

def irq8 (_ : Delivery) (state : IrqState) : Outcome (Control × IrqState × List PortWrite) :=
  .done (.returns 0, state.setKernel state.driver.kernel.rtcInterrupt, [])

/-- `irq_functions[16]` -/
def irqFunctions (irqNum : Fin 16) :
    Option (Delivery → IrqState → Outcome (Control × IrqState × List PortWrite)) :=
  match irqNum with
  | 0 => some irq0
  | 1 => some (irq1 image behind)
  | 8 => some irq8
  | _ => none

/-- `if (handler) handler();` -/
def callHandler (irqNum : Fin 16) (delivery : Delivery) (state : IrqState) :
    Outcome (Control × IrqState × List PortWrite) :=
  match irqFunctions image behind irqNum with
  | some handler => handler delivery state
  | none => .done (.returns 0, state, [])

/-- A handler that leaves the kernel does not come back here. -/
def irqHandler (irqNum : Fin 16) (delivery : Delivery) (state : IrqState) :
    Outcome (Control × IrqState × List PortWrite) := do
  let (control, state, writes) ← state.callHandler image behind irqNum delivery
  match control with
  | .returns _ => return (.returns 0, state, writes ++ sendEoi irqNum)
  | control => return (control, state, writes)

end IrqState

variable {image : Image} {behind : BehindTables} {state after : IrqState} {kernel : Kernel}
  {control : Control} {writes : List PortWrite} {delivery : Delivery} {irqNum : Fin 16}

theorem execute_shell (image : Image) (kernel : Kernel) (frame : CallFrame) :
    kernel.execute image (some shellCommand) frame =
      (checkExecutable image shellCommand frame.buf >>= fun checked =>
        match checked with
        | none => return (.returns (-1), kernel)
        | some entryPoint =>
            kernel.launch image shellCommand (commandArgument shellCommand) entryPoint frame) := by
  have parsed := parseCommand_short shellCommand_short.name shellCommand_short.argument
  rw [commandName_shellCommand] at parsed
  rw [Kernel.execute, parsed]
  rfl

/-- `execute` of the shell comes back if and only if the check refuses it. -/
theorem execute_shell_returns {frame : CallFrame} {next : Kernel}
    (done : kernel.execute image (some shellCommand) frame = .done (control, next)) :
    (∃ value, control = .returns value) ↔
      checkExecutable image shellCommand frame.buf = .done none := by
  rw [execute_shell] at done
  obtain ⟨entry, checked, rest⟩ := Outcome.bind_eq_done.mp done
  rw [checked]
  cases entry with
  | none =>
      cases rest
      exact ⟨fun _ => rfl, fun _ => ⟨-1, rfl⟩⟩
  | some entry =>
      obtain ⟨left, _⟩ := launch_eq_done rest
      rw [left]
      exact ⟨nofun, nofun⟩

theorem acknowledgedSwitch_terminalSwitch (image : Image) (term : Int) (frame : CallFrame)
    (tlb : TlbUse) (kernel : Kernel) :
    (do
      let (control, next, _) ← kernel.acknowledgedSwitch image term frame tlb
      return (control, next)) = kernel.terminalSwitch image term frame tlb := by
  unfold acknowledgedSwitch terminalSwitch
  split
  · dsimp only
    split
    · rfl
    · rw [switchTo, Outcome.bind_assoc]
      congr 1
      funext shown
      split
      · rw [Outcome.bind_assoc]
        cases (shown.openTerminal _).execute image (some shellCommand) frame <;> rfl
      · rfl
  · rfl

/-- A switch that is ignored sends nothing.  The others send one acknowledgement,
and come back if and only if they open a terminal that gets no shell. -/
theorem acknowledgedSwitch_writes {term : Int} {frame : CallFrame} {tlb : TlbUse} {next : Kernel}
    (done : kernel.acknowledgedSwitch image term frame tlb = .done (control, next, writes)) :
    (control = .returns 0 ∧ writes = [] ∧
        ∀ target : TerminalId, (target : Int) = term → target = kernel.oldTerminal) ∨
      ∃ target : TerminalId, (target : Int) = term ∧ target ≠ kernel.oldTerminal ∧
        kernel.cr3 ≠ .null ∧ writes = sendEoi 1 ∧
        ((∃ value, control = .returns value) ↔ (kernel.terminals target).active = 0 ∧
          checkExecutable image shellCommand frame.buf = .done none) := by
  unfold acknowledgedSwitch at done
  split at done
  · rename_i range
    dsimp only at done
    split at done
    · rename_i shown
      cases done
      exact .inl ⟨rfl, rfl, fun target same => by rw [shown]; exact Fin.ext (by simp only; omega)⟩
    · rename_i different
      obtain ⟨left, leaves, rest⟩ := Outcome.bind_eq_done.mp done
      obtain ⟨cur, leaving⟩ := leaveTerminal_eq_done leaves
      have directory : kernel.cr3 ≠ .null := by
        intro null
        have current := leaving.current
        rw [null] at current
        cases current
      have sameActive : left.terminals ⟨term.toNat, by omega⟩ =
          kernel.terminals ⟨term.toNat, by omega⟩ := by
        rw [leaving.terminals, Function.update_of_ne (Ne.symm different)]
      refine .inr ⟨⟨term.toNat, by omega⟩, Int.toNat_of_nonneg range.1, Ne.symm different,
        directory, ?_⟩
      rw [sameActive] at rest
      split at rest
      · rename_i inactive
        obtain ⟨⟨control', started⟩, executed, returned⟩ := Outcome.bind_eq_done.mp rest
        cases returned
        refine ⟨rfl, (execute_shell_returns executed).trans ?_⟩
        simp only [inactive, true_and]
      · rename_i active
        cases rest
        refine ⟨rfl, ?_, fun inactive => absurd inactive.1 active⟩
        rintro ⟨value, returned⟩
        cases returned
  · rename_i outside
    cases done
    exact .inl ⟨rfl, rfl, fun target same => absurd ⟨by omega, by omega⟩ outside⟩

theorem findProgramid_exists {cr3 : Cr3} (directory : cr3 ≠ .null) :
    ∃ programId, findProgramid cr3 = .done programId := by
  cases cr3 with
  | null => exact absurd rfl directory
  | _ => exact ⟨_, rfl⟩

/-- A terminal that is opened and gets no shell is abandoned. -/
theorem acknowledgedSwitch_abandons {target : TerminalId} {frame : CallFrame} (tlb : TlbUse)
    (hidden : target ≠ kernel.oldTerminal) (inactive : (kernel.terminals target).active = 0)
    (directory : kernel.cr3 ≠ .null)
    (refused : checkExecutable image shellCommand frame.buf = .done none) :
    ∃ next, kernel.acknowledgedSwitch image (target : Nat) frame tlb =
      .done (.returns (-1), next, sendEoi 1) := by
  obtain ⟨cur, current⟩ := findProgramid_exists directory
  obtain ⟨shown, leaves⟩ : ∃ shown, kernel.leaveTerminal target tlb = .done shown := by
    unfold leaveTerminal saveTerminal
    rw [current]
    exact ⟨_, rfl⟩
  obtain ⟨_, leaving⟩ := leaveTerminal_eq_done leaves
  have still : (shown.terminals target).active = 0 := by
    rw [leaving.terminals, Function.update_of_ne hidden, inactive]
  have isTarget : (⟨((target : Nat) : Int).toNat, by omega⟩ : TerminalId) = target :=
    Fin.ext (Int.toNat_natCast _)
  refine ⟨shown.openTerminal target, ?_⟩
  unfold acknowledgedSwitch
  rw [dif_pos (by omega)]
  dsimp only
  rw [isTarget, if_neg (Ne.symm hidden), leaves, Outcome.done_bind, if_pos still, execute_shell,
    refused]
  rfl

namespace IrqState

/-- Another entry of `tasks[]` than the current one is a terminal in use. -/
def OtherTask (state : IrqState) : Prop :=
  ∃ index < MAXTERMS, index ≠ state.driver.kernel.currentTaskIdx ∧ state.activeTask index = true

theorem searchTask_eq (state : IrqState) {first second third : Nat}
    (isSecond : (first + 1) % MAXTERMS = second) (isThird : (second + 1) % MAXTERMS = third) :
    state.searchTask MAXTERMS first =
      if state.activeTask first then some first
      else if state.activeTask second then some second
      else if state.activeTask third then some third
      else none := by
  rw [← isThird, ← isSecond]
  rfl

/-- The loop comes to the current entry last. -/
theorem searchTask_other (state : IrqState) :
    (∃ index, state.searchTask MAXTERMS ((state.driver.kernel.currentTaskIdx + 1) % MAXTERMS) =
        some index ∧ index ≠ state.driver.kernel.currentTaskIdx) ↔ state.OtherTask := by
  unfold OtherTask
  generalize state.driver.kernel.currentTaskIdx = current
  generalize isFirst : (current + 1) % MAXTERMS = first
  generalize isSecond : (first + 1) % MAXTERMS = second
  generalize isThird : (second + 1) % MAXTERMS = third
  rw [searchTask_eq state isSecond isThird]
  simp only [MAXTERMS] at isFirst isSecond isThird ⊢
  constructor
  · rintro ⟨index, found, other⟩
    have active : state.activeTask index = true ∧
        (index = first ∨ index = second ∨ index = third) := by
      split at found
      · cases found
        exact ⟨‹_›, .inl rfl⟩
      · split at found
        · cases found
          exact ⟨‹_›, .inr (.inl rfl)⟩
        · obtain ⟨isActive, same⟩ := Option.ite_none_right_eq_some.mp found
          cases same
          exact ⟨isActive, .inr (.inr rfl)⟩
    exact ⟨index, by omega, other, active.1⟩
  · rintro ⟨index, inside, other, active⟩
    by_cases atFirst : state.activeTask first = true
    · exact ⟨first, if_pos atFirst, by omega⟩
    rw [if_neg atFirst]
    by_cases atSecond : state.activeTask second = true
    · exact ⟨second, if_pos atSecond, by omega⟩
    rw [if_neg atSecond]
    have last : index = third := by
      have notFirst : index ≠ first := fun same => atFirst (same ▸ active)
      have notSecond : index ≠ second := fun same => atSecond (same ▸ active)
      omega
    exact ⟨third, if_pos (last ▸ active), last ▸ other⟩

theorem switchTasks_writes {newTaskIdx : Nat}
    (done : state.switchTasks newTaskIdx = .done (control, after, writes)) :
    (∃ ebp esp, control = .intRetHelper ebp esp) ∧ writes = sendEoi 0 := by
  unfold switchTasks at done
  dsimp only at done
  split at done
  · cases done
    exact ⟨⟨_, _, rfl⟩, rfl⟩
  · cases done

/-- One acknowledgement either way; without another task it is not the last. -/
theorem switchTask_writes (done : state.switchTask = .done (control, after, writes)) :
    writes = sendEoi 0 ∧ ((∃ value, control = .returns value) ↔ ¬ state.OtherTask) := by
  rw [← searchTask_other]
  unfold switchTask at done
  dsimp only at done
  cases found : state.searchTask MAXTERMS ((state.driver.kernel.currentTaskIdx + 1) % MAXTERMS) with
  | none =>
      rw [found] at done
      cases done
      refine ⟨rfl, fun _ => ?_, fun _ => ⟨0, rfl⟩⟩
      rintro ⟨index, isNone, _⟩
      cases isNone
  | some newTaskIdx =>
      rw [found] at done
      dsimp only at done
      split at done
      · rename_i current
        cases done
        refine ⟨rfl, fun _ => ?_, fun _ => ⟨0, rfl⟩⟩
        rintro ⟨index, same, other⟩
        exact other ((Option.some.inj same).symm.trans current)
      · rename_i other
        obtain ⟨⟨ebp, esp, left⟩, sent⟩ := switchTasks_writes done
        rw [left]
        exact ⟨sent, nofun, fun none => absurd ⟨newTaskIdx, rfl, other⟩ none⟩

theorem switchTask_alone (alone : ¬ state.OtherTask) :
    state.switchTask = .done (.returns 0, state, sendEoi 0) := by
  rw [← searchTask_other] at alone
  unfold switchTask
  dsimp only
  cases found : state.searchTask MAXTERMS ((state.driver.kernel.currentTaskIdx + 1) % MAXTERMS) with
  | none => rfl
  | some newTaskIdx =>
      have current : newTaskIdx = state.driver.kernel.currentTaskIdx := by
        by_contra other
        exact alone ⟨newTaskIdx, found, other⟩
      exact if_pos current

/-- The key opens `term`, a terminal that is not in use yet. -/
structure Opens (behind : BehindTables) (state : IrqState) (delivery : Delivery)
    (term : TerminalId) : Prop where
  asked : keyAction behind state.driver.keyboard delivery.scancode = .switchTo (term : Nat)
  hidden : term ≠ state.driver.kernel.oldTerminal
  inactive : (state.driver.kernel.terminals term).active = 0
  directory : state.driver.kernel.cr3 ≠ .null

end IrqState

theorem keyHandled_asks {driver handled : TerminalDriver} {asked : Option Int}
    (done : driver.keyHandled behind delivery.scancode delivery.irq delivery.cached =
      .done (asked, handled)) :
    (∀ term, asked = some term ↔
        keyAction behind driver.keyboard delivery.scancode = .switchTo term) ∧
      handled.kernel.oldTerminal = driver.kernel.oldTerminal ∧
      handled.kernel.cr3 = driver.kernel.cr3 ∧
      ∀ term, term ≠ driver.kernel.oldTerminal →
        handled.kernel.terminals term = driver.kernel.terminals term := by
  obtain ⟨⟨term, keyboard, console⟩, pressed, returned⟩ := Outcome.bind_eq_done.mp done
  cases returned
  refine ⟨fun term => ?_, rfl, rfl, fun term hidden => ?_⟩
  · rw [Console.terminalKeyPressed_eq] at pressed
    dsimp only at pressed
    cases action : keyAction behind driver.keyboard delivery.scancode with
    | nothing | clear =>
        rw [action] at pressed
        cases pressed
        exact ⟨nofun, nofun⟩
    | switchTo other =>
        rw [action] at pressed
        cases pressed
        simp only [Option.some.injEq, KeyAction.switchTo.injEq]
    | backspace | type char =>
        rw [action] at pressed
        obtain ⟨_, _, echoed⟩ := Outcome.bind_eq_done.mp pressed
        cases echoed
        exact ⟨nofun, nofun⟩
  · simp only [setConsole, setTerminal, storeVideo, setCursor, Function.update_of_ne hidden]

namespace IrqState

theorem irq1_writes (done : state.irq1 image behind delivery = .done (control, after, writes)) :
    ((∃ value, control = .returns value) ∧ writes = []) ∨
      (writes = sendEoi 1 ∧ ((∃ value, control = .returns value) ↔
        ∃ term, state.Opens behind delivery term ∧
          checkExecutable image shellCommand delivery.frame.buf = .done none)) := by
  obtain ⟨⟨asked, handled⟩, keyed, rest⟩ := Outcome.bind_eq_done.mp done
  obtain ⟨asks, sameTerminal, sameDirectory, others⟩ := keyHandled_asks keyed
  cases asked with
  | none =>
      cases rest
      exact .inl ⟨⟨0, rfl⟩, rfl⟩
  | some term =>
      obtain ⟨⟨control', next, sent⟩, switched, returned⟩ := Outcome.bind_eq_done.mp rest
      cases returned
      rcases acknowledgedSwitch_writes switched with
        ⟨rfl, rfl, _⟩ | ⟨target, rfl, hidden, directory, sent, comesBack⟩
      · exact .inl ⟨⟨0, rfl⟩, rfl⟩
      dsimp only at hidden directory comesBack
      rw [sameTerminal] at hidden
      rw [others target hidden] at comesBack
      rw [sameDirectory] at directory
      refine .inr ⟨sent, comesBack.trans ⟨?_, ?_⟩⟩
      · rintro ⟨inactive, refused⟩
        exact ⟨target, ⟨(asks _).mp rfl, hidden, inactive, directory⟩, refused⟩
      · rintro ⟨term, opens, refused⟩
        have same := (asks _).mpr opens.asked
        have isTarget : term = target :=
          Fin.ext (Int.ofNat.inj (Option.some.inj same)).symm
        exact ⟨isTarget ▸ opens.inactive, refused⟩

theorem irq1_opens {term : TerminalId} (opens : state.Opens behind delivery term)
    (refused : checkExecutable image shellCommand delivery.frame.buf = .done none) :
    ∃ after, state.irq1 image behind delivery = .done (.returns (-1), after, sendEoi 1) := by
  have pressed : ∀ console : Console, ∃ keyboard room,
      console.terminalKeyPressed behind state.driver.keyboard delivery.scancode =
        .done (some (term : Nat), keyboard, room) := by
    intro console
    rw [Console.terminalKeyPressed_eq, opens.asked]
    exact ⟨_, _, rfl⟩
  obtain ⟨handled, keyed⟩ : ∃ handled, state.driver.keyHandled behind delivery.scancode
      delivery.irq delivery.cached = .done (some (term : Nat), handled) := by
    obtain ⟨keyboard, room, asks⟩ := pressed _
    exact ⟨_, Outcome.bind_eq_done.mpr ⟨_, asks, rfl⟩⟩
  obtain ⟨_, sameTerminal, sameDirectory, others⟩ := keyHandled_asks keyed
  obtain ⟨next, switched⟩ := @acknowledgedSwitch_abandons image
    { handled.kernel with esp_0 := delivery.irq.esp_0, ebp_0 := delivery.irq.ebp_0 } term
    delivery.frame delivery.tlb (sameTerminal ▸ opens.hidden)
    (by rw [others term opens.hidden]; exact opens.inactive)
    (fun null => opens.directory (sameDirectory.symm.trans null)) refused
  exact ⟨_, Outcome.bind_eq_done.mpr ⟨_, keyed, Outcome.bind_eq_done.mpr ⟨_, switched, rfl⟩⟩⟩

end IrqState

namespace IrqState

/-- The processor leaves the handler having sent what acknowledges the interrupt,
once. -/
def AcknowledgedOnce (image : Image) (behind : BehindTables) (state : IrqState) (irqNum : Fin 16)
    (delivery : Delivery) : Prop :=
  ∀ control after writes,
    state.irqHandler image behind irqNum delivery = .done (control, after, writes) →
      writes = sendEoi irqNum

/-- The timer finds another task, and the disk has a shell for a terminal that a
key opens. -/
structure Acknowledges (image : Image) (behind : BehindTables) (state : IrqState)
    (irqNum : Fin 16) (delivery : Delivery) : Prop where
  timer : irqNum = 0 → state.OtherTask
  keyboard : irqNum = 1 → ∀ term, state.Opens behind delivery term →
    checkExecutable image shellCommand delivery.frame.buf ≠ .done none

/-- Only a handler that comes back gets the common acknowledgement. -/
theorem irqHandler_writes
    (done : state.irqHandler image behind irqNum delivery = .done (control, after, writes)) :
    ∃ left sent, state.callHandler image behind irqNum delivery = .done (left, after, sent) ∧
      (((∃ value, left = .returns value) ∧ writes = sent ++ sendEoi irqNum) ∨
        ((¬ ∃ value, left = .returns value) ∧ writes = sent)) := by
  obtain ⟨⟨left, next, sent⟩, called, rest⟩ := Outcome.bind_eq_done.mp done
  cases left with
  | returns value =>
      cases rest
      exact ⟨_, sent, called, .inl ⟨⟨value, rfl⟩, rfl⟩⟩
  | iret _ | haltRetLabel _ _ | intRetHelper _ _ =>
      cases rest
      refine ⟨_, _, called, .inr ⟨?_, rfl⟩⟩
      rintro ⟨value, same⟩
      cases same

/-- An acknowledgement of the handler's own is the second one if it comes back. -/
theorem not_acknowledgedOnce {value : Int}
    (called : state.callHandler image behind irqNum delivery =
      .done (.returns value, after, sendEoi irqNum)) :
    ¬ state.AcknowledgedOnce image behind irqNum delivery := by
  intro once
  have twice := once _ _ _ (Outcome.bind_eq_done.mpr ⟨_, called, rfl⟩)
  have none : sendEoi irqNum = [] := List.append_left_eq_self.mp twice
  unfold sendEoi at none
  split at none <;> cases none

theorem callHandler_others (timer : irqNum ≠ 0) (keyboard : irqNum ≠ 1)
    (called : state.callHandler image behind irqNum delivery = .done (control, after, writes)) :
    (∃ value, control = .returns value) ∧ writes = [] := by
  unfold callHandler irqFunctions at called
  split at called
  · rename_i handler found
    split at found
    · exact absurd rfl timer
    · exact absurd rfl keyboard
    · cases found
      cases called
      exact ⟨⟨0, rfl⟩, rfl⟩
    · cases found
  · cases called
    exact ⟨⟨0, rfl⟩, rfl⟩

theorem acknowledgedOnce_iff (image : Image) (behind : BehindTables) (state : IrqState)
    (irqNum : Fin 16) (delivery : Delivery) :
    state.AcknowledgedOnce image behind irqNum delivery ↔
      state.Acknowledges image behind irqNum delivery := by
  constructor
  · intro once
    refine ⟨?_, ?_⟩
    · rintro rfl
      by_contra alone
      have called : state.callHandler image behind 0 delivery =
          .done (.returns 0, state, sendEoi (0 : Fin 16)) := switchTask_alone alone
      exact not_acknowledgedOnce called once
    · rintro rfl term opens refused
      obtain ⟨after, abandoned⟩ := irq1_opens opens refused
      have called : state.callHandler image behind 1 delivery =
          .done (.returns (-1), after, sendEoi (1 : Fin 16)) := abandoned
      exact not_acknowledgedOnce called once
  · intro acknowledges control after writes done
    obtain ⟨left, sent, called, ends⟩ := irqHandler_writes done
    by_cases timer : irqNum = 0
    · subst timer
      obtain ⟨isSent, comesBack⟩ := switchTask_writes called
      rcases ends with ⟨returned, _⟩ | ⟨_, rfl⟩
      · exact absurd (acknowledges.timer rfl) (comesBack.mp returned)
      · exact isSent
    by_cases keyboard : irqNum = 1
    · subst keyboard
      rcases irq1_writes called with ⟨returned, rfl⟩ | ⟨isSent, comesBack⟩
      · rcases ends with ⟨_, rfl⟩ | ⟨stays, _⟩
        · rfl
        · exact absurd returned stays
      · rcases ends with ⟨returned, _⟩ | ⟨_, rfl⟩
        · obtain ⟨term, opens, refused⟩ := comesBack.mp returned
          exact absurd refused (acknowledges.keyboard rfl term opens)
        · exact isSent
    · obtain ⟨returned, rfl⟩ := callHandler_others timer keyboard called
      rcases ends with ⟨_, rfl⟩ | ⟨stays, _⟩
      · rfl
      · exact absurd returned stays

end IrqState

/-- A system call or a store of the running program, or an interrupt. -/
inductive IrqInput where
  | call (input : ConsoleInput)
  | deliver (irqNum : Fin 16) (delivery : Delivery)

/-- A key and the switch of terminals it asks for come as an interrupt. -/
def ConsoleInput.fromKeyboard : ConsoleInput → Bool
  | .key _ _ _ _ _ => true
  | .call (.terminalSwitch _ _ _ _) => true
  | _ => false

def IrqState.step (image : Image) (behind : BehindTables) (state : IrqState) :
    IrqInput → Option IrqState
  | .call input =>
      if input.fromKeyboard then none
      else (state.driver.step image behind input).map fun driver => { state with driver }
  | .deliver irqNum delivery =>
      (state.irqHandler image behind irqNum delivery).toOption.map (·.2.1)

def irqSystem (image : Image) (behind : BehindTables) : Transitions IrqState IrqInput :=
  ⟨IrqState.step image behind⟩

/-- What a property of interrupts says of an input. -/
def IrqInput.Delivers (delivered : Fin 16 → Delivery → Prop) : IrqInput → Prop
  | .call _ => True
  | .deliver irqNum delivery => delivered irqNum delivery

/-- In every run every interrupt is acknowledged once if and only if the timer
always finds another task and every new terminal gets its shell. -/
theorem interrupts_acknowledged_iff (image : Image) (behind : BehindTables) (state : IrqState)
    (inputs : List IrqInput) :
    (irqSystem image behind).Respects
        (fun state => IrqInput.Delivers (state.AcknowledgedOnce image behind)) state inputs ↔
      (irqSystem image behind).Respects
        (fun state => IrqInput.Delivers (state.Acknowledges image behind)) state inputs := by
  refine Transitions.respects_congr fun state input => ?_
  cases input with
  | call input => rfl
  | deliver irqNum delivery => exact state.acknowledgedOnce_iff image behind irqNum delivery

/-- IRQ 1 does to the kernel what a key does. -/
theorem irq1_keyPressed (image : Image) (behind : BehindTables) (state : IrqState)
    (delivery : Delivery) :
    ((state.irq1 image behind delivery).toOption.map fun result => result.2.1.driver) =
      (state.driver.keyPressed image behind delivery.scancode delivery.irq delivery.frame
        delivery.tlb delivery.cached).toOption := by
  unfold IrqState.irq1 TerminalDriver.keyPressed keyboardSwitch
  cases state.driver.keyHandled behind delivery.scancode delivery.irq delivery.cached with
  | done handled =>
      obtain ⟨asked, driver⟩ := handled
      cases asked with
      | none => rfl
      | some term =>
          simp only [Outcome.done_bind]
          rw [← acknowledgedSwitch_terminalSwitch]
          cases acknowledgedSwitch image term delivery.frame delivery.tlb _ <;> rfl
  | spins | outOfBounds | pageFault => rfl

/-- Every entry of `tasks[]` is NULL or the address of a terminal. -/
def AddressesTerminals (kernel : Kernel) : Prop :=
  ∀ index task, kernel.tasks index = some task → ∃ term : TerminalId, task = (term : Nat)

theorem AddressesTerminals.taskAt (addresses : AddressesTerminals kernel) (index : Nat) :
    (kernel.tasks index = none ∧ kernel.taskAt index = .done none) ∨
      ∃ term : TerminalId, kernel.tasks index = some ((term : Nat) : Int) ∧
        kernel.taskAt index = .done (some term) := by
  unfold Kernel.taskAt
  cases entry : kernel.tasks index with
  | none => exact .inl ⟨rfl, rfl⟩
  | some task =>
      obtain ⟨term, rfl⟩ := addresses index task entry
      refine .inr ⟨term, rfl, ?_⟩
      dsimp only
      rw [dif_pos (by omega)]
      rfl

theorem AddressesTerminals.searchTask (addresses : AddressesTerminals state.driver.kernel)
    (remaining index : Nat) :
    state.driver.kernel.searchTask remaining index = .done (state.searchTask remaining index) := by
  induction remaining generalizing index with
  | zero => rfl
  | succ remaining ih =>
      rcases addresses.taskAt index with ⟨entry, isAt⟩ | ⟨term, entry, isAt⟩
      · have free : ¬ state.activeTask index = true := by
          rw [IrqState.activeTask, entry]
          exact Bool.false_ne_true
        rw [Kernel.searchTask, isAt, IrqState.searchTask, if_neg free]
        exact ih _
      · have isTerminal : state.terminal (term : Nat) = state.driver.kernel.terminals term := by
          rw [IrqState.terminal, terminalAt_index]
        have isActive : state.activeTask index =
            decide ((state.driver.kernel.terminals term).active ≠ 0) := by
          rw [IrqState.activeTask, entry, ← isTerminal]
        rw [Kernel.searchTask, isAt, IrqState.searchTask, Outcome.done_bind]
        by_cases inactive : (state.driver.kernel.terminals term).active = 0
        · have free : ¬ state.activeTask index = true := by simp [isActive, inactive]
          rw [if_neg free]
          exact (if_pos inactive).trans (ih _)
        · have used : state.activeTask index = true := by simp [isActive, inactive]
          rw [if_pos used]
          exact if_neg inactive

/-- Where no entry points elsewhere, this is the `switch_task` that follows only
those to a terminal. -/
theorem AddressesTerminals.switchTask (addresses : AddressesTerminals state.driver.kernel) :
    (do
      let (control, after, _) ← state.switchTask
      return (control, after.driver.kernel)) = state.driver.kernel.switchTask := by
  unfold IrqState.switchTask Kernel.switchTask Kernel.selectTask
  rw [addresses.searchTask]
  dsimp only
  cases state.searchTask MAXTERMS ((state.driver.kernel.currentTaskIdx + 1) % MAXTERMS) with
  | none => rfl
  | some newTaskIdx =>
      simp only [Outcome.done_bind]
      split
      · rfl
      unfold IrqState.switchTasks
      dsimp only
      rcases addresses.taskAt state.driver.kernel.currentTaskIdx with
        ⟨current, isCurrent⟩ | ⟨outgoing, current, isCurrent⟩
      · rw [isCurrent, current]
        rfl
      rcases addresses.taskAt newTaskIdx with ⟨new, isNew⟩ | ⟨incoming, new, isNew⟩
      · rw [isCurrent, isNew, current, new]
        rfl
      · rw [isCurrent, isNew, current, new]
        simp only [Outcome.done_bind, Outcome.pure_eq, IrqState.setTerminal, IrqState.terminal,
          terminalAt_index, Kernel.switchTasks, IrqState.setKernel]

/-- A terminal of zeros. -/
def zeroedTerminal : Terminal := ⟨0, 0, fun _ => 0, 0, 0, 0, .null, 0, 0, 0⟩

theorem execute_currentTaskIdx {command : Option CString} {frame : CallFrame} {next : Kernel}
    (done : kernel.execute image command frame = .done (control, next)) :
    next.currentTaskIdx = kernel.currentTaskIdx := by
  rcases execute_inv done with ⟨_, rfl⟩ | ⟨_, _, _, launching⟩
  · rfl
  · obtain ⟨_, _, _, _, _, _, _, _, _, rfl⟩ := launch_inv launching
    rfl

/-- With one terminal in use and zeros in front of `terminals[]`, the timer is
acknowledged twice. -/
theorem timer_acknowledged_twice : ∃ kernel, Reachable shellImage kernel ∧
    ¬ (IrqState.mk ⟨kernel, ⟨false, false, false, false, false⟩⟩ fun _ =>
        zeroedTerminal).AcknowledgedOnce shellImage ⟨fun _ => 0, fun _ => 0⟩ 0
      ⟨0, zeroedIrq, zeroedFrame, cachedNowhere, fun _ => false⟩ := by
  obtain ⟨first, started, _⟩ := firstShell_exists shellImage_valid zeroedMemory zeroedFrame
  have current : first.currentTaskIdx = 0 := by
    obtain ⟨memory, frame, entry, returned⟩ := started
    rw [execute_currentTaskIdx returned, boot_currentTaskIdx]
  refine ⟨first, ⟨first, [], started, rfl⟩, ?_⟩
  let state : IrqState := ⟨⟨first, ⟨false, false, false, false, false⟩⟩, fun _ => zeroedTerminal⟩
  have alone : ¬ state.OtherTask := by
    rintro ⟨index, inside, other, active⟩
    have isOther : index ≠ 0 := fun same => other (same.trans current.symm)
    have entry : first.tasks index = some (-1) ∨ first.tasks index = none := by
      rw [started.tasks]
      simp only [MAXTERMS] at inside
      obtain rfl | rfl : index = 1 ∨ index = 2 := by omega
      · exact .inl rfl
      · exact .inr rfl
    unfold IrqState.activeTask at active
    rcases entry with stray | free
    · rw [stray] at active
      exact Bool.false_ne_true active
    · rw [free] at active
      exact Bool.false_ne_true active
  have called : state.callHandler shellImage ⟨fun _ => 0, fun _ => 0⟩ 0
      ⟨0, zeroedIrq, zeroedFrame, cachedNowhere, fun _ => false⟩ =
      .done (.returns 0, state, sendEoi (0 : Fin 16)) := IrqState.switchTask_alone alone
  exact IrqState.not_acknowledgedOnce called

end Ece391
