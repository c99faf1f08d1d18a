import Ece391.Interrupt.Controllers

namespace Ece391

open Library ControllerPorts

/-! # The handlers behind the controllers (idt_linkage.S, i8259.c) -/

/-- What the stub pushes for `irq_handler`. -/
def Linkage.irqNum : Linkage → Option (Fin 16)
  | .irq0Wrapper => some timerLine
  | .irq1Wrapper => some keyboardLine
  | .irq8Wrapper => some clockLine
  | _ => none

/-- By the table that `idt_initialize` loads. -/
def vectorIrq (vector : Nat) : Option (Fin 16) :=
  (linkages.find? fun entry => entry.1 = vector).bind fun entry => entry.2.irqNum

structure Computer where
  irqs : IrqState
  controllers : ControllerSystem

inductive ComputerInput where
  /-- A device raises its line. -/
  | raise (line : Fin 16)
  | interrupt (delivery : Delivery)
  /-- The running program calls the kernel or stores to the screen. -/
  | call (input : ConsoleInput)

section Systems

variable (image : Image) (behind : BehindTables)

/-- Interrupts stay off from the gate to the `iret`, whichever thread that is of. -/
def Computer.interrupt (computer : Computer) (delivery : Delivery) : Option Computer := do
  let taken ← computer.controllers.interrupt
  let irqNum ← taken.running.bind vectorIrq
  let (_, irqs, writes) ← (computer.irqs.irqHandler image behind irqNum delivery).toOption
  let pair ← outbs taken.pair writes
  return { irqs, controllers := { taken with pair, running := none } }

def computerSystem : Transitions Computer ComputerInput where
  step
    | computer, .raise line =>
        (computer.controllers.raise line).map fun controllers => { computer with controllers }
    | computer, .interrupt delivery => computer.interrupt image behind delivery
    | computer, .call input =>
        (computer.irqs.step image behind (.call input)).map fun irqs => { computer with irqs }

/-- What the handlers and the controllers are for together: the lines that were raised are
served one after the other, a key before a tick. -/
structure LineServer where
  irqs : IrqState
  raised : Fin 16 → Bool
  served : List (Fin 16)

namespace LineServer

def next (server : LineServer) : Option (Fin 16) := [keyboardLine, clockLine].find? server.raised

def raise (server : LineServer) (line : Fin 16) : Option LineServer :=
  if line.val = cascadeLine then none
  else some { server with raised := Function.update server.raised line true }

def interrupt (server : LineServer) (delivery : Delivery) : Option LineServer := do
  let line ← server.next
  let (_, irqs, _) ← (server.irqs.irqHandler image behind line delivery).toOption
  return { irqs
           raised := Function.update server.raised line false
           served := server.served ++ [line] }

end LineServer

def lineServer : Transitions LineServer ComputerInput where
  step
    | server, .raise line => server.raise line
    | server, .interrupt delivery => server.interrupt image behind delivery
    | server, .call input =>
        (server.irqs.step image behind (.call input)).map fun irqs => { server with irqs }

end Systems

/-- What `entry` leaves enabled. -/
def bootEnabled (line : Fin 16) : Bool :=
  line = keyboardLine ∨ line.val = cascadeLine ∨ line = clockLine

/-- The lines that the controllers stand for between two interrupts. -/
def LineServer.lines (server : LineServer) : IrqLines where
  enabled := bootEnabled
  raised := server.raised
  serving := none
  delivered := server.served

variable {image : Image} {behind : BehindTables} {server : LineServer} {computer : Computer}
  {system : ControllerSystem} {lines : IrqLines} {irqs after : IrqState} {irqNum : Fin 16}
  {delivery : Delivery} {control : Control} {writes : List PortWrite}

theorem asks_bootEnabled {line : Fin 16} (member : line ∈ IrqLines.order) :
    server.lines.asks line = (server.raised line && decide (line = keyboardLine ∨ line = clockLine)) := by
  have cascaded : bootEnabled 2 = true := by decide
  have enabled : bootEnabled line = decide (line = keyboardLine ∨ line = clockLine) := by
    decide +revert
  change (server.raised line && bootEnabled line && (_ || bootEnabled 2)) = _
  rw [cascaded, Bool.or_true, Bool.and_true, enabled]

theorem LineServer.order_next (server : LineServer) :
    IrqLines.order.find? server.lines.asks = server.next := by
  have filtered : IrqLines.order.filter (fun line => decide (line = keyboardLine ∨ line = clockLine)) =
      [keyboardLine, clockLine] := by
    decide
  rw [LineServer.next, ← List.head?_filter, ← List.head?_filter, ← filtered, List.filter_filter,
    List.filter_congr fun line => asks_bootEnabled]

theorem vectorIrq_next {line : Fin 16} (next : server.next = some line) :
    vectorIrq (ICW2_MASTER + line.val) = some line := by
  have member := List.mem_of_find?_eq_some next
  simp only [List.mem_cons, List.not_mem_nil, or_false] at member
  rcases member with rfl | rfl <;> decide

theorem callHandler_sends
    (called : irqs.callHandler image behind irqNum delivery = .done (control, after, writes)) :
    ((∃ value, control = .returns value) ∧ writes = []) ∨ writes = sendEoi irqNum := by
  by_cases timer : irqNum = 0
  · subst timer
    exact .inr (IrqState.switchTask_writes called).1
  by_cases keyboard : irqNum = 1
  · subst keyboard
    rcases IrqState.irq1_writes called with quiet | ⟨sent, _⟩
    · exact .inl quiet
    · exact .inr sent
  · exact .inl (IrqState.callHandler_others timer keyboard called)

/-- Never none, and never that of another line. -/
theorem irqHandler_sends
    (done : irqs.irqHandler image behind irqNum delivery = .done (control, after, writes)) :
    writes = sendEoi irqNum ∨ writes = sendEoi irqNum ++ sendEoi irqNum := by
  obtain ⟨left, sent, called, ends⟩ := IrqState.irqHandler_writes done
  rcases callHandler_sends called with ⟨returned, rfl⟩ | rfl
  · rcases ends with ⟨_, rfl⟩ | ⟨stays, _⟩
    · exact .inl rfl
    · exact absurd returned stays
  · rcases ends with ⟨_, rfl⟩ | ⟨_, rfl⟩
    · exact .inr rfl
    · exact .inl rfl

/-- The second acknowledgement finds nothing in service. -/
theorem Represents.irqHandler (represents : Represents system lines)
    (serving : lines.serving = some irqNum)
    (done : irqs.irqHandler image behind irqNum delivery = .done (control, after, writes)) :
    ∃ pair, outbs system.pair writes = some pair ∧
      Represents { system with pair, running := none } { lines with serving := none } := by
  obtain ⟨pair, sent, ended⟩ := represents.ends irqNum (.inr serving)
  rcases irqHandler_sends done with rfl | rfl
  · exact ⟨pair, sent, ended⟩
  · obtain ⟨again, sentAgain, endedAgain⟩ := ended.ends irqNum (.inl rfl)
    refine ⟨again, ?_, endedAgain⟩
    rw [outbs, List.foldlM_append]
    change (outbs system.pair (sendEoi irqNum)).bind (fun pair => outbs pair (sendEoi irqNum)) = _
    rw [sent, Option.bind_some, sentAgain]

structure ServesLines (computer : Computer) (server : LineServer) : Prop where
  irqs : computer.irqs = server.irqs
  controllers : Represents computer.controllers server.lines

theorem ServesLines.raise (serves : ServesLines computer server) (line : Fin 16) :
    Option.Rel ServesLines
      ((computer.controllers.raise line).map fun controllers => { computer with controllers })
      (server.raise line) := by
  have raised := serves.controllers.raise line
  rw [IrqLines.raise] at raised
  rw [LineServer.raise]
  by_cases wire : line.val = cascadeLine
  · rw [if_pos wire]
    rw [if_pos (Fin.ext wire)] at raised
    cases taken : computer.controllers.raise line with
    | none => exact .none
    | some controllers =>
        rw [taken] at raised
        cases raised
  · rw [if_neg wire]
    rw [if_neg fun same => wire (congrArg Fin.val same)] at raised
    cases taken : computer.controllers.raise line with
    | none =>
        rw [taken] at raised
        cases raised
    | some controllers =>
        rw [taken] at raised
        cases raised with
        | some represents => exact .some ⟨serves.irqs, represents⟩

theorem ServesLines.interrupt (serves : ServesLines computer server) (delivery : Delivery) :
    Option.Rel ServesLines (computer.interrupt image behind delivery)
      (server.interrupt image behind delivery) := by
  have running : computer.controllers.running = none := serves.controllers.running
  rw [Computer.interrupt, LineServer.interrupt, ControllerSystem.interrupt, running,
    if_neg (by decide)]
  rcases serves.controllers.acknowledge rfl with ⟨nothing, refused⟩ | ⟨line, pair, taken⟩
  · rw [server.order_next] at nothing
    rw [nothing, refused]
    exact .none
  · have next := taken.found
    rw [server.order_next] at next
    rw [taken.acknowledged, next]
    change Option.Rel _ ((vectorIrq (ICW2_MASTER + line.val)).bind _) _
    rw [vectorIrq_next next, serves.irqs]
    change Option.Rel _ ((server.irqs.irqHandler image behind line delivery).toOption.bind _)
      ((server.irqs.irqHandler image behind line delivery).toOption.bind _)
    cases handled : (server.irqs.irqHandler image behind line delivery).toOption with
    | none => exact .none
    | some result =>
        obtain ⟨control, after, writes⟩ := result
        obtain ⟨ended, sent, represents⟩ :=
          taken.represents.irqHandler rfl (Outcome.toOption_eq_some.mp handled)
        change Option.Rel _ ((outbs pair writes).bind _) _
        rw [sent]
        exact .some ⟨rfl, represents⟩

theorem ServesLines.call (serves : ServesLines computer server) (input : ConsoleInput) :
    Option.Rel ServesLines
      ((computer.irqs.step image behind (.call input)).map fun irqs => { computer with irqs })
      ((server.irqs.step image behind (.call input)).map fun irqs => { server with irqs }) := by
  rw [serves.irqs]
  cases server.irqs.step image behind (.call input) with
  | none => exact .none
  | some after => exact .some ⟨rfl, serves.controllers⟩

theorem ServesLines.step (input : ComputerInput) (computer : Computer) (server : LineServer)
    (serves : ServesLines computer server) :
    Option.Rel ServesLines ((computerSystem image behind).step computer input)
      ((lineServer image behind).step server input) := by
  cases input with
  | raise line => exact serves.raise line
  | interrupt delivery => exact serves.interrupt delivery
  | call input => exact serves.call input

theorem boot_serves : ∃ booted,
    controllerSystem.run ⟨maskedControllers, none, []⟩ bootInputs = some booted ∧
      ∀ irqs, ServesLines ⟨irqs, booted⟩ ⟨irqs, fun _ => false, []⟩ := by
  have related := Transitions.run_lockstep Represents.step masked_represents bootInputs
  have enabled : irqLines.run IrqLines.masked bootInputs =
      some ⟨bootEnabled, fun _ => false, none, []⟩ := by
    have same : Function.update (Function.update (Function.update (fun _ => false) 1 true) 2 true)
        8 true = bootEnabled := by
      apply funext
      decide
    rw [← same]
    rfl
  rw [enabled] at related
  cases ran : controllerSystem.run ⟨maskedControllers, none, []⟩ bootInputs with
  | none =>
      rw [ran] at related
      cases related
  | some booted =>
      rw [ran] at related
      cases related with
      | some represents => exact ⟨booted, rfl, fun irqs => ⟨rfl, represents⟩⟩

/-- From any state of the controllers and of the kernel: behind `i8259_init` and the two
`enable_irq`, the kernel goes exactly through the states in which each raised line of the
keyboard and of the clock is handled once, a key before a tick. -/
theorem raised_lines_served (pair : ControllerPair) : ∃ ready booted,
    outbs pair i8259Init = some ready ∧
    controllerSystem.run ⟨ready, none, []⟩ bootInputs = some booted ∧
    ∀ (image : Image) (behind : BehindTables) (irqs : IrqState) (inputs : List ComputerInput),
      ((computerSystem image behind).run ⟨irqs, booted⟩ inputs).map
          (fun computer => (computer.irqs, computer.controllers.delivered)) =
        ((lineServer image behind).run ⟨irqs, fun _ => false, []⟩ inputs).map
          fun server => (server.irqs, server.served.map (ICW2_MASTER + ·.val)) := by
  obtain ⟨booted, enabled, serves⟩ := boot_serves
  refine ⟨_, booted, i8259Init_initializes pair, enabled, ?_⟩
  intro image behind irqs inputs
  have steps : ∀ input computer server, ServesLines computer server →
      Option.Rel ServesLines ((computerSystem image behind).step computer input)
        ((lineServer image behind).step server input) := ServesLines.step
  have related := Transitions.run_lockstep steps (serves irqs) inputs
  revert related
  generalize (computerSystem image behind).run _ inputs = concrete
  generalize (lineServer image behind).run _ inputs = spec
  intro related
  cases related with
  | none => rfl
  | some serves => exact congrArg some (Prod.ext serves.irqs serves.controllers.delivered)

end Ece391
