import Ece391.Interrupt.Entry
import Ece391.Interrupt.Results

namespace Ece391

open Library Kernel

/-! # The kernel under interrupts, instruction by instruction

The machine takes the way into a handler and the store of `curr_status` in one
step each.  Here they go instruction by instruction, and an interrupt may also
come inside a C statement.  Compiled C keeps its variables on the stack, so
between two statements no register holds anything but the result.
-/

/-- A value that is in registers only. -/
inductive Window where
  | entering (entry : Entry)
  /-- `halt` has its status in EAX and `curr_status` not yet. -/
  | storing (eax : Word)

def Window.spill (window : Window) (scratch : CallRegisters) : Window :=
  match window with
  | .entering entry => .entering (entry.spill scratch)
  | .storing _ => .storing (scratch .eax)

/-- The registers still needed are the ones that `scratch` holds. -/
def Window.Keeps (scratch : CallRegisters) : Window → Prop
  | .entering entry => entry.Keeps scratch
  | .storing eax => scratch .eax = eax

/-- The next step of a terminal runs C code. -/
def runsC (point : Point) (window : Option Window) : Bool :=
  match window with
  | some (.entering entry) =>
      match entry.stage with
      | .callHandler => true
      | _ => false
  | some (.storing _) => false
  | none =>
      match point with
      | .handler _ => true
      | .search _ _ => true
      | .claim _ _ => true
      | .launching _ _ => true
      | .halting _ _ _ _ => true
      | .haltRetLabel _ => true
      | _ => false

structure InstructionMachine where
  machine : Machine
  windows : TerminalId → Option Window
  /-- For each call that reached its handler, what the program asked for and
  what the handler was asked. -/
  handed : List (Request × Request)

inductive InstructionInput where
  /-- `int $0x80` with these registers. -/
  | call (registers : CallRegisters) (memory : CallMemory)
  | advance
  /-- `scratch` is what the registers will hold when the terminal that is left
  is shown again.  With `midStatement` the interrupt comes inside a C statement
  that still needs one of them. -/
  | interrupt (term : Int) (irq : IrqFrame) (frame : CallFrame) (tlb : TlbUse)
      (scratch : CallRegisters) (midStatement : Bool)

namespace InstructionMachine

def setWindow (fine : InstructionMachine) (window : Option Window) : InstructionMachine :=
  { fine with
    windows := Function.update fine.windows fine.machine.kernel.oldTerminal window }

/-- An instruction on the way to the handler.  The last of them is the step
that the machine takes for the whole call. -/
def enter (image : Image) (fine : InstructionMachine) (thread : Thread) (entry : Entry) :
    Option InstructionMachine :=
  match entry.next with
  | .goes entry => some (fine.setWindow (some (.entering entry)))
  | .calls request =>
      (fine.machine.step image (.call request)).map fun machine =>
        { fine.setWindow none with
          machine
          handed := fine.handed ++ [(requestOf entry.memory entry.asked, request)] }
  | .lost =>
      some { fine.setWindow none with
        machine := fine.machine.become fine.machine.kernel { thread with point := .lost } }

/-- The store of the status, which is in EAX. -/
def storeStatus (fine : InstructionMachine) (thread : Thread) (eax : Word) :
    Option InstructionMachine :=
  match thread.point with
  | .halting status curProgramid parentProgramid .status =>
      some { fine.setWindow none with
        machine := fine.machine.become { fine.machine.kernel with currStatus := eax.toNat }
          { thread with point := .halting status curProgramid parentProgramid .schedule } }
  | _ => none

def advance (image : Image) (fine : InstructionMachine) (thread : Thread) :
    Option InstructionMachine :=
  match thread.point with
  | .halting status _ _ .status =>
      some (fine.setWindow (some (.storing (BitVec.ofNat 32 status.toNat))))
  | _ => (fine.machine.step image .advance).map fun machine => { fine with machine }

/-- The stack of a terminal whose code has lost a value is not followed. -/
def leave (machine : Machine) (term : TerminalId) (lost : Bool) : Machine :=
  if lost then
    { machine with
      threads := Function.update machine.threads term
        ((machine.threads term).map fun thread => { thread with point := .lost }) }
  else machine

def interrupt (image : Image) (fine : InstructionMachine) (thread : Thread) (term : Int)
    (irq : IrqFrame) (frame : CallFrame) (tlb : TlbUse) (scratch : CallRegisters)
    (midStatement : Bool) : Option InstructionMachine :=
  let shown := fine.machine.kernel.oldTerminal
  (fine.machine.step image (.interrupt term irq frame tlb (scratch .eax))).map fun machine =>
    if machine.kernel.oldTerminal = shown then { fine with machine }
    else
      { fine.setWindow ((fine.windows shown).map (Window.spill · scratch)) with
        machine := leave machine shown (midStatement && runsC thread.point (fine.windows shown)) }

def step (image : Image) (fine : InstructionMachine) (input : InstructionInput) :
    Option InstructionMachine :=
  match fine.machine.threads fine.machine.kernel.oldTerminal with
  | none => none
  | some thread =>
      match input, fine.windows fine.machine.kernel.oldTerminal, thread.point with
      | .call registers memory, none, .user =>
          some (fine.setWindow (some (.entering ⟨registers, memory, registers, [], .pusha⟩)))
      | .call _ _, _, _ => none
      | .advance, some (.entering entry), _ => fine.enter image thread entry
      | .advance, some (.storing eax), _ => fine.storeStatus thread eax
      | .advance, none, _ => fine.advance image thread
      | .interrupt term irq frame tlb scratch midStatement, _, _ =>
          fine.interrupt image thread term irq frame tlb scratch midStatement

/-- The first shell runs in user mode. -/
def start (kernel : Kernel) (returnValue : Word) : InstructionMachine :=
  ⟨Machine.start kernel returnValue, fun _ => none, []⟩

end InstructionMachine

def instructionSystem (image : Image) : Transitions InstructionMachine InstructionInput :=
  ⟨InstructionMachine.step image⟩

/-- Every handler is asked what its caller asks for, and every call that has
returned got what its handler computed. -/
structure InstructionMachine.ResultsArrive (fine : InstructionMachine) : Prop where
  handed : ∀ call ∈ fine.handed, call.2 = call.1
  arrive : fine.machine.ResultsArrive

/-- The step disturbs no value on its way. -/
def Unharmed (fine : InstructionMachine) (input : InstructionInput) : Prop :=
  let shown := fine.machine.kernel.oldTerminal
  ∀ thread, fine.machine.threads shown = some thread →
    match input, fine.windows shown, thread.point with
    | .call _ _, _, _ => True
    | .advance, some (.entering _), _ => True
    | .advance, some (.storing eax), _ =>
        ∀ term other, term ≠ shown → fine.machine.threads term = some other →
          other.inCurrStatus → (eax.toNat : Int) = fine.machine.kernel.currStatus
    | .advance, none, .halting _ _ _ .status => True
    | .advance, none, _ => Undisturbed fine.machine .advance
    | .interrupt term irq frame tlb scratch midStatement, window, point =>
        Undisturbed fine.machine (.interrupt term irq frame tlb (scratch .eax)) ∧
        ∀ target : TerminalId, (target : Int) = term → target ≠ shown →
          (∀ held, window = some held → held.Keeps scratch) ∧
          ¬ (midStatement ∧ runsC point window)

variable {image : Image} {machine next : Machine} {processes : Forest TerminalId Nat}
  {thread neighbour : Thread} {term : TerminalId}

theorem call_stays {request : Request} (other : term ≠ machine.kernel.oldTerminal)
    (called : machine.call image thread request = .done next) :
    next.threads term = machine.threads term := by
  cases request with
  | halt status =>
      obtain ⟨cur, _, returned⟩ := Outcome.bind_eq_done.mp called
      cases returned
      exact Function.update_of_ne other ..
  | execute command frame =>
      obtain ⟨⟨locals, kernel⟩, _, returned⟩ := Outcome.bind_eq_done.mp called
      cases locals with
      | none => cases returned; exact Function.update_of_ne other ..
      | some locals => cases returned; exact Function.update_of_ne other ..
  | service service => cases called; exact Function.update_of_ne other ..
  | invalid => cases called; exact Function.update_of_ne other ..

theorem Machine.Faithful.advance_stays (faithful : machine.Faithful)
    (here : machine.threads machine.kernel.oldTerminal = some thread)
    (other : term ≠ machine.kernel.oldTerminal)
    (advanced : machine.advance image thread = .done next) :
    next.threads term = machine.threads term := by
  have overrun := congrFun (faithful.overrun_eq here) term
  obtain ⟨pid, point, waiting⟩ := thread
  cases point with
  | user => cases advanced
  | lost => cases advanced
  | handler service =>
      obtain ⟨_, _, returned⟩ := Outcome.bind_eq_done.mp advanced
      cases returned
      exact Function.update_of_ne other ..
  | search locals i =>
      simp only [Machine.advance] at advanced
      split at advanced
      · cases advanced
        exact Function.update_of_ne other ..
      split at advanced
      · cases advanced
      · cases advanced
        exact Function.update_of_ne other ..
  | launching locals stage =>
      obtain ⟨kernel, _, rest⟩ := Outcome.bind_eq_done.mp advanced
      cases stage with
      | enter =>
          cases rest
          exact overrun.trans (Function.update_of_ne other ..)
      | _ => cases rest; exact Function.update_of_ne other ..
  | halting status cur parent stage =>
      obtain ⟨kernel, _, rest⟩ := Outcome.bind_eq_done.mp advanced
      split at rest
      · cases rest
        exact Function.update_of_ne other ..
      split at rest
      · cases rest
        exact Function.update_of_ne other ..
      · cases rest
        exact Function.update_of_ne other ..
  | _ => cases advanced; exact Function.update_of_ne other ..

/-- An interrupt that disturbs nothing leaves every terminal where it was. -/
theorem Interrupted.stays {irq : IrqFrame} {frame : CallFrame} {tlb : TlbUse} {scratch : Word}
    {line : Int} (placed : machine.Placed processes)
    (undisturbed : Undisturbed machine (.interrupt line irq frame tlb scratch))
    (here : machine.threads machine.kernel.oldTerminal = some thread)
    (interrupted : Interrupted machine thread line irq frame scratch next)
    (there : machine.threads term = some neighbour) : next.threads term = some neighbour := by
  have allowed := undisturbed thread here
  have stays : ∀ kept : thread.spill scratch = thread,
      Function.update machine.threads machine.kernel.oldTerminal (some (thread.spill scratch)) =
        machine.threads := by
    intro kept
    rw [kept, ← here, Function.update_eq_self]
  cases interrupted with
  | ignored => exact there
  | resumed isTerm resumed =>
      have kept := thread.spill_eq (allowed _ isTerm resumed.different).1
      simp only [Machine.become, stays kept, there]
  | opened isTerm found opened =>
      obtain ⟨same, whenNew⟩ := allowed _ isTerm opened.different
      have kept := thread.spill_eq same
      have unused := (whenNew opened.notInUse).2 _ found
      have fresh : term ≠ _ := fun isTarget =>
        (placed.active term).mpr ⟨neighbour, there⟩ (isTarget ▸ opened.notInUse)
      simp only [Machine.startShell, Machine.become, stays kept, Function.update_of_ne fresh, there,
        Option.map_some, Thread.overrun, if_neg (unused term neighbour there)]

/-- The window belongs to the point of the thread and holds what it should. -/
def Window.Fits (thread : Thread) : Window → Prop
  | .entering entry => thread.point = .user ∧ entry.Intact
  | .storing eax => ∃ status cur parent, thread.point = .halting status cur parent .status ∧
      eax = BitVec.ofNat 32 status.toNat

theorem Window.Fits.spill {window : Window} {scratch : CallRegisters} (fits : window.Fits thread)
    (keeps : window.Keeps scratch) : (window.spill scratch).Fits thread := by
  cases window with
  | entering entry =>
      obtain ⟨user, intact⟩ := fits
      exact ⟨user, intact.spill keeps⟩
  | storing eax =>
      obtain ⟨status, cur, parent, point, isStatus⟩ := fits
      have kept : scratch .eax = eax := keeps
      exact ⟨status, cur, parent, point, kept.trans isStatus⟩

structure InstructionMachine.Sound (fine : InstructionMachine) : Prop where
  placed : ∃ processes, fine.machine.Placed processes
  faithful : fine.machine.Faithful
  windows : ∀ term window, fine.windows term = some window →
    ∃ thread, fine.machine.threads term = some thread ∧ window.Fits thread
  handed : ∀ call ∈ fine.handed, call.2 = call.1

theorem Machine.Faithful.running (faithful : machine.Faithful)
    (here : machine.threads term = some thread) : thread.point ≠ .lost := by
  intro lost
  have carries := (faithful.safe term thread here).carries
  simp only [Thread.Carries, lost] at carries

theorem Undisturbed.keeps {input : Input} (undisturbed : Undisturbed machine input)
    (placed : ∃ processes, machine.Placed processes) (faithful : machine.Faithful)
    (stepped : machine.step image input = some next) :
    (∃ processes, next.Placed processes) ∧ next.Faithful := by
  obtain ⟨processes, placed⟩ := placed
  exact ⟨Placed.step placed (undisturbed.claimsFreeSlot placed) stepped,
    faithful.step placed undisturbed stepped⟩

namespace InstructionMachine

variable {fine following : InstructionMachine}

@[simp] theorem setWindow_here (fine : InstructionMachine) (window : Option Window) :
    (fine.setWindow window).windows fine.machine.kernel.oldTerminal = window :=
  Function.update_self ..

/-- The other terminals stay where they were, with what they have in registers. -/
theorem Sound.of {windows : TerminalId → Option Window} {handed : List (Request × Request)}
    (sound : fine.Sound) (kept : (∃ processes, machine.Placed processes) ∧ machine.Faithful)
    (stays : ∀ term neighbour, term ≠ fine.machine.kernel.oldTerminal →
      fine.machine.threads term = some neighbour → machine.threads term = some neighbour)
    (others : ∀ term, term ≠ fine.machine.kernel.oldTerminal → windows term = fine.windows term)
    (fits : ∀ window, windows fine.machine.kernel.oldTerminal = some window →
      ∃ thread, machine.threads fine.machine.kernel.oldTerminal = some thread ∧ window.Fits thread)
    (asked : ∀ call ∈ handed, call.2 = call.1) : Sound ⟨machine, windows, handed⟩ where
  placed := kept.1
  faithful := kept.2
  windows term window isOpen := by
    dsimp only at isOpen ⊢
    by_cases same : term = fine.machine.kernel.oldTerminal
    · subst same
      exact fits window isOpen
    · rw [others term same] at isOpen
      obtain ⟨thread, there, fit⟩ := sound.windows term window isOpen
      exact ⟨thread, stays term thread same there, fit⟩
  handed := asked

/-- A step that leaves the machine as it is. -/
theorem Sound.setWindow {window : Option Window} (sound : fine.Sound)
    (here : fine.machine.threads fine.machine.kernel.oldTerminal = some thread)
    (fits : ∀ held, window = some held → held.Fits thread) : (fine.setWindow window).Sound := by
  refine sound.of ⟨sound.placed, sound.faithful⟩ (fun _ _ _ there => there)
    (fun term other => Function.update_of_ne other ..) (fun held isOpen => ⟨thread, here, ?_⟩)
    sound.handed
  rw [Function.update_self] at isOpen
  exact fits held isOpen

theorem Sound.here {window : Window} (sound : fine.Sound)
    (here : fine.machine.threads term = some thread) (isOpen : fine.windows term = some window) :
    window.Fits thread := by
  obtain ⟨other, there, fits⟩ := sound.windows term window isOpen
  obtain rfl := Option.some.inj (there.symm.trans here)
  exact fits

theorem Sound.enter {entry : Entry} (sound : fine.Sound)
    (here : fine.machine.threads fine.machine.kernel.oldTerminal = some thread)
    (isOpen : fine.windows fine.machine.kernel.oldTerminal = some (.entering entry))
    (entered : fine.enter image thread entry = some following) : following.Sound := by
  obtain ⟨user, intact⟩ := sound.here here isOpen
  cases instruction : entry.next with
  | goes moved =>
      simp only [InstructionMachine.enter, instruction] at entered
      cases entered
      refine sound.setWindow here fun held isHeld => ?_
      cases isHeld
      exact ⟨user, (intact.next instruction).1⟩
  | calls request =>
      simp only [InstructionMachine.enter, instruction, Option.map_eq_some_iff] at entered
      obtain ⟨machine, called, rfl⟩ := entered
      have undisturbed : Undisturbed fine.machine (.call request) := fun _ _ => trivial
      refine sound.of (undisturbed.keeps sound.placed sound.faithful called) ?_
        (fun term other => Function.update_of_ne other ..) (fun held isHeld => ?_) ?_
      · intro term neighbour other there
        simp only [Machine.step, here, user] at called
        rw [call_stays other (Outcome.toOption_eq_some.mp called), there]
      · rw [setWindow_here] at isHeld
        cases isHeld
      · intro call member
        rcases List.mem_append.mp member with older | newest
        · exact sound.handed call older
        · obtain rfl := List.mem_singleton.mp newest
          exact intact.calls instruction
  | lost => exact absurd instruction intact.not_lost

theorem Sound.storeStatus (image : Image) {eax : Word} (sound : fine.Sound)
    (here : fine.machine.threads fine.machine.kernel.oldTerminal = some thread)
    (isOpen : fine.windows fine.machine.kernel.oldTerminal = some (.storing eax))
    (unharmed : Unharmed fine .advance) (stored : fine.storeStatus thread eax = some following) :
    following.Sound := by
  obtain ⟨status, cur, parent, point, isStatus⟩ := sound.here here isOpen
  have value : eax.toNat = status.toNat := by
    have small := status.toNat_lt
    rw [isStatus, BitVec.toNat_ofNat]
    omega
  have allowed := unharmed thread here
  simp only [isOpen, value] at allowed
  have undisturbed : Undisturbed fine.machine .advance := by
    intro other there
    obtain rfl := Option.some.inj (here.symm.trans there)
    simp only [point]
    exact allowed
  simp only [InstructionMachine.storeStatus, point, value] at stored
  cases stored
  -- what is stored is what the machine stores in its step
  have advanced : fine.machine.advance image thread = .done
      (fine.machine.become { fine.machine.kernel with currStatus := status.toNat }
        { thread with point := .halting status cur parent .schedule }) := by
    simp only [Machine.advance, point]
    rfl
  have stepped := step_advance here advanced
  refine sound.of (undisturbed.keeps sound.placed sound.faithful stepped) ?_
    (fun term other => Function.update_of_ne other ..) (fun held isHeld => ?_) sound.handed
  · intro term neighbour other there
    rw [sound.faithful.advance_stays here other advanced, there]
  · rw [setWindow_here] at isHeld
    cases isHeld

theorem Sound.advance (sound : fine.Sound)
    (here : fine.machine.threads fine.machine.kernel.oldTerminal = some thread)
    (closed : fine.windows fine.machine.kernel.oldTerminal = none)
    (unharmed : Unharmed fine .advance) (advanced : fine.advance image thread = some following) :
    following.Sound := by
  have allowed := unharmed thread here
  unfold InstructionMachine.advance at advanced
  simp only [closed] at allowed
  split at advanced
  · rename_i status cur parent point
    cases advanced
    refine sound.setWindow here fun held isHeld => ?_
    cases isHeld
    exact ⟨status, cur, parent, point, rfl⟩
  · rename_i elsewhere
    obtain ⟨machine, stepped, rfl⟩ := Option.map_eq_some_iff.mp advanced
    have undisturbed : Undisturbed fine.machine .advance := by
      split at allowed
      case h_4 storing => exact (elsewhere _ _ _ storing).elim
      case h_5 => exact allowed
      all_goals contradiction
    refine sound.of (undisturbed.keeps sound.placed sound.faithful stepped) ?_
      (fun _ _ => rfl) (fun held isHeld => ?_) sound.handed
    · intro term neighbour other there
      simp only [Machine.step, here] at stepped
      rw [sound.faithful.advance_stays here other (Outcome.toOption_eq_some.mp stepped), there]
    · rw [closed] at isHeld
      cases isHeld

theorem Sound.interrupt {line : Int} {irq : IrqFrame} {frame : CallFrame} {tlb : TlbUse}
    {scratch : CallRegisters} {midStatement : Bool} (sound : fine.Sound)
    (here : fine.machine.threads fine.machine.kernel.oldTerminal = some thread)
    (unharmed : Unharmed fine (.interrupt line irq frame tlb scratch midStatement))
    (interrupted :
      fine.interrupt image thread line irq frame tlb scratch midStatement = some following) :
    following.Sound := by
  obtain ⟨undisturbed, switched⟩ := unharmed thread here
  obtain ⟨machine, stepped, rfl⟩ := Option.map_eq_some_iff.mp interrupted
  obtain ⟨processes, placed⟩ := sound.placed
  have kept := undisturbed.keeps sound.placed sound.faithful stepped
  have running := sound.faithful.running here
  have taken : Interrupted fine.machine thread line irq frame (scratch .eax) machine := by
    simp only [Machine.step, here] at stepped
    exact interrupt_eq_some stepped
  have stays : ∀ term neighbour, fine.machine.threads term = some neighbour →
      machine.threads term = some neighbour :=
    fun term neighbour there => taken.stays placed undisturbed here there
  split
  · refine sound.of kept (fun term neighbour _ => stays term neighbour) (fun _ _ => rfl)
      (fun held isHeld => ?_) sound.handed
    exact ⟨thread, stays _ thread here, sound.here here isHeld⟩
  · rename_i left
    obtain ⟨target, isTerm, different⟩ : ∃ target : TerminalId, (target : Int) = line ∧
        target ≠ fine.machine.kernel.oldTerminal := by
      cases taken with
      | ignored => exact absurd rfl left
      | resumed isTerm resumed => exact ⟨_, isTerm, resumed.different⟩
      | opened isTerm found opened => exact ⟨_, isTerm, opened.different⟩
    obtain ⟨keeps, between⟩ := switched target isTerm different
    have followed : (midStatement &&
        runsC thread.point (fine.windows fine.machine.kernel.oldTerminal)) = false := by
      simpa using between
    simp only [followed, leave]
    refine sound.of kept (fun term neighbour _ => stays term neighbour)
      (fun term other => Function.update_of_ne other ..) (fun held isHeld => ?_) sound.handed
    rw [setWindow_here] at isHeld
    obtain ⟨window, isOpen, rfl⟩ := Option.map_eq_some_iff.mp isHeld
    exact ⟨thread, stays _ thread here, (sound.here here isOpen).spill (keeps window isOpen)⟩

theorem Sound.step {input : InstructionInput} (sound : fine.Sound) (unharmed : Unharmed fine input)
    (stepped : fine.step image input = some following) : following.Sound := by
  obtain ⟨_, placed⟩ := sound.placed
  obtain ⟨thread, here⟩ := placed.shown
  simp only [InstructionMachine.step, here] at stepped
  split at stepped
  · rename_i user
    cases stepped
    refine sound.setWindow here fun held isHeld => ?_
    cases isHeld
    exact ⟨user, Entry.Intact.start _ _⟩
  · cases stepped
  · rename_i isOpen
    exact sound.enter here isOpen stepped
  · rename_i isOpen
    exact sound.storeStatus image here isOpen unharmed stepped
  · rename_i closed
    exact sound.advance here closed unharmed stepped
  · exact sound.interrupt here unharmed stepped

theorem Sound.start {first : Kernel} (started : FirstShell image first) (returnValue : Word) :
    (InstructionMachine.start first returnValue).Sound := by
  obtain ⟨_, _, _, launched⟩ := started.launched
  exact
    { placed := Placed.start started returnValue
      faithful := Machine.Faithful.start returnValue launched.cr3
      windows := fun _ _ isOpen => by cases isOpen
      handed := fun _ member => by cases member }

end InstructionMachine

/-- The entry after some instructions, none of which leaves `syscall_wrapper`. -/
def Entry.instructions : Nat → Entry → Option Entry
  | 0, entry => some entry
  | count + 1, entry =>
      match entry.next with
      | .goes moved => moved.instructions count
      | _ => none

section Runs

variable {fine : InstructionMachine} {entry ready : Entry} {value : Int} {count : Nat}

theorem step_entering (image : Image)
    (here : fine.machine.threads fine.machine.kernel.oldTerminal = some thread)
    (isOpen : fine.windows fine.machine.kernel.oldTerminal = some (.entering entry)) :
    (instructionSystem image).step fine .advance = fine.enter image thread entry ∧
      Unharmed fine .advance := by
  constructor
  · simp only [instructionSystem, InstructionMachine.step, here, isOpen]
  · intro other there
    simp only [isOpen]

theorem entry_passes (image : Image)
    (here : fine.machine.threads fine.machine.kernel.oldTerminal = some thread)
    (isOpen : fine.windows fine.machine.kernel.oldTerminal = some (.entering entry))
    (reached : entry.instructions count = some ready) :
    (instructionSystem image).Passes Unharmed fine (List.replicate count .advance)
      (fine.setWindow (some (.entering ready))) := by
  induction count generalizing fine entry with
  | zero =>
      cases reached
      have same : fine.setWindow (some (.entering ready)) = fine := by
        rw [← isOpen]
        simp only [InstructionMachine.setWindow, Function.update_eq_self]
      rw [same]
      exact .nil fine
  | succ count ih =>
      cases instruction : entry.next with
      | goes moved =>
          simp only [Entry.instructions, instruction] at reached
          obtain ⟨stepped, allowed⟩ := step_entering image here isOpen
          simp only [InstructionMachine.enter, instruction] at stepped
          have rest := @ih (fine.setWindow (some (.entering moved))) moved here
            (fine.setWindow_here _) reached
          simp only [InstructionMachine.setWindow, Function.update_idem] at rest
          exact .cons allowed stepped rest
      | _ => simp only [Entry.instructions, instruction, reduceCtorEq] at reached

/-- A step of the machine with nothing in registers only. -/
theorem step_closed (closed : fine.windows fine.machine.kernel.oldTerminal = none)
    (here : fine.machine.threads fine.machine.kernel.oldTerminal = some thread)
    (elsewhere : ∀ status cur parent, thread.point ≠ .halting status cur parent .status)
    (advanced : fine.machine.advance image thread = .done next) :
    (instructionSystem image).step fine .advance = some { fine with machine := next } := by
  have stepped : fine.machine.step image .advance = some next := step_advance here advanced
  simp only [instructionSystem, InstructionMachine.step, here, closed, InstructionMachine.advance]
  rw [stepped]
  rfl

theorem Unharmed.ofClosed (closed : fine.windows fine.machine.kernel.oldTerminal = none)
    (undisturbed : Undisturbed fine.machine .advance) : Unharmed fine .advance := by
  intro thread here
  simp only [closed]
  split <;> trivial

/-- The machine with the code of the shown terminal at another point. -/
def InstructionMachine.at (fine : InstructionMachine) (thread : Thread) : InstructionMachine :=
  { fine with machine := fine.machine.become fine.machine.kernel thread }

theorem InstructionMachine.at_at (fine : InstructionMachine) (thread moved : Thread) :
    (fine.at thread).at moved = fine.at moved := by
  simp only [InstructionMachine.at, Machine.become, Function.update_idem]

theorem InstructionMachine.at_here (fine : InstructionMachine) (thread : Thread) :
    (fine.at thread).machine.threads (fine.at thread).machine.kernel.oldTerminal = some thread :=
  Function.update_self ..

/-- A step from one point to another. -/
theorem step_at {point : Point} (image : Image)
    (closed : fine.windows fine.machine.kernel.oldTerminal = none)
    (elsewhere : ∀ status cur parent, thread.point ≠ .halting status cur parent .status)
    (advanced : (fine.at thread).machine.advance image thread =
      .done ((fine.at thread).at { thread with point }).machine) :
    (instructionSystem image).step (fine.at thread) .advance = some (fine.at { thread with point }) := by
  have stepped : (instructionSystem image).step (fine.at thread) .advance =
      some ((fine.at thread).at { thread with point }) :=
    step_closed closed (fine.at_here thread) elsewhere advanced
  rwa [fine.at_at] at stepped

/-- The step from this point can disturb no other call. -/
def Point.calm (point : Point) : Bool :=
  match point with
  | .claim _ _ => false
  | .returned _ _ => false
  | .halting _ _ _ _ => false
  | _ => true

theorem Unharmed.ofCalm (closed : fine.windows fine.machine.kernel.oldTerminal = none)
    (calm : thread.point.calm) : Unharmed (fine.at thread) .advance := by
  refine .ofClosed closed fun other there => ?_
  obtain rfl := Option.some.inj ((fine.at_here thread).symm.trans there)
  obtain ⟨pid, point, waiting⟩ := thread
  cases point with
  | claim | returned | halting => cases calm
  | _ => trivial

def InstructionMachine.hand (fine : InstructionMachine) (asked request : Request) :
    InstructionMachine :=
  { fine with handed := fine.handed ++ [(asked, request)] }

/-- A call that is on its way to a handler comes back from it. -/
theorem entry_returns (image : Image)
    (here : fine.machine.threads fine.machine.kernel.oldTerminal = some thread)
    (user : thread.point = .user)
    (isOpen : fine.windows fine.machine.kernel.oldTerminal = some (.entering entry))
    (reached : entry.instructions count = some ready)
    (calls : ready.next = .calls (.service (.other value))) :
    (instructionSystem image).Passes Unharmed fine (List.replicate count .advance ++ [.advance, .advance])
      (((fine.setWindow none).hand (requestOf ready.memory ready.asked)
          (.service (.other value))).at
        { thread with point := .returned (BitVec.ofInt 32 value) (BitVec.ofInt 32 value) }) := by
  let base := (fine.setWindow none).hand (requestOf ready.memory ready.asked)
    (.service (.other value))
  have closed : base.windows base.machine.kernel.oldTerminal = none := fine.setWindow_here none
  refine (entry_passes image here isOpen reached).append ?_
  have entering := @step_entering thread (fine.setWindow (some (.entering ready))) ready image here
    (fine.setWindow_here _)
  have called : fine.machine.step image (.call (.service (.other value))) =
      some (fine.machine.become fine.machine.kernel { thread with point := .handler (.other value) }) :=
    step_call here user rfl
  have handed : (fine.setWindow (some (.entering ready))).enter image thread ready =
      some (base.at { thread with point := .handler (.other value) }) := by
    simp only [InstructionMachine.enter, calls, InstructionMachine.setWindow, called,
      Option.map_some, Function.update_idem]
    rfl
  refine .cons entering.2 (entering.1.trans handed) (.cons (.ofCalm closed rfl) ?_ (.nil _))
  exact step_at image closed (fun _ _ _ => by simp) rfl

def InstructionMachine.store (fine : InstructionMachine) (eax : Word) : InstructionMachine :=
  { fine with machine := { fine.machine with returnValue := eax } }

theorem step_returned {result eax : Word} (image : Image)
    (closed : fine.windows fine.machine.kernel.oldTerminal = none) :
    (instructionSystem image).step (fine.at { thread with point := .returned result eax }) .advance =
      some ((fine.store eax).at { thread with point := .stored result }) := by
  have stepped : (instructionSystem image).step
      (fine.at { thread with point := .returned result eax }) .advance =
      some (((fine.at { thread with point := .returned result eax }).store eax).at
        { thread with point := .stored result }) :=
    step_closed closed (fine.at_here _) (fun _ _ _ => by simp) rfl
  rw [stepped]
  exact congrArg some ((fine.store eax).at_at _ _)

/-- The store disturbs nothing while the other terminals are in user mode. -/
theorem Unharmed.ofReturned {result eax : Word}
    (closed : fine.windows fine.machine.kernel.oldTerminal = none)
    (others : ∀ term other, term ≠ fine.machine.kernel.oldTerminal →
      fine.machine.threads term = some other → other.point = .user) :
    Unharmed (fine.at { thread with point := .returned result eax }) .advance := by
  refine .ofClosed closed fun mine there => ?_
  obtain rfl := Option.some.inj ((fine.at_here _).symm.trans there)
  intro term other different stands waits
  have same : (fine.at { thread with point := .returned result eax }).machine.threads term =
      fine.machine.threads term := Function.update_of_ne different ..
  rw [same] at stands
  rw [Thread.inReturnValue, others term other different stands] at waits
  cases waits

def InstructionMachine.deliver (fine : InstructionMachine) (result eax : Word) : InstructionMachine :=
  { fine with machine := { fine.machine with delivered := fine.machine.delivered ++ [(result, eax)] } }

/-- The rest of the call, from the value that is in `returnValue` then. -/
theorem stored_delivers {result : Word} (image : Image)
    (closed : fine.windows fine.machine.kernel.oldTerminal = none) :
    (instructionSystem image).Passes Unharmed (fine.at { thread with point := .stored result })
      [.advance, .advance, .advance]
      ((fine.deliver result fine.machine.returnValue).at { thread with point := .user }) := by
  refine .cons (.ofCalm closed rfl) (step_at image closed (fun _ _ _ => by simp) rfl)
    (.cons (.ofCalm closed rfl) (step_at image closed (fun _ _ _ => by simp) rfl)
      (.cons (.ofCalm closed rfl) ?_ (.nil _)))
  have stepped : (instructionSystem image).step
      (fine.at { thread with point := .loaded result fine.machine.returnValue }) .advance =
      some (((fine.at { thread with point := .loaded result fine.machine.returnValue }).deliver result
        fine.machine.returnValue).at { thread with point := .user }) :=
    step_closed closed (fine.at_here _) (fun _ _ _ => by simp) rfl
  exact stepped.trans (congrArg some ((fine.deliver result fine.machine.returnValue).at_at _ _))

/-- A call on its way to a handler is delivered what the handler computes. -/
theorem entry_delivers (image : Image)
    (here : fine.machine.threads fine.machine.kernel.oldTerminal = some thread)
    (user : thread.point = .user)
    (isOpen : fine.windows fine.machine.kernel.oldTerminal = some (.entering entry))
    (reached : entry.instructions count = some ready)
    (calls : ready.next = .calls (.service (.other value)))
    (others : ∀ term other, term ≠ fine.machine.kernel.oldTerminal →
      fine.machine.threads term = some other → other.point = .user) :
    (instructionSystem image).Passes Unharmed fine
      ((List.replicate count .advance ++ [.advance, .advance]) ++
        [.advance, .advance, .advance, .advance])
      (((((fine.setWindow none).hand (requestOf ready.memory ready.asked)
          (.service (.other value))).store (BitVec.ofInt 32 value)).deliver (BitVec.ofInt 32 value)
            (BitVec.ofInt 32 value)).at { thread with point := .user }) := by
  have closed := fine.setWindow_here none
  refine (entry_returns image here user isOpen reached calls).append ?_
  exact .cons (.ofReturned closed others) (step_returned image closed)
    (stored_delivers image closed)

theorem setWindow_none {window : Option Window}
    (closed : fine.windows fine.machine.kernel.oldTerminal = none) :
    (fine.setWindow window).setWindow none = fine := by
  simp only [InstructionMachine.setWindow, Function.update_idem]
  rw [← closed, Function.update_eq_self]

theorem at_self (here : fine.machine.threads fine.machine.kernel.oldTerminal = some thread) :
    fine.at thread = fine := by
  simp only [InstructionMachine.at, Machine.become]
  rw [← here, Function.update_eq_self]

/-- The INT of a program. -/
theorem call_enters (image : Image) {registers : CallRegisters} {memory : CallMemory}
    (here : fine.machine.threads fine.machine.kernel.oldTerminal = some thread)
    (user : thread.point = .user) (closed : fine.windows fine.machine.kernel.oldTerminal = none) :
    (instructionSystem image).step fine (.call registers memory) =
        some (fine.setWindow (some (.entering ⟨registers, memory, registers, [], .pusha⟩))) ∧
      Unharmed fine (.call registers memory) := by
  constructor
  · simp only [instructionSystem, InstructionMachine.step, here, closed, user]
  · exact fun _ _ => trivial

/-- A switch of terminals between two instructions, after which the registers are as they were. -/
theorem step_switch (image : Image) {next : Machine} {line : Int} {irq : IrqFrame}
    {frame : CallFrame} {tlb : TlbUse} {scratch : CallRegisters}
    (here : fine.machine.threads fine.machine.kernel.oldTerminal = some thread)
    (switched : (machineSystem image).step fine.machine
      (.interrupt line irq frame tlb (scratch .eax)) = some next)
    (left : next.kernel.oldTerminal ≠ fine.machine.kernel.oldTerminal)
    (kept : (fine.windows fine.machine.kernel.oldTerminal).map (Window.spill · scratch) =
      fine.windows fine.machine.kernel.oldTerminal) :
    (instructionSystem image).step fine (.interrupt line irq frame tlb scratch false) =
      some { fine with machine := next } := by
  have stepped : fine.machine.step image (.interrupt line irq frame tlb (scratch .eax)) = some next :=
    switched
  simp only [instructionSystem, InstructionMachine.step, here, InstructionMachine.interrupt, stepped,
    Option.map_some, if_neg left, Bool.false_and, InstructionMachine.leave, kept,
    InstructionMachine.setWindow, Function.update_eq_self]
  rfl

/-- A switch that keeps what its terminal has in registers. -/
theorem Unharmed.ofSwitch {line : Int} {irq : IrqFrame} {frame : CallFrame} {tlb : TlbUse}
    {scratch : CallRegisters}
    (undisturbed : Undisturbed fine.machine (.interrupt line irq frame tlb (scratch .eax)))
    (keeps : ∀ held, fine.windows fine.machine.kernel.oldTerminal = some held → held.Keeps scratch) :
    Unharmed fine (.interrupt line irq frame tlb scratch false) := by
  intro thread here
  refine ⟨undisturbed, fun _ _ _ => ⟨keeps, ?_⟩⟩
  simp

end Runs

/-- The registers of `ece391_write(0, 0, 0)`. -/
def writeRegisters : CallRegisters
  | .eax => SyscallHandler.write.number
  | _ => 0

/-- The memory of a program whose `write` returns `value`. -/
def answering (value : Int) : CallMemory where
  string _ := ⟨[], fun _ member => absurd member List.not_mem_nil⟩
  buffer _ := none
  frame := zeroedFrame
  answer _ _ := value

def writeEntry (value : Int) : Entry := ⟨writeRegisters, answering value, writeRegisters, [], .pusha⟩

/-- The entry before the call of the handler. -/
def writeReady (value : Int) : Entry :=
  ⟨writeRegisters, answering value, writeRegisters, [0, 0, 0], .callHandler⟩

theorem writeEntry_reaches (value : Int) :
    (writeEntry value).instructions 8 = some (writeReady value) := rfl

theorem writeReady_calls (value : Int) :
    (writeReady value).next = .calls (.service (.other value)) := rfl

section Writes

variable {fine : InstructionMachine} {value : Int}

/-- A `write` up to the return of its handler. -/
theorem write_returns (image : Image) (value : Int)
    (here : fine.machine.threads fine.machine.kernel.oldTerminal = some thread)
    (user : thread.point = .user) (closed : fine.windows fine.machine.kernel.oldTerminal = none) :
    (instructionSystem image).Passes Unharmed fine
      (.call writeRegisters (answering value) :: (List.replicate 8 .advance ++ [.advance, .advance]))
      ((fine.hand (.service (.other value)) (.service (.other value))).at
        { thread with point := .returned (BitVec.ofInt 32 value) (BitVec.ofInt 32 value) }) := by
  obtain ⟨called, allowed⟩ :=
    @call_enters thread fine image writeRegisters (answering value) here user closed
  refine .cons allowed called ?_
  have returns := @entry_returns thread (fine.setWindow (some (.entering (writeEntry value))))
    (writeEntry value) (writeReady value) value 8 image here user (fine.setWindow_here _)
    (writeEntry_reaches value) (writeReady_calls value)
  rwa [setWindow_none closed] at returns

/-- A whole `write` while the other terminals are in user mode. -/
theorem write_delivers (image : Image) (value : Int)
    (here : fine.machine.threads fine.machine.kernel.oldTerminal = some thread)
    (user : thread.point = .user) (closed : fine.windows fine.machine.kernel.oldTerminal = none)
    (others : ∀ term other, term ≠ fine.machine.kernel.oldTerminal →
      fine.machine.threads term = some other → other.point = .user) :
    (instructionSystem image).Passes Unharmed fine
      ((.call writeRegisters (answering value) :: (List.replicate 8 .advance ++ [.advance, .advance])) ++
        [.advance, .advance, .advance, .advance])
      ((((fine.hand (.service (.other value)) (.service (.other value))).store
        (BitVec.ofInt 32 value)).deliver (BitVec.ofInt 32 value) (BitVec.ofInt 32 value)).at
          { thread with point := .user }) :=
  (write_returns image value here user closed).append
    (.cons (.ofReturned closed others) (step_returned image closed) (stored_delivers image closed))

end Writes

/-- The first shell alone in user mode, with two terminals that are not in use. -/
theorem firstShell_alone :
    ∃ first, FirstShell shellImage first ∧ Nested 1 first ∧ first.oldTerminal = 0 ∧
      (first.terminals 1).active = 0 ∧ (first.terminals first.oldTerminal).active ≠ 0 ∧
      (Machine.start first 0).threads =
        Function.update (fun _ => none) first.oldTerminal (some ⟨1, .user, []⟩) := by
  obtain ⟨first, started, launched⟩ := firstShell_exists shellImage_valid zeroedMemory zeroedFrame
  have threads : (Machine.start first 0).threads =
      Function.update (fun _ => none) first.oldTerminal (some ⟨1, .user, []⟩) := by
    simp only [Machine.start, launched.cr3, Outcome.toOption_done, Option.map_some]
  have inUse : (first.terminals first.oldTerminal).active ≠ 0 := by
    obtain ⟨_, placed⟩ := Placed.start started 0
    exact (placed.active _).mpr ⟨_, threads ▸ Function.update_self ..⟩
  exact ⟨first, started, nested_first launched, launched.oldTerminal.trans (boot_oldTerminal _),
    launched.inactive (by decide), inUse, threads⟩

/-- Another terminal's shell starts in slot 2 while the code of the first is anywhere. -/
theorem shell_beside {fine : InstructionMachine} {first : Kernel} {point : Point}
    (nested : Nested 1 first) (firstShown : first.oldTerminal = 0)
    (closed : (first.terminals 1).active = 0) (kernel : fine.machine.kernel = first)
    (here : fine.machine.threads first.oldTerminal = some ⟨1, point, []⟩) (running : point ≠ .lost)
    (unspilled : Thread.spill ⟨1, point, []⟩ (writeRegisters .eax) = ⟨1, point, []⟩)
    (kept : (fine.windows first.oldTerminal).map (Window.spill · writeRegisters) =
      fine.windows first.oldTerminal) :
    ∃ shown, (instructionSystem shellImage).step fine
        (.interrupt (1 : TerminalId) zeroedIrq zeroedFrame cachedNowhere writeRegisters false) =
          some { fine with machine := shown } ∧
      ShellStarted fine.machine ⟨1, point, []⟩ 1 2 shown := by
  subst kernel
  have other : (1 : TerminalId) ≠ fine.machine.kernel.oldTerminal := by
    rw [firstShown]
    decide
  have unmarked : 2 ∉ Thread.pids ⟨1, point, []⟩ := by simp [Thread.pids]
  obtain ⟨shown, _, opens, shellStarted⟩ := shell_started shellImage_valid here running unmarked
    nested.current other closed (nested.findSlot (by decide)) (by decide)
    zeroedIrq zeroedFrame cachedNowhere unspilled
  exact ⟨shown, step_switch shellImage here opens (by rw [shellStarted.oldTerminal]; exact other) kept,
    shellStarted⟩

/-- A terminal in use is shown again. -/
structure ShownAgain (machine : Machine) (target : TerminalId) (again : Machine) : Prop where
  oldTerminal : again.kernel.oldTerminal = target
  threads : again.threads = machine.threads
  returnValue : again.returnValue = machine.returnValue
  delivered : again.delivered = machine.delivered

theorem shown_again {fine : InstructionMachine} {target : TerminalId} {cur : Nat} (image : Image)
    (here : fine.machine.threads fine.machine.kernel.oldTerminal = some thread)
    (running : thread.point ≠ .lost)
    (unspilled : thread.spill (writeRegisters .eax) = thread)
    (closed : fine.windows fine.machine.kernel.oldTerminal = none)
    (current : findProgramid fine.machine.kernel.cr3 = .done cur)
    (leaves : target ≠ fine.machine.kernel.oldTerminal)
    (active : (fine.machine.kernel.terminals target).active ≠ 0) :
    ∃ again, (instructionSystem image).step fine
        (.interrupt target zeroedIrq zeroedFrame cachedNowhere writeRegisters false) =
          some { fine with machine := again } ∧ ShownAgain fine.machine target again := by
  obtain ⟨resuming, resumes, resumed⟩ := interrupt_resumes image thread current leaves active
    zeroedIrq zeroedFrame cachedNowhere (writeRegisters .eax)
  have back := step_interrupt here running resumes
  rw [unspilled] at back
  have threads : (fine.machine.become resuming thread).threads = fine.machine.threads := by
    simp only [Machine.become]
    rw [← here, Function.update_eq_self]
  refine ⟨_, step_switch image here back ?_ (by rw [closed]; rfl), resumed.oldTerminal, threads, rfl, rfl⟩
  exact fun same => leaves (resumed.oldTerminal.symm.trans same)

/-- The way into the handler behind `pusha`. -/
def pushedEntry (value : Int) : Entry := { writeEntry value with stage := .pushEdx }

/-- The first shell's call behind its `pusha`. -/
structure BehindPusha (first : Kernel) (waiting : InstructionMachine) : Prop where
  machine : waiting.machine = Machine.start first 0
  entering : waiting.windows first.oldTerminal = some (.entering (pushedEntry 0))
  others : ∀ term, term ≠ first.oldTerminal → waiting.windows term = none

/-- A call up to its `pusha`. -/
theorem reaches_pusha {first : Kernel}
    (here : (Machine.start first 0).threads first.oldTerminal = some ⟨1, .user, []⟩) :
    ∃ waiting, (instructionSystem shellImage).Passes Unharmed (InstructionMachine.start first 0)
      [.call writeRegisters (answering 0), .advance] waiting ∧ BehindPusha first waiting := by
  obtain ⟨called, allowed⟩ := @call_enters ⟨1, .user, []⟩ (InstructionMachine.start first 0)
    shellImage writeRegisters (answering 0) here rfl rfl
  have pushed := @entry_passes ⟨1, .user, []⟩ ((InstructionMachine.start first 0).setWindow
    (some (.entering (writeEntry 0)))) (writeEntry 0) (pushedEntry 0) 1 shellImage here
    (InstructionMachine.setWindow_here ..) rfl
  refine ⟨_, .cons allowed called pushed, rfl, Function.update_self .., fun term other => ?_⟩
  exact (Function.update_of_ne other ..).trans (Function.update_of_ne other ..)

/-- The switch there keeps the arguments, which are in the registers still. -/
theorem BehindPusha.opensUnharmed {first : Kernel} {waiting : InstructionMachine}
    (behind : BehindPusha first waiting) (nested : Nested 1 first)
    (threads : (Machine.start first 0).threads =
      Function.update (fun _ => none) first.oldTerminal (some ⟨1, .user, []⟩)) :
    Unharmed waiting
      (.interrupt (1 : TerminalId) zeroedIrq zeroedFrame cachedNowhere writeRegisters false) := by
  have alone : ∀ term thread, waiting.machine.threads term = some thread →
      thread = ⟨1, .user, []⟩ := by
    intro term thread there
    rw [behind.machine, threads] at there
    by_cases same : term = first.oldTerminal
    · rw [same, Function.update_self] at there
      exact (Option.some.inj there).symm
    · rw [Function.update_of_ne same] at there
      cases there
  have found : (findSlot waiting.machine.kernel.openTasks).2 = some 2 := by
    rw [behind.machine]
    exact nested.findSlot (by decide)
  refine .ofSwitch (fun thread there => ?_) fun held isHeld => ?_
  · obtain rfl := alone _ thread there
    intro target _ _
    refine ⟨fun eax inEax => ?_, fun _ => ⟨by simp [Thread.exposesCaller], ?_⟩⟩
    · cases inEax
    intro slot isSlot term thread stands
    obtain rfl := Option.some.inj (found.symm.trans isSlot)
    obtain rfl := alone term thread stands
    simp [Thread.pids]
  · rw [behind.machine] at isHeld
    cases isHeld.symm.trans behind.entering
    exact fun _ _ => rfl

def Machine.InUserMode (machine : Machine) : Prop :=
  ∀ term thread, machine.threads term = some thread → thread.point = .user

theorem ShellStarted.inUserMode {first : Kernel} {shown : Machine}
    (threads : (Machine.start first 0).threads =
      Function.update (fun _ => none) first.oldTerminal (some ⟨1, .user, []⟩))
    (shellStarted : ShellStarted (Machine.start first 0) ⟨1, .user, []⟩ 1 2 shown) :
    shown.InUserMode := by
  intro term thread stands
  by_cases target : term = 1
  · rw [target, shellStarted.shell] at stands
    cases stands
    rfl
  by_cases mine : term = first.oldTerminal
  · have left := shellStarted.left
    rw [mine] at stands
    cases stands.symm.trans left
    rfl
  · rw [shellStarted.others term target mine, threads, Function.update_of_ne mine] at stands
    cases stands

end Ece391
