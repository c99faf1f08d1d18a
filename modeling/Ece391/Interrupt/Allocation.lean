import Mathlib.Data.List.Pairwise
import Ece391.Interrupt.Placement
import Ece391.Interrupt.Atomic
import Ece391.Process.Slots

namespace Ece391

open Library Kernel

/-! # Two processes in one slot

`execute` tests `openTasks[i]` and fills it in two steps.  The processes that
are live at the same time have different slots exactly as long as the slot is
still free at the second.
-/

/-- The address of the process control block. -/
def pcbAddress (programId : Int) : Int := MB_8 - KB_8 * programId

/-- What two processes must not share. -/
structure Separate (left right : Nat) : Prop where
  pid : left ≠ right
  directory : ∀ cr3, pageDirectoryOf left = some cr3 → pageDirectoryOf right ≠ some cr3
  block : pcbAddress left ≠ pcbAddress right
  stack : stackTop left ≠ stackTop right

theorem stackTop_injective {left right : Nat} (leftRange : left ≤ 7) (rightRange : right ≤ 7)
    (same : stackTop left = stackTop right) : left = right := by
  have small : ∀ pid : Fin 8, ∀ other : Fin 8,
      stackTop (pid : Nat) = stackTop (other : Nat) → pid = other := by decide
  exact Fin.mk.inj (small ⟨left, by omega⟩ ⟨right, by omega⟩ same)

/-- The pid is all that matters. -/
theorem Separate.ofPid {left right : Nat} (leftRange : left ≤ 7) (rightRange : right ≤ 7)
    (different : left ≠ right) : Separate left right where
  pid := different
  directory cr3 ofLeft ofRight := different (pageDirectoryOf_injective ofLeft ofRight)
  block same := by
    unfold pcbAddress KB_8 at same
    omega
  stack same := different (stackTop_injective leftRange rightRange same)

namespace Machine

def liveOn (machine : Machine) (term : TerminalId) : List Nat :=
  ((machine.threads term).map Thread.live).getD []

/-- The pid of every live process, one entry for each process. -/
def live (machine : Machine) : List Nat := allTerminals.flatMap machine.liveOn

/-- No two processes that are live at the same time share a pid, a page
directory, a control block or a kernel stack. -/
def ProcessesSeparate (machine : Machine) : Prop := machine.live.Pairwise Separate

end Machine

variable {image : Image} {machine next : Machine} {processes : Forest TerminalId Nat}

theorem Placed.liveOn_eq (placed : machine.Placed processes) (term : TerminalId) :
    machine.liveOn term = processes.chain term := (placed.chain term).symm

theorem Placed.processesSeparate (placed : machine.Placed processes) :
    machine.ProcessesSeparate := by
  have member : ∀ pid ∈ machine.live, pid ≤ 7 := by
    intro pid inside
    obtain ⟨term, _, onTerm⟩ := List.mem_flatMap.mp inside
    rw [Placed.liveOn_eq placed term] at onTerm
    exact (placed.claimed pid ⟨term, onTerm⟩).1.2
  have distinct : machine.live.Nodup := by
    refine List.nodup_flatMap.mpr ⟨fun term _ => ?_, ?_⟩
    · rw [Placed.liveOn_eq placed term]
      exact processes.nodup term
    · have terminals : allTerminals.Pairwise (· ≠ ·) := by decide
      refine terminals.imp fun {left right} different => ?_
      simp only [Function.onFun, Placed.liveOn_eq placed]
      exact fun pid onLeft onRight => processes.disjoint left right different pid onLeft onRight
  exact distinct.imp_of_mem fun {left right} onLeft onRight different =>
    .ofPid (member left onLeft) (member right onRight) different

/-- A process whose pid is taken again is in the list twice. -/
theorem claim_shares_pid {thread : Thread} {locals : ExecuteLocals} {slot : Nat}
    (placed : machine.Placed processes)
    (here : machine.threads machine.kernel.oldTerminal = some thread)
    (claims : thread.point = .claim locals slot) (taken : machine.kernel.openTasks slot ≠ -1)
    (advanced : machine.advance image thread = .done next) : ¬ next.ProcessesSeparate := by
  have holds := (placed.fits _ _ here).locals
  simp only [Thread.Locals, claims] at holds
  obtain ⟨owner, inside⟩ := holds.2.2.resolve_left taken
  simp only [Machine.advance, claims] at advanced
  cases advanced
  intro separate
  have distinct : _ := List.nodup_flatMap.mp
    (separate.imp fun {left right} apart => (apart.pid : left ≠ right))
  have newest : ∀ kernel waiting, (machine.become kernel
      ⟨slot, .launching locals .schedule, waiting⟩).liveOn machine.kernel.oldTerminal =
      slot :: waiting.map WaitingCall.pid := by
    intro kernel waiting
    simp only [Machine.liveOn, Machine.become, Function.update_self, Option.map_some,
      Option.getD_some]
    rfl
  by_cases same : owner = machine.kernel.oldTerminal
  · have once := distinct.1 machine.kernel.oldTerminal (mem_allTerminals _)
    rw [newest] at once
    refine (List.nodup_cons.mp once).1 ?_
    rw [same, placed.chain_eq here] at inside
    simpa [Thread.live, Thread.freed, Thread.pids, claims] using inside
  · have symmetric : ∀ machine : Machine, Std.Symm (Function.onFun List.Disjoint machine.liveOn) :=
      fun _ => ⟨fun _ _ disjoint _ onRight onLeft => disjoint onLeft onRight⟩
    have apart := distinct.2.forall (mem_allTerminals owner)
      (mem_allTerminals machine.kernel.oldTerminal) same
    have elsewhere : ∀ kernel thread, (machine.become kernel thread).liveOn owner =
        machine.liveOn owner := by
      intro kernel thread
      simp only [Machine.liveOn, Machine.become, Function.update_of_ne same]
    simp only [Function.onFun] at apart
    rw [elsewhere, newest, Placed.liveOn_eq placed] at apart
    exact apart inside (List.mem_cons_self ..)

theorem beginExecute_short {kernel : Kernel} {command : CString} {dentry : Dentry} {cur : Nat}
    (short : ShortCommand command) (valid : ValidProgram image (commandName command) dentry)
    (frame : CallFrame) (current : findProgramid kernel.cr3 = .done cur) (userCall : cur ≠ 0) :
    ∃ entry, kernel.beginExecute image (some command) frame =
      .done (some ⟨cur, commandName command, commandArgument command, entry, frame⟩, kernel) := by
  obtain ⟨entry, accepted⟩ := valid.checkExecutable frame.buf
  refine ⟨entry, ?_⟩
  simp only [beginExecute, parseCommand_short short.name short.argument, Outcome.done_bind, accepted,
    current, if_neg userCall, Outcome.pure_eq]

/-- A switch to a new terminal while a slot is free starts its shell there. -/
theorem interrupt_opens (thread : Thread) {dentry : Dentry} {cur slot : Nat} {target : TerminalId}
    (valid : ValidProgram image shellCommand dentry)
    (current : findProgramid machine.kernel.cr3 = .done cur)
    (different : target ≠ machine.kernel.oldTerminal)
    (inactive : (machine.kernel.terminals target).active = 0)
    (found : (findSlot machine.kernel.openTasks).2 = some slot) (bound : slot ≤ 6)
    (irq : IrqFrame) (frame : CallFrame) (tlb : TlbUse) (scratch : Word) :
    ∃ after, machine.interrupt image thread target irq frame tlb scratch = some
        ((machine.become after (thread.spill scratch)).startShell target slot) ∧
      Opened machine.kernel irq frame target slot after := by
  obtain ⟨shown, leaving, calls⟩ :=
    keyboardSwitch_new current different inactive irq frame tlb
  rw [← commandName_shellCommand] at valid
  have sameTable : (shown.openTerminal target).openTasks = machine.kernel.openTasks :=
    leaving.openTasks
  have stillCurrent : findProgramid (shown.openTerminal target).cr3 = .done cur := by
    have sameCr3 : (shown.openTerminal target).cr3 = machine.kernel.cr3 := leaving.cr3
    rw [sameCr3, current]
  rw [← sameTable] at found
  obtain ⟨entry, after, starts, _⟩ :=
    execute_starts shellCommand_short valid frame stillCurrent found bound
  have switched : machine.kernel.keyboardSwitch image target irq frame tlb =
      .done (.iret entry, after) := calls.trans starts
  rw [sameTable] at found
  rcases keyboardSwitch_cases switched with
    ⟨ignored, _⟩ | failed | ⟨_, _, _, resumes⟩ | ⟨other, place, _, isTerm, foundPlace, opened, _⟩
  · cases ignored
  · cases failed
  · cases resumes
  · obtain rfl : other = target := Fin.ext (Int.natCast_inj.mp isTerm)
    obtain rfl := Option.some.inj (foundPlace.symm.trans found)
    refine ⟨after, ?_, opened⟩
    simp only [Machine.interrupt, switched, found, Option.map_some, opened.oldTerminal]

theorem interrupt_resumes (image : Image) (thread : Thread) {cur : Nat} {target : TerminalId}
    (current : findProgramid machine.kernel.cr3 = .done cur)
    (different : target ≠ machine.kernel.oldTerminal)
    (active : (machine.kernel.terminals target).active ≠ 0)
    (irq : IrqFrame) (frame : CallFrame) (tlb : TlbUse) (scratch : Word) :
    ∃ after, machine.interrupt image thread target irq frame tlb scratch =
        some (machine.become after (thread.spill scratch)) ∧
      Resumed machine.kernel irq target after := by
  obtain ⟨ebp, esp, after, switched⟩ :=
    keyboardSwitch_active image current different active irq frame tlb
  rcases keyboardSwitch_cases switched with
    ⟨ignored, _⟩ | failed | ⟨other, isTerm, resumed, _⟩ | ⟨_, _, _, _, _, _, starts⟩
  · cases ignored
  · cases failed
  · obtain rfl : other = target := Fin.ext (Int.natCast_inj.mp isTerm)
    refine ⟨after, ?_, resumed⟩
    simp only [Machine.interrupt, switched]
  · cases starts

/-- The machine after a switch from `left`, whose code stands at `thread`, to a
new terminal with its shell in `slot`. -/
structure ShellStarted (machine : Machine) (thread : Thread) (target : TerminalId) (slot : Nat)
    (shown : Machine) : Prop where
  oldTerminal : shown.kernel.oldTerminal = target
  shell : shown.threads target = some ⟨slot, .user, []⟩
  left : shown.threads machine.kernel.oldTerminal = some thread
  others : ∀ term, term ≠ target → term ≠ machine.kernel.oldTerminal →
    shown.threads term = (machine.threads term).map (Thread.overrun · slot)
  current : findProgramid shown.kernel.cr3 = .done slot
  active : (shown.kernel.terminals machine.kernel.oldTerminal).active =
    (machine.kernel.terminals machine.kernel.oldTerminal).active
  taken : shown.kernel.openTasks slot ≠ -1
  returnValue : shown.returnValue = machine.returnValue
  delivered : shown.delivered = machine.delivered

theorem shell_started {thread : Thread} {dentry : Dentry} {cur slot : Nat} {target : TerminalId}
    (valid : ValidProgram image shellCommand dentry)
    (here : machine.threads machine.kernel.oldTerminal = some thread)
    (running : thread.point ≠ .lost) (mine : slot ∉ thread.pids)
    (current : findProgramid machine.kernel.cr3 = .done cur)
    (different : target ≠ machine.kernel.oldTerminal)
    (inactive : (machine.kernel.terminals target).active = 0)
    (found : (findSlot machine.kernel.openTasks).2 = some slot) (bound : slot ≤ 6)
    (irq : IrqFrame) (frame : CallFrame) (tlb : TlbUse) {scratch : Word}
    (unspilled : thread.spill scratch = thread) :
    ∃ shown, machine.interrupt image thread target irq frame tlb scratch = some shown ∧
      (machineSystem image).step machine (.interrupt target irq frame tlb scratch) = some shown ∧
      ShellStarted machine thread target slot shown := by
  obtain ⟨opening, opens, opened⟩ := interrupt_opens thread valid current different
    inactive found bound irq frame tlb scratch
  rw [unspilled] at opens
  refine ⟨_, opens, step_interrupt here running opens, ?_⟩
  constructor
  · exact opened.oldTerminal
  · simp only [Machine.startShell, Function.update_self]
  · have spared : thread.overrun slot = thread := if_neg mine
    simp only [Machine.startShell, Function.update_of_ne (Ne.symm different), Machine.become,
      Function.update_self, Option.map_some, spared]
  · intro term fresh other
    simp only [Machine.startShell, Function.update_of_ne fresh, Machine.become,
      Function.update_of_ne other]
  · have targetCr3 := opened.targetCr3
    rwa [Kernel.cr3Of, if_pos opened.oldTerminal.symm] at targetCr3
  · exact opened.active _ (Ne.symm different)
  · have table : opening.openTasks slot = 0 := by rw [opened.openTasks, Function.update_self]
    intro free
    exact absurd (table.symm.trans free) (by decide)
  · rfl
  · rfl

/-- Whenever a process is about to fill the first free slot and a terminal is
still unused, opening it and coming back puts two processes in the slot. -/
theorem slot_taken_between {thread : Thread} {locals : ExecuteLocals} {slot : Nat}
    {target : TerminalId} {dentry : Dentry} (valid : ValidProgram image shellCommand dentry)
    (placed : machine.Placed processes)
    (here : machine.threads machine.kernel.oldTerminal = some thread)
    (claims : thread.point = .claim locals slot) (mine : slot ∉ thread.pids)
    (found : (findSlot machine.kernel.openTasks).2 = some slot) (bound : slot ≤ 6)
    (different : target ≠ machine.kernel.oldTerminal)
    (inactive : (machine.kernel.terminals target).active = 0)
    (irq : IrqFrame) (frame : CallFrame) (tlb : TlbUse) (scratch : Word) :
    ∃ final, (machineSystem image).run machine
        [.interrupt target irq frame tlb scratch,
          .interrupt machine.kernel.oldTerminal irq frame tlb scratch, .advance] = some final ∧
      ¬ final.ProcessesSeparate := by
  have running : thread.point ≠ .lost := by rw [claims]; nofun
  have current : findProgramid machine.kernel.cr3 = .done thread.pid := by
    have directory := (placed.fits _ _ here).directory running
    rw [Kernel.cr3Of, if_pos rfl] at directory
    simpa only [Thread.directory, claims] using directory
  have unspilled : thread.spill scratch = thread := by
    obtain ⟨pid, point, waiting⟩ := thread
    dsimp only at claims
    subst claims
    rfl
  -- the new shell gets the slot
  obtain ⟨shown, opens, stepped, shellStarted⟩ := shell_started valid here running mine current
    different inactive found bound irq frame tlb unspilled
  obtain ⟨grown, shownPlaced⟩ := Placed.interrupted placed here (interrupt_eq_some opens)
  have shell : shown.threads shown.kernel.oldTerminal = some ⟨slot, .user, []⟩ := by
    rw [shellStarted.oldTerminal, shellStarted.shell]
  -- and the terminal that was left is shown again
  have inUse : (shown.kernel.terminals machine.kernel.oldTerminal).active ≠ 0 := by
    rw [shellStarted.active]
    exact (placed.active _).mpr placed.shown
  have leaves : machine.kernel.oldTerminal ≠ shown.kernel.oldTerminal := by
    rw [shellStarted.oldTerminal]
    exact Ne.symm different
  obtain ⟨resuming, resumes, resumed⟩ := interrupt_resumes image
    ⟨slot, .user, []⟩ shellStarted.current leaves inUse irq frame tlb scratch
  generalize isAgain : shown.become resuming (Thread.spill ⟨slot, .user, []⟩ scratch) = again
    at resumes
  obtain ⟨more, againPlaced⟩ := Placed.interrupted shownPlaced shell (interrupt_eq_some resumes)
  have againTerminal : again.kernel.oldTerminal = machine.kernel.oldTerminal := by
    rw [← isAgain]
    exact resumed.oldTerminal
  have againHere : again.threads again.kernel.oldTerminal = some thread := by
    rw [againTerminal, ← isAgain]
    simp only [Machine.become, Function.update_of_ne leaves, shellStarted.left]
  have taken : again.kernel.openTasks slot ≠ -1 := by
    have table : again.kernel.openTasks = shown.kernel.openTasks := by
      rw [← isAgain]
      exact resumed.openTasks
    rw [table]
    exact shellStarted.taken
  obtain ⟨final, advanced⟩ : ∃ final, again.advance image thread = .done final := by
    simp only [Machine.advance, claims]
    exact ⟨_, rfl⟩
  refine ⟨final, ?_, claim_shares_pid againPlaced againHere claims taken advanced⟩
  exact Transitions.run_cons.mpr ⟨shown, stepped,
    Transitions.run_cons.mpr ⟨again, step_interrupt shell (by simp) resumes,
      Transitions.run_singleton.trans (step_advance againHere advanced)⟩⟩

/-- The first shell executes a shell and is about to fill slot 2. -/
theorem reaches_claim {first : Kernel} {memory : Kernel} {dentry : Dentry} {frame : CallFrame}
    (valid : ValidProgram image shellCommand dentry)
    (launched : Launched (boot memory) frame 0 1 first) (returnValue : Word) :
    ∃ locals count, locals.curProgramid = 1 ∧
      (Machine.start first returnValue).threads first.oldTerminal = some ⟨1, .user, []⟩ ∧
      (machineSystem image).run (Machine.start first returnValue)
          (.call (.execute (some shellCommand) zeroedFrame) :: List.replicate count .advance) =
        some ((Machine.start first returnValue).become first ⟨1, .claim locals 2, []⟩) := by
  have nested := nested_first launched
  have here : (Machine.start first returnValue).threads first.oldTerminal = some ⟨1, .user, []⟩ := by
    simp only [Machine.start, launched.cr3, Outcome.toOption_done, Option.map_some,
      Function.update_self]
  rw [← commandName_shellCommand] at valid
  obtain ⟨entry, beginning⟩ :=
    beginExecute_short shellCommand_short valid zeroedFrame nested.current (by decide)
  let locals : ExecuteLocals :=
    ⟨1, commandName shellCommand, commandArgument shellCommand, entry, zeroedFrame⟩
  let called := (Machine.start first returnValue).become first ⟨1, .search locals 1, []⟩
  have stepped : (Machine.start first returnValue).call image ⟨1, .user, []⟩
      (.execute (some shellCommand) zeroedFrame) = .done called := by
    have sameBeginning : (Machine.start first returnValue).kernel.beginExecute image
        (some shellCommand) zeroedFrame = .done (some locals, first) := beginning
    simp only [Machine.call, sameBeginning, Outcome.done_bind]
    rfl
  have found : (searchSlot called.kernel.openTasks 7 1).2 = some 2 := nested.findSlot (by decide)
  have searching : called.threads called.kernel.oldTerminal = some ⟨1, .search locals 1, []⟩ :=
    Function.update_self ..
  obtain ⟨count, searched⟩ :
      Advances image called (called.become called.kernel ⟨1, .claim locals 2, []⟩) :=
    advances_search searching rfl rfl found
  refine ⟨locals, count, rfl, here, Transitions.run_cons.mpr ⟨called, step_call here rfl stepped, ?_⟩⟩
  rw [searched]
  exact congrArg some (Machine.become_become _ first first _ _ rfl)

/-- While a shell is between the test and the store for slot 2, the user opens a
terminal, whose shell gets slot 2, and comes back. -/
theorem first_slot_raced {first memory : Kernel} {dentry : Dentry} {frame : CallFrame}
    (valid : ValidProgram image shellCommand dentry) (started : FirstShell image first)
    (launched : Launched (boot memory) frame 0 1 first) :
    ∃ (inputs : List Input) (final : Machine),
      (machineSystem image).run (Machine.start first 0) inputs = some final ∧
      ¬ final.ProcessesSeparate := by
  obtain ⟨processes, placed⟩ := Placed.start started 0
  obtain ⟨locals, count, ofFirst, here, ran⟩ := reaches_claim valid launched 0
  have nested := nested_first launched
  have shown : first.oldTerminal = 0 := launched.oldTerminal.trans (boot_oldTerminal _)
  have isFree : first.openTasks 2 = -1 := by
    rw [nested.openTasks 2 (by decide) (by decide)]
    decide
  have closed : (first.terminals 1).active = 0 := launched.inactive (by decide)
  have other : (1 : TerminalId) ≠ first.oldTerminal := by
    rw [shown]
    decide
  have testedPlaced : ((Machine.start first 0).become first ⟨1, .claim locals 2, []⟩).Placed processes :=
    Placed.quietMove placed here (.refl first) rfl rfl nested.current rfl
      ⟨rfl, rfl, ofFirst, by decide, .inl isFree⟩
  obtain ⟨final, taken, mixed⟩ := slot_taken_between valid testedPlaced
    (Function.update_self ..) rfl (by simp [Thread.pids]) (nested.findSlot (by decide)) (by decide)
    other closed
    zeroedIrq zeroedFrame cachedNowhere 0
  exact ⟨_, final, Transitions.run_append.mpr ⟨_, ran, taken⟩, mixed⟩

/-- From the first shell on, whatever the user and the programs do and wherever
the interrupts come, live processes share no pid as long as, and only as long
as, every `execute` finds the slot it has tested still free when it fills it. -/
theorem processes_separate_iff {first : Kernel} {returnValue : Word} {inputs : List Input}
    {final : Machine} (started : FirstShell image first)
    (ran : (machineSystem image).run (Machine.start first returnValue) inputs = some final) :
    (machineSystem image).Always Machine.ProcessesSeparate (Machine.start first returnValue) inputs ↔
      (machineSystem image).Respects ClaimsFreeSlot (Machine.start first returnValue) inputs := by
  have preserved : ∀ machine input next, (∃ processes, machine.Placed processes) →
      ClaimsFreeSlot machine input → (machineSystem image).step machine input = some next →
      ∃ processes, next.Placed processes :=
    fun machine input next ⟨processes, placed⟩ allowed stepped => Placed.step placed allowed stepped
  have implies : ∀ machine : Machine, (∃ processes, machine.Placed processes) →
      machine.ProcessesSeparate :=
    fun machine ⟨processes, placed⟩ => Placed.processesSeparate placed
  refine Transitions.always_iff_respects preserved implies ?_ (Placed.start started returnValue) ran
  intro machine input next ⟨processes, placed⟩ refused stepped
  simp only [ClaimsFreeSlot, not_forall] at refused
  obtain ⟨thread, locals, slot, here, claims, rfl, taken⟩ := refused
  simp only [machineSystem, Machine.step, here] at stepped
  exact claim_shares_pid placed here claims taken (Outcome.toOption_eq_some.mp stepped)

/-- A run that is interrupted between the test and the store for a slot. -/
theorem processes_separate_iff_raced :
    ∃ (first : Kernel) (inputs : List Input) (final : Machine), FirstShell shellImage first ∧
      (machineSystem shellImage).run (Machine.start first 0) inputs = some final ∧
      ¬ final.ProcessesSeparate ∧
      ¬ (machineSystem shellImage).Respects ClaimsFreeSlot (Machine.start first 0) inputs := by
  obtain ⟨first, started, launched⟩ := firstShell_exists shellImage_valid zeroedMemory zeroedFrame
  obtain ⟨inputs, final, ran, mixed⟩ := first_slot_raced shellImage_valid started launched
  refine ⟨first, inputs, final, started, ran, mixed, fun respects => mixed ?_⟩
  exact ((processes_separate_iff started ran).mpr respects).last ran

theorem slot_taken_twice :
    ∃ (first : Kernel) (inputs : List Input) (final : Machine), FirstShell shellImage first ∧
      (machineSystem shellImage).run (Machine.start first 0) inputs = some final ∧
      ¬ final.ProcessesSeparate := by
  obtain ⟨first, started, launched⟩ := firstShell_exists shellImage_valid zeroedMemory zeroedFrame
  obtain ⟨inputs, final, ran, mixed⟩ := first_slot_raced shellImage_valid started launched
  exact ⟨first, inputs, final, started, ran, mixed⟩

end Ece391
