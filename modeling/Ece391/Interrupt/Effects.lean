import Ece391.Interrupt.Machine

namespace Ece391

open Kernel

/-! # What one interrupted step can do

As for whole calls, one inversion theorem for each kind of step says everything
that the invariants of the interrupted kernel use.
-/

variable {image : Image} {kernel after : Kernel}

/-- What the code that runs on the shown terminal leaves alone. -/
structure Own (kernel after : Kernel) : Prop where
  oldTerminal : after.oldTerminal = kernel.oldTerminal
  active : ∀ term, (after.terminals term).active = (kernel.terminals term).active
  others : ∀ term, term ≠ kernel.oldTerminal → after.terminals term = kernel.terminals term
  newterminalFlag : kernel.newterminalFlag = 0 → after.newterminalFlag = 0

theorem Own.refl (kernel : Kernel) : Own kernel kernel :=
  ⟨rfl, fun _ => rfl, fun _ _ => rfl, id⟩

theorem Own.ofQuiet (quiet : Quiet kernel after) : Own kernel after where
  oldTerminal := quiet.oldTerminal
  active term := by rw [quiet.terminals]
  others term _ := by rw [quiet.terminals]
  newterminalFlag unset := quiet.newterminalFlag.trans unset

/-- Showing another program on the shown terminal. -/
theorem Own.ofTerminals {programId : Int} (oldTerminal : after.oldTerminal = kernel.oldTerminal)
    (terminals : after.terminals = Function.update kernel.terminals kernel.oldTerminal
      { kernel.terminals kernel.oldTerminal with programId })
    (newterminalFlag : after.newterminalFlag = kernel.newterminalFlag) : Own kernel after where
  oldTerminal := oldTerminal
  active term := by
    rw [terminals, Function.update_apply]
    split
    · rename_i same; rw [same]
    · rfl
  others term other := by rw [terminals, Function.update_of_ne other]
  newterminalFlag unset := newterminalFlag.trans unset

/-- The CR3 that the code of a terminal runs with, or will when it is shown. -/
def Kernel.cr3Of (kernel : Kernel) (term : TerminalId) : Cr3 :=
  if term = kernel.oldTerminal then kernel.cr3 else (kernel.terminals term).cr3

theorem Own.cr3Of (own : Own kernel after) {term : TerminalId} (other : term ≠ kernel.oldTerminal) :
    after.cr3Of term = kernel.cr3Of term := by
  rw [Kernel.cr3Of, Kernel.cr3Of, own.oldTerminal, if_neg other, if_neg other, own.others term other]

theorem serve_quiet {service : Service} {value : Int}
    (served : kernel.serve image service = .done (value, after)) : Quiet kernel after := by
  cases service with
  | sysOpen filename => exact sysOpen_quiet served
  | sysClose fd => exact sysClose_quiet served
  | sysRead fd buf nbytes =>
      obtain ⟨⟨read, result, next⟩, reading, returned⟩ := Outcome.bind_eq_done.mp served
      cases returned
      exact sysRead_quiet reading
  | other result => cases served; exact .refl kernel

/-- The effect of `execute` up to the search. -/
structure Begun (kernel : Kernel) (frame : CallFrame) (locals : Option ExecuteLocals)
    (after : Kernel) : Prop where
  current : ∀ words, locals = some words → findProgramid kernel.cr3 = .done words.curProgramid
  frame : ∀ words, locals = some words → words.frame = frame
  state : ∃ shellEntry, after = { kernel with firstShellEntryPoint := shellEntry }

theorem beginExecute_eq_done {command : Option CString} {frame : CallFrame}
    {locals : Option ExecuteLocals}
    (begun : kernel.beginExecute image command frame = .done (locals, after)) :
    Begun kernel frame locals after := by
  cases command with
  | none => cases begun
  | some command =>
      obtain ⟨parsed, _, rest⟩ := Outcome.bind_eq_done.mp begun
      cases parsed with
      | none => cases rest; exact ⟨nofun, nofun, _, rfl⟩
      | some words =>
          obtain ⟨entry, _, remaining⟩ := Outcome.bind_eq_done.mp rest
          cases entry with
          | none => cases remaining; exact ⟨nofun, nofun, _, rfl⟩
          | some entryPoint =>
              obtain ⟨cur, current, stored⟩ := Outcome.bind_eq_done.mp remaining
              cases stored
              refine ⟨fun words same => ?_, fun words same => ?_, ?_⟩
              · cases same
                exact current
              · cases same
                rfl
              · split <;> exact ⟨_, rfl⟩

theorem Begun.own {frame : CallFrame} {locals : Option ExecuteLocals}
    (begun : Begun kernel frame locals after) : Own kernel after := by
  obtain ⟨shellEntry, rfl⟩ := begun.state
  exact ⟨rfl, fun _ => rfl, fun _ _ => rfl, id⟩

theorem claimSlot_own (kernel : Kernel) (cur slot : Nat) : Own kernel (kernel.claimSlot cur slot) :=
  ⟨rfl, fun _ => rfl, fun _ _ => rfl, fun unset => by simp [claimSlot, unset]⟩

/-- The effect of a stage of `execute` behind the claim. -/
structure LaunchStep (kernel : Kernel) (locals : ExecuteLocals) (slot : Nat) (stage : LaunchStage)
    (after : Kernel) : Prop extends Own kernel after where
  openTasks : after.openTasks = kernel.openTasks
  currStatus : after.currStatus = kernel.currStatus
  cr3 : stage ≠ .load → after.cr3 = kernel.cr3
  loaded : stage = .load → findProgramid after.cr3 = .done slot
  stack : ∀ pid, ¬ (stage = .save ∧ pid = locals.curProgramid ∧ pid ≠ 0) →
    (after.pcb pid).esp = (kernel.pcb pid).esp ∧ (after.pcb pid).ebp = (kernel.pcb pid).ebp
  saved : stage = .save → locals.curProgramid ≠ 0 →
    (after.pcb locals.curProgramid).esp = locals.frame.esp ∧
      (after.pcb locals.curProgramid).ebp = locals.frame.ebp

theorem launchStage_eq_done {locals : ExecuteLocals} {slot : Nat} {stage : LaunchStage}
    (done : kernel.launchStage image locals slot stage = .done after) :
    LaunchStep kernel locals slot stage after := by
  cases stage with
  | schedule =>
      cases done
      exact ⟨⟨rfl, fun _ => rfl, fun _ _ => rfl, id⟩, rfl, rfl, fun _ => rfl, (by simp),
        fun _ _ => ⟨rfl, rfl⟩, (by simp)⟩
  | setUp =>
      cases done
      refine ⟨.ofTerminals rfl rfl rfl, rfl, rfl, fun _ => rfl, (by simp), fun pid _ => ?_, (by simp)⟩
      by_cases new : pid = slot
      · subst new
        simp only [setUpPcb, Function.update_self, initialPcb, and_self]
      · simp only [setUpPcb, Function.update_of_ne new, and_self]
  | save =>
      cases done
      refine ⟨⟨rfl, fun _ => rfl, fun _ _ => rfl, id⟩, rfl, rfl, fun _ => rfl, (by simp),
        fun pid other => ?_, fun _ userCall => ?_⟩
      · simp only [saveCaller]
        by_cases kernelCall : locals.curProgramid = 0
        · rw [if_pos kernelCall]
          exact ⟨rfl, rfl⟩
        · have elsewhere : pid ≠ locals.curProgramid := by
            intro same
            exact other ⟨rfl, same, by omega⟩
          rw [if_neg kernelCall, Function.update_of_ne elsewhere]
          exact ⟨rfl, rfl⟩
      · simp only [saveCaller, if_neg userCall, Function.update_self, and_self]
  | load =>
      obtain ⟨cr3, userPage, directory, rfl⟩ := pageLoader_eq_done done
      exact ⟨⟨rfl, fun _ => rfl, fun _ _ => rfl, id⟩, rfl, rfl, fun other => absurd rfl other,
        fun _ => directory, fun _ _ => ⟨rfl, rfl⟩, (by simp)⟩
  | enter =>
      cases done
      refine ⟨⟨rfl, fun _ => rfl, fun _ _ => rfl, id⟩, rfl, rfl, fun _ => rfl, (by simp),
        fun pid _ => ?_, (by simp)⟩
      by_cases new : pid = slot
      · subst new
        simp only [enterProgram, Function.update_self, and_self]
      · simp only [enterProgram, Function.update_of_ne new, and_self]

/-- The effect of a stage of `halt`. -/
structure HaltStep (kernel : Kernel) (status : Byte) (cur : Nat) (parent : Int)
    (stage : HaltStage) (after : Kernel) : Prop extends Own kernel after where
  openTasks : stage ≠ .free → after.openTasks = kernel.openTasks
  freed : stage = .free → after.openTasks = Function.update kernel.openTasks cur (-1)
  currStatus : after.currStatus = if stage = .status then (status.toNat : Int) else kernel.currStatus
  cr3 : stage ≠ .page → after.cr3 = kernel.cr3
  paged : stage = .page → pageDirectoryOf parent = some after.cr3
  stack : ∀ pid, (after.pcb pid).esp = (kernel.pcb pid).esp ∧
    (after.pcb pid).ebp = (kernel.pcb pid).ebp

theorem closeDescriptors_quiet {fds : List Nat}
    (done : closeDescriptors fds kernel = .done after) : Quiet kernel after := by
  induction fds generalizing kernel with
  | nil => cases done; exact .refl _
  | cons fd rest ih =>
      obtain ⟨⟨value, middle⟩, closing, remaining⟩ := Outcome.bind_eq_done.mp done
      exact (sysClose_quiet closing).trans (ih remaining)

theorem HaltStep.ofOwn {status : Byte} {cur : Nat} {parent : Int} {stage : HaltStage}
    (own : Own kernel after) (plain : stage ≠ .status ∧ stage ≠ .page ∧ stage ≠ .free)
    (openTasks : after.openTasks = kernel.openTasks) (currStatus : after.currStatus = kernel.currStatus)
    (cr3 : after.cr3 = kernel.cr3)
    (stack : ∀ pid, (after.pcb pid).esp = (kernel.pcb pid).esp ∧
      (after.pcb pid).ebp = (kernel.pcb pid).ebp) :
    HaltStep kernel status cur parent stage after where
  toOwn := own
  openTasks _ := openTasks
  freed same := absurd same plain.2.2
  currStatus := by rw [currStatus, if_neg plain.1]
  cr3 _ := cr3
  paged same := absurd same plain.2.1
  stack := stack

theorem haltStage_eq_done {status : Byte} {cur : Nat} {parent : Int} {stage : HaltStage}
    (done : kernel.haltStage status cur parent stage = .done after) :
    HaltStep kernel status cur parent stage after := by
  cases stage with
  | status =>
      cases done
      exact ⟨⟨rfl, fun _ => rfl, fun _ _ => rfl, id⟩, fun _ => rfl, (by simp), rfl, fun _ => rfl, (by simp),
        fun _ => ⟨rfl, rfl⟩⟩
  | schedule =>
      cases done
      exact .ofOwn ⟨rfl, fun _ => rfl, fun _ _ => rfl, id⟩ (by decide) rfl rfl rfl fun _ => ⟨rfl, rfl⟩
  | terminal =>
      cases done
      exact .ofOwn (.ofTerminals rfl rfl rfl) (by decide) rfl rfl rfl fun _ => ⟨rfl, rfl⟩
  | page =>
      obtain ⟨cr3, directory, rfl⟩ := setProgrampage_eq_done.mp done
      exact ⟨⟨rfl, fun _ => rfl, fun _ _ => rfl, id⟩, fun _ => rfl, (by simp), rfl,
        fun other => absurd rfl other, fun _ => directory, fun _ => ⟨rfl, rfl⟩⟩
  | free =>
      cases done
      exact ⟨⟨rfl, fun _ => rfl, fun _ _ => rfl, id⟩, fun other => absurd rfl other, fun _ => rfl, rfl,
        fun _ => rfl, (by simp), fun _ => ⟨rfl, rfl⟩⟩
  | close =>
      have quiet := closeDescriptors_quiet done
      exact .ofOwn (.ofQuiet quiet) (by decide) quiet.openTasks quiet.currStatus quiet.cr3 quiet.stack
  | stack =>
      cases done
      exact .ofOwn ⟨rfl, fun _ => rfl, fun _ _ => rfl, id⟩ (by decide) rfl rfl rfl fun _ => ⟨rfl, rfl⟩
  | jump =>
      cases done
      exact .ofOwn (.refl kernel) (by decide) rfl rfl rfl fun _ => ⟨rfl, rfl⟩

/-- What both kinds of switch do: the terminal that was shown is saved with the
registers of the interrupt, the others stay as they are. -/
structure Leaves (kernel : Kernel) (irq : IrqFrame) (target : TerminalId) (after : Kernel) : Prop where
  different : target ≠ kernel.oldTerminal
  oldTerminal : after.oldTerminal = target
  newterminalFlag : kernel.newterminalFlag = 0 → after.newterminalFlag = 0
  currStatus : after.currStatus = kernel.currStatus
  saved : (after.terminals kernel.oldTerminal).esp = irq.esp_0 ∧
    (after.terminals kernel.oldTerminal).ebp = irq.ebp_0
  registers : ∀ term, term ≠ kernel.oldTerminal →
    (after.terminals term).esp = (kernel.terminals term).esp ∧
      (after.terminals term).ebp = (kernel.terminals term).ebp
  cr3Of : ∀ term, term ≠ target → after.cr3Of term = kernel.cr3Of term

/-- The effect of a switch back to a terminal in use. -/
structure Resumed (kernel : Kernel) (irq : IrqFrame) (target : TerminalId) (after : Kernel) : Prop
    extends Leaves kernel irq target after where
  inUse : (kernel.terminals target).active ≠ 0
  openTasks : after.openTasks = kernel.openTasks
  active : ∀ term, (after.terminals term).active = (kernel.terminals term).active
  targetCr3 : after.cr3Of target = kernel.cr3Of target
  pcb : after.pcb = kernel.pcb

/-- The effect of a switch to a new terminal, whose shell gets `slot`.  The
`execute` in it saves its stack registers for the process that was interrupted. -/
structure Opened (kernel : Kernel) (irq : IrqFrame) (frame : CallFrame) (target : TerminalId)
    (slot : Nat) (after : Kernel) : Prop extends Leaves kernel irq target after where
  notInUse : (kernel.terminals target).active = 0
  range : 1 ≤ slot ∧ slot ≤ 6
  free : kernel.openTasks slot = -1
  openTasks : after.openTasks = Function.update kernel.openTasks slot 0
  targetActive : (after.terminals target).active = 1
  active : ∀ term, term ≠ target → (after.terminals term).active = (kernel.terminals term).active
  targetCr3 : findProgramid (after.cr3Of target) = .done slot
  stack : ∀ pid, findProgramid kernel.cr3 ≠ .done pid →
    (after.pcb pid).esp = (kernel.pcb pid).esp ∧ (after.pcb pid).ebp = (kernel.pcb pid).ebp

theorem LeftTerminal.cr3Of {irq : IrqFrame} {cur : Nat} {target : TerminalId} {shown : Kernel}
    (leaving : LeftTerminal { kernel with esp_0 := irq.esp_0, ebp_0 := irq.ebp_0 } cur target shown)
    (term : TerminalId) : (shown.terminals term).cr3 = kernel.cr3Of term := by
  rw [leaving.terminals, Kernel.cr3Of]
  dsimp only
  by_cases same : term = kernel.oldTerminal
  · subst same
    rw [Function.update_self, if_pos rfl]
  · rw [Function.update_of_ne same, if_neg same]

theorem Leaves.ofLeftTerminal {irq : IrqFrame} {cur : Nat} {target : TerminalId} {shown : Kernel}
    (different : target ≠ kernel.oldTerminal)
    (leaving : LeftTerminal { kernel with esp_0 := irq.esp_0, ebp_0 := irq.ebp_0 } cur target shown)
    (oldTerminal : after.oldTerminal = target)
    (newterminalFlag : kernel.newterminalFlag = 0 → after.newterminalFlag = 0)
    (currStatus : after.currStatus = shown.currStatus)
    (terminals : ∀ term, (after.terminals term).esp = (shown.terminals term).esp ∧
      (after.terminals term).ebp = (shown.terminals term).ebp ∧
      (after.terminals term).cr3 = (shown.terminals term).cr3) :
    Leaves kernel irq target after where
  different := different
  oldTerminal := oldTerminal
  newterminalFlag := newterminalFlag
  currStatus := currStatus.trans leaving.currStatus
  saved := by
    obtain ⟨esp, ebp, _⟩ := terminals kernel.oldTerminal
    rw [esp, ebp, leaving.terminals]
    dsimp only
    rw [Function.update_self]
    exact ⟨rfl, rfl⟩
  registers term other := by
    obtain ⟨esp, ebp, _⟩ := terminals term
    rw [esp, ebp, leaving.terminals]
    dsimp only
    rw [Function.update_of_ne other]
    exact ⟨rfl, rfl⟩
  cr3Of term other := by
    rw [Kernel.cr3Of, oldTerminal, if_neg other, (terminals term).2.2]
    exact LeftTerminal.cr3Of leaving term

section Left

variable {irq : IrqFrame} {frame : CallFrame} {tlb : TlbUse} {cur cur' slot : Nat}
  {target : TerminalId} {shown : Kernel}

theorem LeftTerminal.target_same
    (leaving : LeftTerminal { kernel with esp_0 := irq.esp_0, ebp_0 := irq.ebp_0 } cur target shown)
    (different : target ≠ kernel.oldTerminal) :
    shown.terminals target = kernel.terminals target := by
  rw [leaving.terminals]
  exact Function.update_of_ne different ..

theorem LeftTerminal.active
    (leaving : LeftTerminal { kernel with esp_0 := irq.esp_0, ebp_0 := irq.ebp_0 } cur target shown)
    (term : TerminalId) : (shown.terminals term).active = (kernel.terminals term).active := by
  rw [leaving.terminals]
  dsimp only
  rw [Function.update_apply]
  split
  · rename_i same; rw [same]
  · rfl

/-- The shell of a terminal that is opened has been started. -/
theorem Opened.ofLaunched
    (leaving : LeftTerminal { kernel with esp_0 := irq.esp_0, ebp_0 := irq.ebp_0 } cur target shown)
    (different : target ≠ kernel.oldTerminal) (inactive : (shown.terminals target).active = 0)
    (launched : Launched (shown.openTerminal target) frame cur' slot after) :
    Opened kernel irq frame target slot after := by
  have sameTable : (shown.openTerminal target).openTasks = kernel.openTasks := leaving.openTasks
  have isShown : after.oldTerminal = target := launched.oldTerminal.trans leaving.oldTerminal
  have terminals : after.terminals = Function.update
      (Function.update shown.terminals target { shown.terminals target with active := 1 }) target
      { (Function.update shown.terminals target
          { shown.terminals target with active := 1 }) target with programId := slot } := by
    have wasShown : (shown.openTerminal target).oldTerminal = target := leaving.oldTerminal
    have launchedTerminals := launched.terminals
    rw [wasShown] at launchedTerminals
    exact launchedTerminals
  refine ⟨?_, ?_, launched.slot_range, ?_, ?_, ?_, ?_, ?_, ?_⟩
  · refine .ofLeftTerminal different leaving isShown ?_ launched.currStatus fun other => ?_
    · intro _
      rw [launched.newterminalFlag]
      exact if_pos rfl
    · rw [terminals]
      by_cases same : other = target
      · subst same
        simp only [Function.update_self, and_self]
      · simp only [Function.update_of_ne same, and_self]
  · rw [← LeftTerminal.target_same leaving different]
    exact inactive
  · have free := launched.slot_free
    rwa [sameTable] at free
  · rw [launched.openTasks, sameTable]
    exact congrArg _ (if_pos rfl)
  · rw [terminals]
    simp only [Function.update_self]
  · intro other elsewhere
    rw [terminals, Function.update_of_ne elsewhere, Function.update_of_ne elsewhere]
    exact LeftTerminal.active leaving other
  · rw [Kernel.cr3Of, if_pos isShown.symm]
    exact launched.cr3
  · intro pid other
    have notCaller : pid ≠ cur' := by
      intro same
      have current : findProgramid shown.cr3 = .done cur' := launched.current
      rw [leaving.cr3] at current
      exact other (same ▸ current)
    have samePcb : (shown.openTerminal target).pcb = kernel.pcb := leaving.pcb
    rw [← samePcb]
    exact launched.otherStack pid notCaller

theorem Resumed.ofResumeTerminal
    (leaving : LeftTerminal { kernel with esp_0 := irq.esp_0, ebp_0 := irq.ebp_0 } cur target shown)
    (different : target ≠ kernel.oldTerminal) (active : (shown.terminals target).active ≠ 0) :
    Resumed kernel irq target (shown.resumeTerminal target tlb).2 := by
  refine ⟨?_, ?_, ?_, ?_, ?_, ?_⟩
  · refine .ofLeftTerminal different leaving ?_ ?_ ?_ fun other => ?_
    · rw [resumeTerminal_oldTerminal, leaving.oldTerminal]
    · intro unset
      rw [resumeTerminal_newterminalFlag, leaving.newterminalFlag]
      exact unset
    · rw [resumeTerminal_currStatus]
    · rw [resumeTerminal_terminals]
      exact ⟨rfl, rfl, rfl⟩
  · rw [← LeftTerminal.target_same leaving different]
    exact active
  · rw [resumeTerminal_openTasks, leaving.openTasks]
  · intro other
    rw [resumeTerminal_terminals]
    exact LeftTerminal.active leaving other
  · have isShown : (shown.resumeTerminal target tlb).2.oldTerminal = target := by
      rw [resumeTerminal_oldTerminal, leaving.oldTerminal]
    rw [Kernel.cr3Of, if_pos isShown.symm, resumeTerminal_cr3]
    exact LeftTerminal.cr3Of leaving target
  · rw [resumeTerminal_pcb, leaving.pcb]

end Left

/-- A keyboard interrupt is ignored, comes back to a terminal or starts one. -/
theorem keyboardSwitch_cases {term : Int} {irq : IrqFrame} {frame : CallFrame} {tlb : TlbUse}
    {control : Control}
    (switched : kernel.keyboardSwitch image term irq frame tlb = .done (control, after)) :
    (control = .returns 0 ∧ after = { kernel with esp_0 := irq.esp_0, ebp_0 := irq.ebp_0 }) ∨
    control = .returns (-1) ∨
    (∃ target : TerminalId, (target : Int) = term ∧ Resumed kernel irq target after ∧
      control = .intRetHelper (kernel.terminals target).ebp (kernel.terminals target).esp) ∨
    ∃ (target : TerminalId) (slot : Nat) (entry : Word), (target : Int) = term ∧
      (findSlot kernel.openTasks).2 = some slot ∧ Opened kernel irq frame target slot after ∧
      control = .iret entry := by
  rcases terminalSwitch_eq_done switched with
    ⟨ignored, same⟩ | ⟨target, cur, shown, different, isTerm, leaving, shows⟩
  · exact .inl ⟨ignored, same⟩
  have different : target ≠ kernel.oldTerminal := different
  rcases shows with ⟨inactive, started⟩ | ⟨active, resumed⟩
  · rcases execute_eq_done started with ⟨failed, _⟩ | ⟨entry, cur', slot, starts, launched⟩
    · exact .inr (.inl failed)
    · have sameTable : (shown.openTerminal target).openTasks = kernel.openTasks := leaving.openTasks
      have found := launched.found
      rw [sameTable] at found
      exact .inr (.inr (.inr ⟨target, slot, entry, isTerm, found,
        .ofLaunched leaving different inactive launched, starts⟩))
  · have leftControl : control = (shown.resumeTerminal target tlb).1 := congrArg Prod.fst resumed
    have isAfter : after = (shown.resumeTerminal target tlb).2 := congrArg Prod.snd resumed
    subst isAfter
    refine .inr (.inr (.inl ⟨target, isTerm, .ofResumeTerminal leaving different active, ?_⟩))
    rw [leftControl, ← LeftTerminal.target_same leaving different]
    rfl

/-- What an interrupt does to the machine. -/
inductive Interrupted (machine : Machine) (thread : Thread) (term : Int) (irq : IrqFrame)
    (frame : CallFrame) (scratch : Word) : Machine → Prop
  | ignored : Interrupted machine thread term irq frame scratch
      { machine with kernel := { machine.kernel with esp_0 := irq.esp_0, ebp_0 := irq.ebp_0 } }
  | resumed {target : TerminalId} {after : Kernel} (isTerm : (target : Int) = term)
      (resumed : Resumed machine.kernel irq target after) :
      Interrupted machine thread term irq frame scratch (machine.become after (thread.spill scratch))
  | opened {target : TerminalId} {slot : Nat} {after : Kernel} (isTerm : (target : Int) = term)
      (found : (findSlot machine.kernel.openTasks).2 = some slot)
      (opened : Opened machine.kernel irq frame target slot after) :
      Interrupted machine thread term irq frame scratch
        ((machine.become after (thread.spill scratch)).startShell target slot)

theorem interrupt_eq_some {machine next : Machine} {thread : Thread} {term : Int} {irq : IrqFrame}
    {frame : CallFrame} {tlb : TlbUse} {scratch : Word}
    (interrupted : machine.interrupt image thread term irq frame tlb scratch = some next) :
    Interrupted machine thread term irq frame scratch next := by
  cases switched : machine.kernel.keyboardSwitch image term irq frame tlb with
  | done outcome =>
      obtain ⟨control, after⟩ := outcome
      rcases keyboardSwitch_cases switched with
        ⟨rfl, rfl⟩ | rfl | ⟨target, isTerm, resumed, rfl⟩ |
        ⟨target, slot, entry, isTerm, found, opened, rfl⟩
      · simp only [Machine.interrupt, switched] at interrupted
        cases interrupted
        exact .ignored
      · simp [Machine.interrupt, switched] at interrupted
      · simp only [Machine.interrupt, switched] at interrupted
        cases interrupted
        exact .resumed isTerm resumed
      · simp only [Machine.interrupt, switched, found, Option.map_some] at interrupted
        cases interrupted
        rw [opened.oldTerminal]
        exact .opened isTerm found opened
  | spins => simp [Machine.interrupt, switched] at interrupted
  | outOfBounds => simp [Machine.interrupt, switched] at interrupted
  | pageFault => simp [Machine.interrupt, switched] at interrupted

end Ece391
