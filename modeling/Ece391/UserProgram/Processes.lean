import Ece391.Library.Spawning
import Ece391.Process.Nesting
import Ece391.UserProgram.Cat
import Ece391.UserProgram.Keyboard

namespace Ece391

open Library Kernel

/-! # execute as a call (systemcall.c)

`ece391_execute` of a process runs another program, which may call it again, and gives its
caller the status of that program.
-/

/-- While `cur` runs, nobody else does, and the control blocks of all others stay. -/
structure SameProcesses (cur : Nat) (kernel after : Kernel) : Prop where
  openTasks : after.openTasks = kernel.openTasks
  newterminalFlag : after.newterminalFlag = kernel.newterminalFlag
  oldTerminal : after.oldTerminal = kernel.oldTerminal
  cr3 : after.cr3 = kernel.cr3
  tssEsp0 : after.tssEsp0 = kernel.tssEsp0
  programId : ∀ term, (after.terminals term).programId = (kernel.terminals term).programId
  pcb : ∀ pid, kernel.openTasks pid ≠ -1 → pid ≠ cur → after.pcb pid = kernel.pcb pid

variable {image : Image} {behind : BehindTables} {driver next later : TerminalDriver}
  {kernel started ended back middle after : Kernel} {processes : Forest TerminalId Nat}
  {cur slot : Nat} {console : Console} {frame : CallFrame} {status : Byte}

theorem SameProcesses.refl (cur : Nat) (kernel : Kernel) : SameProcesses cur kernel kernel :=
  ⟨rfl, rfl, rfl, rfl, rfl, fun _ => rfl, fun _ _ _ => rfl⟩

theorem SameProcesses.trans (first : SameProcesses cur kernel middle)
    (second : SameProcesses cur middle after) : SameProcesses cur kernel after where
  openTasks := second.openTasks.trans first.openTasks
  newterminalFlag := second.newterminalFlag.trans first.newterminalFlag
  oldTerminal := second.oldTerminal.trans first.oldTerminal
  cr3 := second.cr3.trans first.cr3
  tssEsp0 := second.tssEsp0.trans first.tssEsp0
  programId term := (second.programId term).trans (first.programId term)
  pcb pid live other :=
    (second.pcb pid (by rwa [first.openTasks]) other).trans (first.pcb pid live other)

theorem Kernel.Draws.sameProcesses (draws : Draws kernel console after) (cur : Nat) :
    SameProcesses cur kernel after where
  openTasks := draws.openTasks
  newterminalFlag := draws.newterminalFlag
  oldTerminal := draws.oldTerminal
  cr3 := draws.cr3
  tssEsp0 := draws.tssEsp0
  programId := draws.programId
  pcb pid _ _ := by rw [draws.pcb]

theorem Kernel.Quiet.sameProcesses (quiet : Quiet kernel after)
    (pcb : ∀ pid, pid ≠ cur → after.pcb pid = kernel.pcb pid) : SameProcesses cur kernel after where
  openTasks := quiet.openTasks
  newterminalFlag := quiet.newterminalFlag
  oldTerminal := quiet.oldTerminal
  cr3 := quiet.cr3
  tssEsp0 := quiet.tssEsp0
  programId term := by rw [quiet.terminals]
  pcb pid _ other := pcb pid other

theorem sysOpen_others {filename : CString} {value : Int}
    (current : findProgramid kernel.cr3 = .done cur)
    (done : kernel.sysOpen image filename = .done (value, after)) (pid : Nat) (other : pid ≠ cur) :
    after.pcb pid = kernel.pcb pid := by
  rcases sysOpen_eq_done done with ⟨_, rfl⟩ | ⟨caller, fd, dentry, takes, _⟩
  · rfl
  · obtain rfl := Outcome.done.inj (takes.current.symm.trans current)
    obtain ⟨taken, rfl, rfl | rfl⟩ := takes.state
    · exact Function.update_of_ne other ..
    · rw [rtcWrite_pcb]
      exact Function.update_of_ne other ..

theorem sysClose_others {fd value : Int} (current : findProgramid kernel.cr3 = .done cur)
    (done : kernel.sysClose fd = .done (value, after)) (pid : Nat) (other : pid ≠ cur) :
    after.pcb pid = kernel.pcb pid := by
  rcases sysClose_eq_done done with ⟨_, rfl⟩ | ⟨caller, _, calling, _, rfl⟩
  · rfl
  · obtain rfl := Outcome.done.inj (calling.symm.trans current)
    exact Function.update_of_ne other ..

theorem sysRead_others {fd nbytes value : Int} {buf result : Option (Nat → Byte)}
    (current : findProgramid kernel.cr3 = .done cur)
    (done : kernel.sysRead image fd buf nbytes = .done (value, result, after)) (pid : Nat)
    (other : pid ≠ cur) : after.pcb pid = kernel.pcb pid := by
  obtain ⟨caller, calling, effect⟩ := sysRead_effect done
  obtain rfl := Outcome.done.inj (calling.symm.trans current)
  cases effect with
  | same => rfl
  | moved filePosition => exact Function.update_of_ne other ..
  | listed _ _ _ => rfl
  | ticked => rfl

/-! ### Its calls -/

theorem RunsAs.typed_same (running : RunsAs image behind cur driver)
    (typing : KeysPressed behind driver later) :
    SameProcesses cur driver.kernel later.kernel := by
  induction typing with
  | refl => exact .refl cur _
  | tail before pressed ih =>
      obtain ⟨scancode, irq, cached, done⟩ := pressed
      obtain ⟨_, processes, attended⟩ := (running.typed before).reachable.attended
      obtain ⟨_, _, draws⟩ := keyHandled_draws attended done
      exact ih.trans (draws.sameProcesses cur)

theorem RunsAs.quiet_call {event : Event} (running : RunsAs image behind cur driver)
    (starts : ShellStarts image driver.kernel event)
    (stepped : driver.kernel.step image event = some after) (quiet : Quiet driver.kernel after)
    (pcb : ∀ pid, pid ≠ cur → after.pcb pid = driver.kernel.pcb pid) :
    RunsAs image behind cur { driver with kernel := after } ∧
      SameProcesses cur driver.kernel after :=
  ⟨running.call_step starts stepped quiet.cr3, quiet.sameProcesses pcb⟩

theorem RunsAs.serves {call : UserCall} {reply : call.Reply} {taken chars : List Byte}
    (running : RunsAs image behind cur driver)
    (served : Serves image behind driver call reply taken chars next) :
    RunsAs image behind cur next ∧ SameProcesses cur driver.kernel next.kernel := by
  have current := running.current
  obtain ⟨_, processes, attended⟩ := running.reachable.attended
  cases served with
  | @sysOpen filename _ after done =>
      have stepped : driver.kernel.step image (.sysOpen filename) = some after := by
        simp only [Kernel.step, done, Outcome.toOption_done, Option.map_some]
      have starts : ShellStarts image driver.kernel (.sysOpen filename) := trivial
      exact running.quiet_call starts stepped (sysOpen_quiet done) (sysOpen_others current done)
  | @sysClose fd _ after done =>
      have stepped : driver.kernel.step image (.sysClose fd) = some after := by
        simp only [Kernel.step, done, Outcome.toOption_done, Option.map_some]
      have starts : ShellStarts image driver.kernel (.sysClose fd) := trivial
      exact running.quiet_call starts stepped (sysClose_quiet done) (sysClose_others current done)
  | @sysRead fd _ nbytes buf _ after done =>
      have stepped : driver.kernel.step image (.sysRead fd (some buf) nbytes) = some after := by
        simp only [Kernel.step, done, Outcome.toOption_done, Option.map_some]
      have starts : ShellStarts image driver.kernel (.sysRead fd (some buf) nbytes) := trivial
      exact running.quiet_call starts stepped (sysRead_quiet done) (sysRead_others current done)
  | keyboard _ _ waits typed takes =>
      obtain ⟨waiting, _, _⟩ := running.awaitsLine waits
      have typing := waiting.typed typed
      obtain ⟨finished, _, _⟩ := typing.takesLine takes
      obtain ⟨_, _, attendedTyped⟩ := typing.reachable.attended
      obtain ⟨_, _, draws⟩ := attendedTyped.takeLine takes
      have first := (attended.awaitLine waits).sameProcesses cur
      exact ⟨finished, (first.trans (waiting.typed_same typed)).trans (draws.sameProcesses cur)⟩
  | @sysWrite _ nbytes buf cached _ after done =>
      obtain ⟨_, _, _, _, _, draws⟩ := attended.write done
      have stepped : driver.step image behind (.write buf nbytes cached) =
          some { driver with kernel := after } := by
        simp only [TerminalDriver.step, done, Outcome.toOption_done, Option.map_some]
      have starts : driver.StartsShells image behind (.write buf nbytes cached) := trivial
      refine ⟨⟨running.reachable.step starts stepped, ?_⟩, draws.sameProcesses cur⟩
      rw [draws.cr3]
      exact current
  | sysGetargs _ => exact ⟨running, .refl cur _⟩
  | refusedWrite _ _ => exact ⟨running, .refl cur _⟩
  | vidmap => exact ⟨running, .refl cur _⟩
  | callSys _ => exact ⟨running, .refl cur _⟩

/-- The control block of a process whose `execute` has come back: `halt` has called `close`
on its descriptors. -/
def Pcb.resumed (pcb : Pcb) (cr3 : Cr3) (frame : CallFrame) : Pcb :=
  { pcb with fd := closeFds [2, 3, 4, 5, 6, 7] pcb.fd, cr3, esp := frame.esp, ebp := frame.ebp }

variable {command : CString} {entry : Word} {control : Control} {dentry : Dentry}

theorem RunsAs.runsOn (running : RunsAs image behind cur driver) : RunsOn driver.kernel cur := by
  obtain ⟨_, processes, attended⟩ := running.reachable.attended
  obtain ⟨other, runs⟩ := attended.toConsistent.runsOn
  obtain rfl := Outcome.done.inj (runs.current.symm.trans running.current)
  exact runs

/-- `execute` stores to the control blocks of the caller and of the new process. -/
theorem execute_pcb (runs : RunsOn kernel cur)
    (executed : kernel.execute image (some command) frame = .done (.iret entry, started)) :
    ∃ slot, Launched kernel frame cur slot started ∧
      started.pcb cur =
        { kernel.pcb cur with cr3 := kernel.cr3, esp := frame.esp, ebp := frame.ebp } ∧
      ∀ pid, pid ≠ cur → pid ≠ slot → started.pcb pid = kernel.pcb pid := by
  rcases execute_inv executed with ⟨refused, _⟩ | ⟨_, _, _, launching⟩
  · cases refused
  obtain ⟨_, caller, slot, launched⟩ := launch_eq_done launching
  obtain rfl := Outcome.done.inj (launched.current.symm.trans runs.current)
  obtain ⟨other, new, shellEntry, cr3, userPage, _, current, found, _, isStarted⟩ :=
    launch_inv launching
  obtain rfl := Outcome.done.inj (current.symm.trans runs.current)
  obtain rfl := Option.some.inj (found.symm.trans launched.found)
  have different : other ≠ new := fun same => runs.live (same ▸ launched.slot_free)
  refine ⟨new, launched, ?_, fun pid notCaller notNew => ?_⟩
  · rw [isStarted]
    simp only [enterProgram, loadCr3, saveCaller, setUpPcb, scheduleLaunch, claimSlot,
      if_neg runs.user, Function.update_of_ne different, Function.update_self]
  · rw [isStarted]
    simp only [enterProgram, loadCr3, saveCaller, setUpPcb, scheduleLaunch, claimSlot,
      if_neg runs.user, Function.update_of_ne notNew, Function.update_of_ne notCaller]

/-- What the caller finds when the new process has halted. -/
structure CameBack (kernel : Kernel) (cur : Nat) (frame : CallFrame) (status : Byte)
    (back : Kernel) : Prop where
  status : back.currStatus = status.toNat
  current : findProgramid back.cr3 = .done cur
  same : SameProcesses cur kernel back
  own : back.pcb cur = (kernel.pcb cur).resumed kernel.cr3 frame

theorem halt_comesBack (runs : RunsOn kernel cur)
    (executed : kernel.execute image (some command) frame = .done (.iret entry, started))
    (launched : Launched kernel frame cur slot started)
    (inside : SameProcesses slot started ended)
    (halting : ended.halt status = .done (control, back)) :
    control = .haltRetLabel frame.esp frame.ebp ∧ CameBack kernel cur frame status back := by
  obtain ⟨new, again, ownBlock, otherBlocks⟩ := execute_pcb runs executed
  obtain rfl := Option.some.inj (again.found.symm.trans launched.found)
  obtain ⟨child, openTasks⟩ := runs.launched launched
  have different : cur ≠ new := fun same => runs.live (same ▸ launched.slot_free)
  have current : findProgramid ended.cr3 = .done new := by
    rw [inside.cr3]
    exact child.current
  have tasks : ended.openTasks = Function.update kernel.openTasks new cur :=
    inside.openTasks.trans openTasks
  have parentTask : ended.openTasks new = cur := by
    rw [tasks, Function.update_self]
  have liveCaller : started.openTasks cur ≠ -1 := by
    rw [openTasks, Function.update_of_ne different]
    exact runs.live
  have callerBlock : ended.pcb cur =
      { kernel.pcb cur with cr3 := kernel.cr3, esp := frame.esp, ebp := frame.ebp } :=
    (inside.pcb cur liveCaller different).trans ownBlock
  rcases halt_eq_done halting with ⟨other, _, restarted⟩ | ⟨other, parent, leaves, left⟩
  · obtain rfl := Outcome.done.inj (restarted.current.symm.trans current)
    have root := restarted.root
    rw [parentTask] at root
    exact absurd (Int.natCast_eq_zero.mp root) runs.user
  obtain rfl := Outcome.done.inj (left.current.symm.trans current)
  obtain rfl := Int.natCast_inj.mp (left.parentTask.symm.trans parentTask)
  refine ⟨?_, left.currStatus, left.cr3, ?_, ?_⟩
  · rw [leaves, callerBlock]
  · exact {
      openTasks := by
        rw [left.openTasks, tasks, Function.update_idem, ← launched.slot_free,
          Function.update_eq_self]
      newterminalFlag := by
        rw [left.newterminalFlag, inside.newterminalFlag, child.newterminalFlag,
          runs.newterminalFlag]
      oldTerminal := left.oldTerminal.trans (inside.oldTerminal.trans launched.oldTerminal)
      cr3 := Option.some.inj ((pageDirectoryOf_findProgramid.mp left.cr3).symm.trans
        (pageDirectoryOf_findProgramid.mp runs.current))
      tssEsp0 := left.tssEsp0.trans runs.stack.symm
      programId := by
        intro term
        rw [left.terminals, inside.oldTerminal, launched.oldTerminal]
        by_cases shown : term = kernel.oldTerminal
        · rw [shown, Function.update_self]
          exact runs.shown.symm
        · rw [Function.update_of_ne shown, inside.programId, launched.terminals,
            Function.update_of_ne shown]
      pcb := by
        intro pid live notCaller
        have notNew : pid ≠ other := fun same => live (same ▸ launched.slot_free)
        have liveInside : started.openTasks pid ≠ -1 := by
          rw [openTasks, Function.update_of_ne notNew]
          exact live
        rw [left.pcb, Function.update_of_ne notCaller, inside.pcb pid liveInside notNew,
          otherBlocks pid notCaller notNew] }
  · rw [left.pcb, Function.update_self, callerBlock]
    rfl

/-- The new process can halt. -/
theorem halt_exists (runs : RunsOn kernel cur) (launched : Launched kernel frame cur slot started)
    (inside : SameProcesses slot started ended) (status : Byte) :
    ∃ control back, ended.halt status = .done (control, back) := by
  obtain ⟨child, openTasks⟩ := runs.launched launched
  have current : findProgramid ended.cr3 = .done slot := by
    rw [inside.cr3]
    exact child.current
  have parentTask : ended.openTasks slot = cur := by
    rw [inside.openTasks, openTasks, Function.update_self]
  obtain ⟨control, back, halting, _⟩ := halt_leaves status current parentTask
    (Nat.pos_of_ne_zero runs.user) (findProgramid_lt runs.current)
  exact ⟨control, back, halting⟩

/-- The byte that `halt` gets of what `main` returned. -/
def exitStatus (value : Int) : Byte := UInt8.ofInt value

section Spawn

variable (image : Image) (behind : BehindTables) (programs : CString → UserProgram Int → Prop)

/-- No program is started. -/
inductive ExecuteRefuses : ProcessView → (call : UserCall) → call.Reply → ProcessView → Prop
  | execute {view : ProcessView} {typed : TerminalDriver} {command : CString} {frame : CallFrame}
      {value : Int} {kernel : Kernel} (typing : KeysPressed behind view.driver typed)
      (done : typed.kernel.execute image (some command) frame = .done (.returns value, kernel)) :
      ExecuteRefuses view (.ece391Execute command) value
        ⟨{ typed with kernel }, view.heard, view.printed⟩

/-- The program of the file that the command names is started. -/
inductive ExecuteEnters : ProcessView → UserCall → CallFrame → UserProgram Int → ProcessView → Prop
  | execute {view : ProcessView} {typed : TerminalDriver} {command : CString} {frame : CallFrame}
      {main : UserProgram Int} {entry : Word} {kernel : Kernel}
      (typing : KeysPressed behind view.driver typed)
      (program : programs (commandName command) main)
      (done : typed.kernel.execute image (some command) frame = .done (.iret entry, kernel)) :
      ExecuteEnters view (.ece391Execute command) frame main
        ⟨{ typed with kernel }, view.heard, view.printed⟩

/-- The halt of a program goes on at `halt_ret_label` of the `execute` with this frame. -/
inductive ExecuteLeaves : CallFrame → Int → ProcessView → (call : UserCall) → call.Reply → ProcessView →
    Prop
  | halt {view : ProcessView} {typed : TerminalDriver} {command : CString} {frame : CallFrame}
      {value : Int} {kernel : Kernel} (typing : KeysPressed behind view.driver typed)
      (done : typed.kernel.halt (exitStatus value) =
        .done (.haltRetLabel frame.esp frame.ebp, kernel)) :
      ExecuteLeaves frame value view (.ece391Execute command) kernel.currStatus
        ⟨{ typed with kernel }, view.heard, view.printed⟩

def processSpawning : Spawning ProcessView UserCall UserCall.Reply Int CallFrame where
  refuses := ExecuteRefuses image behind
  enters := ExecuteEnters image behind programs
  leaves := ExecuteLeaves behind

/-- The kernel with `programs` in its files, for processes that nest `depth` deep. -/
def processContract (depth : Nat) : Contract ProcessView UserCall UserCall.Reply :=
  (kernelContract image behind).spawning (processSpawning image behind programs) depth

/-- Whoever runs goes on to run, and left the others alone. -/
def GoesOn (view next : ProcessView) : Prop :=
  ∀ cur, RunsAs image behind cur view.driver → RunsAs image behind cur next.driver ∧
    SameProcesses cur view.driver.kernel next.driver.kernel

end Spawn

section Contracts

variable {programs : CString → UserProgram Int → Prop} {view final inside : ProcessView}
  {main : UserProgram Int} {value : Int}

theorem GoesOn.refl (view : ProcessView) : GoesOn image behind view view :=
  fun cur running => ⟨running, .refl cur _⟩

theorem GoesOn.trans {first middle last : ProcessView} (left : GoesOn image behind first middle)
    (right : GoesOn image behind middle last) : GoesOn image behind first last := by
  intro cur running
  obtain ⟨between, before⟩ := left cur running
  obtain ⟨finished, after⟩ := right cur between
  exact ⟨finished, before.trans after⟩

theorem goesOn_typed (typing : KeysPressed behind view.driver later) :
    GoesOn image behind view ⟨later, view.heard, view.printed⟩ :=
  fun _ running => ⟨running.typed typing, running.typed_same typing⟩

theorem kernelContract_goesOn (view : ProcessView) (call : UserCall) (reply : call.Reply)
    (next : ProcessView) (answer : (kernelContract image behind).answers view call reply next) :
    GoesOn image behind view next := by
  obtain ⟨typed, taken, chars, typing, served, _, _⟩ := answer
  intro cur running
  obtain ⟨between, before⟩ := goesOn_typed typing cur running
  obtain ⟨finished, after⟩ := between.serves served
  exact ⟨finished, before.trans after⟩

theorem execute_reaches (running : RunsAs image behind cur driver)
    (executed : driver.kernel.execute image (some command) frame = .done (control, after)) :
    ConsoleReachable image behind { driver with kernel := after } := by
  have stepped : driver.step image behind (.call (.execute (some command) frame)) =
      some { driver with kernel := after } := by
    simp only [TerminalDriver.step, Kernel.step, executed, Outcome.toOption_done, Option.map_some]
  have starts : driver.StartsShells image behind (.call (.execute (some command) frame)) := trivial
  exact running.reachable.step starts stepped

theorem refuses_goesOn (view : ProcessView) (call : UserCall) (reply : call.Reply)
    (next : ProcessView) (refused : ExecuteRefuses image behind view call reply next) :
    GoesOn image behind view next := by
  cases refused with
  | execute typing done =>
      intro cur running
      obtain ⟨between, before⟩ := goesOn_typed typing cur running
      have reachable := execute_reaches between done
      rcases execute_eq_done done with ⟨_, rfl⟩ | ⟨_, _, _, entered, _⟩
      · exact ⟨between, before⟩
      · cases entered

/-- What the caller and the new process are at the end of that process. -/
theorem enters_leaves {call : UserCall} {reply : call.Reply} {next : ProcessView}
    (running : RunsAs image behind cur view.driver)
    (entered : ExecuteEnters image behind programs view call frame main inside)
    (goesOn : GoesOn image behind inside final)
    (left : ExecuteLeaves behind frame value final call reply next) :
    ∃ before, SameProcesses cur view.driver.kernel before ∧ before.pcb = view.driver.kernel.pcb ∧
      RunsAs image behind cur next.driver ∧
      CameBack before cur frame (exitStatus value) next.driver.kernel := by
  cases entered with
  | @execute typed command _ _ entry started typing program executed =>
      cases left with
      | @halt _ ended _ _ _ resumed typingInside halting =>
          have between := running.typed typing
          have before := running.typed_same typing
          have runs := between.runsOn
          obtain ⟨slot, launched, _⟩ := execute_pcb runs executed
          have child : RunsAs image behind slot { typed with kernel := started } :=
            ⟨execute_reaches between executed, launched.cr3⟩
          obtain ⟨alive, sameInside⟩ := goesOn slot child
          have same := sameInside.trans (alive.typed_same typingInside)
          obtain ⟨_, back⟩ := halt_comesBack runs executed launched same halting
          have stepped : ended.step image behind (.call (.halt (exitStatus value))) =
              some { ended with kernel := resumed } := by
            simp only [TerminalDriver.step, Kernel.step, halting, Outcome.toOption_done,
              Option.map_some]
          have starts : ended.StartsShells image behind (.call (.halt (exitStatus value))) :=
            trivial
          have reachable := (alive.typed typingInside).reachable.step starts stepped
          exact ⟨typed.kernel, before, typing.same.pcb, ⟨reachable, back.current⟩, back⟩

theorem processContract_goesOn (depth : Nat) (view : ProcessView) (call : UserCall)
    (reply : call.Reply) (next : ProcessView)
    (answer : (processContract image behind programs depth).answers view call reply next) :
    GoesOn image behind view next := by
  refine Program.spawning_keeps GoesOn.refl GoesOn.trans kernelContract_goesOn refuses_goesOn ?_
    depth view call reply next answer
  intro view call frame main inside value ended reply next entered goesOn left cur running
  obtain ⟨before, same, _, finished, back⟩ := enters_leaves running entered goesOn left
  exact ⟨finished, same.trans back.same⟩

theorem closeDescriptors_index {fds : List Nat} (done : closeDescriptors fds kernel = .done after) :
    after.currentDirIndex = kernel.currentDirIndex := by
  induction fds generalizing kernel with
  | nil =>
      cases done
      rfl
  | cons fd rest ih =>
      obtain ⟨⟨value, closed⟩, closing, remaining⟩ := Outcome.bind_eq_done.mp done
      exact (ih remaining).trans (sysClose_index closing)

theorem halt_index (done : kernel.halt status = .done (control, after)) :
    after.currentDirIndex = kernel.currentDirIndex := by
  unfold halt at done
  obtain ⟨caller, _, rest⟩ := Outcome.bind_eq_done.mp done
  dsimp only at rest
  split at rest
  · cases rest
    rfl
  · obtain ⟨mapped, set, remaining⟩ := Outcome.bind_eq_done.mp rest
    obtain ⟨cr3, _, rfl⟩ := setProgrampage_eq_done.mp set
    obtain ⟨closed, closing, finished⟩ := Outcome.bind_eq_done.mp remaining
    have kept := closeDescriptors_index closing
    cases finished
    exact kept

/-- The caller of an `execute` again, when the other program has ended. -/
structure ResumesAfter (image : Image) (behind : BehindTables) (cur : Nat) (before : Kernel)
    (ended next : ProcessView) : Prop where
  running : RunsAs image behind cur next.driver
  same : SameProcesses cur before next.driver.kernel
  own : ∃ cr3 frame, next.driver.kernel.pcb cur = (before.pcb cur).resumed cr3 frame
  index : next.driver.kernel.currentDirIndex = ended.driver.kernel.currentDirIndex
  heard : next.heard = ended.heard
  printed : next.printed = ended.printed

theorem exitStatus_toNat (value : Int) : ((exitStatus value).toNat : Int) = value % 256 := by
  have low : 0 ≤ value % 2 ^ 8 := Int.emod_nonneg _ (by decide)
  have high : value % 2 ^ 8 < 2 ^ 8 := Int.emod_lt_of_pos _ (by decide)
  have small : (value % 2 ^ 8).toNat < 2 ^ 8 := by omega
  have bytes : (exitStatus value).toNat = (value % 2 ^ 8).toNat := by
    rw [exitStatus, UInt8.ofInt, UInt8.toNat_ofNat', Nat.mod_eq_of_lt small]
  rw [bytes, Int.toNat_of_nonneg low]
  rfl

theorem ExecuteLeaves.resumes {call : UserCall} {reply : call.Reply} {next : ProcessView}
    (running : RunsAs image behind cur view.driver)
    (entered : ExecuteEnters image behind programs view call frame main inside)
    (goesOn : GoesOn image behind inside final)
    (left : ExecuteLeaves behind frame value final call reply next) :
    ResumesAfter image behind cur view.driver.kernel final next := by
  obtain ⟨before, same, blocks, finished, back⟩ := enters_leaves running entered goesOn left
  refine ⟨finished, same.trans back.same, ?_, ?_, ?_, ?_⟩
  · rw [← blocks]
    exact ⟨_, _, back.own⟩
  · cases left with
    | halt typing halting => exact (halt_index halting).trans typing.same.currentDirIndex
  · cases left
    rfl
  · cases left
    rfl

/-- Only the kernel's part of the contract answers other calls. -/
theorem kernelContract_apart {view : ProcessView} {call : UserCall}
    (asked : (kernelContract image behind).asks view call) :
    (∀ reply next, ¬ ExecuteRefuses image behind view call reply next) ∧
      ∀ token child inside, ¬ ExecuteEnters image behind programs view call token child inside := by
  obtain ⟨_, _, _, _, served⟩ := asked view.driver .refl
  refine ⟨fun reply next refused => ?_, fun token child inside entered => ?_⟩
  · cases refused
    cases served
  · cases entered
    cases served

theorem meets_processes {α : Type} {post : α → ProcessView → Prop} {program : UserProgram α}
    (meets : Program.Meets (kernelContract image behind) post program view) (depth : Nat) :
    Program.Meets (processContract image behind programs depth) post program view :=
  meets.spawning (fun _ _ asked => kernelContract_apart asked) depth

theorem processContract_answered (depth : Nat) (view : ProcessView) (call : UserCall)
    (asked : (processContract image behind programs depth).asks view call) :
    ∃ reply next, (processContract image behind programs depth).answers view call reply next :=
  Program.spawning_answered id kernelContract_answered depth view call asked

theorem processContract_whole (depth : Nat) :
    ¬ (processContract image behind programs depth).cutOff := by
  rw [processContract, Program.spawning_cutOff]
  exact id

theorem processes_complete {α : Type} {post : α → ProcessView → Prop} {program : UserProgram α}
    {depth : Nat}
    (meets : Program.Meets (processContract image behind programs depth) post program view) :
    Program.Completes (processContract image behind programs depth) post program view :=
  meets.completes (processContract_whole depth) (processContract_answered depth)

/-- A program that is installed for the command and that has a slot. -/
structure Startable (image : Image) (programs : CString → UserProgram Int → Prop)
    (command : CString) (slot : Nat) (kernel : Kernel) : Prop where
  short : ShortCommand command
  valid : ∃ dentry, ValidProgram image (commandName command) dentry
  installed : ∃ main, programs (commandName command) main
  found : (findSlot kernel.openTasks).2 = some slot
  inside : slot ≤ 6

theorem Startable.executes (startable : Startable image programs command slot driver.kernel)
    (running : RunsAs image behind cur driver) (frame : CallFrame) :
    ∃ entry after, driver.kernel.execute image (some command) frame =
        .done (.iret entry, after) ∧ Launched driver.kernel frame cur slot after := by
  obtain ⟨dentry, valid⟩ := startable.valid
  exact execute_starts startable.short valid frame running.current startable.found startable.inside

/-- The rule for `ece391_execute`: whatever the program that is started comes to, its caller
gets the status and all its own back. -/
theorem RunsAs.executes {depth : Nat} {post : Int → ProcessView → Prop}
    (running : RunsAs image behind cur view.driver)
    (startable : Startable image programs command slot view.driver.kernel)
    (child : ∀ main driver, programs (commandName command) main →
      Started image behind command slot driver →
      driver.kernel.currentDirIndex = view.driver.kernel.currentDirIndex →
      driver.kernel.openTasks = Function.update view.driver.kernel.openTasks slot cur →
      Program.Meets (processContract image behind programs depth) post main
        ⟨driver, view.heard, view.printed⟩) :
    Program.Meets (processContract image behind programs (depth + 1))
      (fun reply next => ∃ value ended, post value ended ∧ reply = value % 256 ∧
        ResumesAfter image behind cur view.driver.kernel ended next)
      (ece391Execute command) view := by
  have still : ∀ typed, KeysPressed behind view.driver typed →
      Startable image programs command slot typed.kernel := by
    intro typed typing
    have same := running.typed_same typing
    exact { startable with found := by rw [same.openTasks]; exact startable.found }
  refine Program.meets_spawned ?_ ?_ ?_ ?_
  · intro reply next answer
    obtain ⟨_, _, _, _, served, _⟩ := answer
    cases served
  · obtain ⟨main, installed⟩ := startable.installed
    obtain ⟨entry, after, executed, _⟩ := startable.executes running zeroedFrame
    exact .inr ⟨_, _, _, .execute .refl installed executed⟩
  · intro reply next refused
    cases refused with
    | execute typing done =>
        obtain ⟨_, _, executed, _⟩ := (still _ typing).executes (running.typed typing) _
        cases done.symm.trans executed
  · intro frame main inside entered
    have enters := entered
    cases entered with
    | @execute typed _ _ _ entry after typing program executed =>
        have between := running.typed typing
        have same := running.typed_same typing
        obtain ⟨_, _, again, launched⟩ := (still _ typing).executes between frame
        cases executed.symm.trans again
        obtain ⟨new, started⟩ := execute_started between.reachable startable.short executed
        obtain rfl := Outcome.done.inj (started.running.current.symm.trans launched.cr3)
        have index : after.currentDirIndex = view.driver.kernel.currentDirIndex :=
          (execute_index executed).trans typing.same.currentDirIndex
        have tasks := (between.runsOn.launched launched).2
        rw [same.openTasks] at tasks
        have goesOn : Program.Meets (processContract image behind programs depth)
            (fun value ended => post value ended ∧ GoesOn image behind
              ⟨{ typed with kernel := after }, view.heard, view.printed⟩ ended) main
            ⟨{ typed with kernel := after }, view.heard, view.printed⟩ :=
          (child main _ program started index tasks).keeps (@GoesOn.trans image behind)
            (processContract_goesOn depth) (GoesOn.refl _)
        refine goesOn.mono fun value ended ends => ?_
        obtain ⟨ends, goes⟩ := ends
        obtain ⟨_, sameInside⟩ := goes new started.running
        refine ⟨?_, fun reply next left => ⟨value, ended, ends, ?_, left.resumes running enters goes⟩⟩
        · obtain ⟨control, back, halting⟩ :=
            halt_exists between.runsOn launched sameInside (exitStatus value)
          obtain ⟨rfl, _⟩ := halt_comesBack between.runsOn executed launched sameInside halting
          exact ⟨_, _, .halt .refl halting⟩
        · obtain ⟨_, _, _, _, back⟩ := enters_leaves running enters goes left
          cases left with
          | halt _ halting => exact back.status.trans (exitStatus_toNat value)

end Contracts

/-- Every file is `cat`. -/
def catPrograms (_ : CString) (main : UserProgram Int) : Prop :=
  main = Cat.main (fun _ _ => CString.empty.memory) 2 fun _ => 0

end Ece391
