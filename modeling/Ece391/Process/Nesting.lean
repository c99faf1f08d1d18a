import Ece391.Process.Consistency
import Ece391.Process.Descriptors

namespace Ece391

open Library Kernel

/-! # execute and halt undo each other

A process starts children, which start theirs, and gets everything back when
the last of them has halted.
-/

def FileEvent : Event → Prop
  | .sysOpen _ => True
  | .sysClose _ => True
  | .sysRead _ _ _ => True
  | _ => False

/-- An `execute` that came back: the `halt` that ended its child, where that
left for, and the `curr_status` found there. -/
structure ReturnedCall where
  frame : CallFrame
  status : Byte
  control : Control
  value : Int

/-- A run that halts every child it started, after the children of that child.
The calls are those that came back, in the order in which they did. -/
inductive BalancedRun (image : Image) :
    Kernel → List Event → List ReturnedCall → Kernel → Prop
  | nil (kernel : Kernel) : BalancedRun image kernel [] [] kernel
  | refused {kernel next final : Kernel} {command : Option CString} {frame : CallFrame}
      {events : List Event} {calls : List ReturnedCall}
      (returned : kernel.execute image command frame = .done (.returns (-1), next))
      (rest : BalancedRun image next events calls final) :
      BalancedRun image kernel (.execute command frame :: events) calls final
  | fileCall {kernel next final : Kernel} {event : Event} {events : List Event}
      {calls : List ReturnedCall} (file : FileEvent event)
      (stepped : kernel.step image event = some next)
      (rest : BalancedRun image next events calls final) :
      BalancedRun image kernel (event :: events) calls final
  | matched {kernel started ended back final : Kernel} {command : Option CString}
      {frame : CallFrame} {entry : Word} {status : Byte} {control : Control}
      {inner events : List Event} {innerCalls calls : List ReturnedCall}
      (launching : kernel.execute image command frame = .done (.iret entry, started))
      (inside : BalancedRun image started inner innerCalls ended)
      (halting : ended.halt status = .done (control, back))
      (rest : BalancedRun image back events calls final) :
      BalancedRun image kernel (.execute command frame :: (inner ++ .halt status :: events))
        (innerCalls ++ ⟨frame, status, control, back.currStatus⟩ :: calls) final

/-- `execute` returns to its caller's frame with the status given to `halt`. -/
structure ReturnedCall.Correct (call : ReturnedCall) : Prop where
  control : call.control = .haltRetLabel call.frame.esp call.frame.ebp
  value : call.value = call.status.toNat

/-- `pid` is running on the shown terminal, and no terminal is being opened. -/
structure RunsOn (kernel : Kernel) (pid : Nat) : Prop where
  current : findProgramid kernel.cr3 = .done pid
  user : pid ≠ 0
  live : kernel.openTasks pid ≠ -1
  shown : (kernel.terminals kernel.oldTerminal).programId = pid
  stack : kernel.tssEsp0 = stackTop pid
  newterminalFlag : kernel.newterminalFlag = 0

/-- Everything that says who is running is as it was, and so are the stack
registers of all processes that wait for the current one. -/
structure Undone (kernel final : Kernel) : Prop where
  openTasks : final.openTasks = kernel.openTasks
  terminals : final.terminals = kernel.terminals
  oldTerminal : final.oldTerminal = kernel.oldTerminal
  newterminalFlag : final.newterminalFlag = kernel.newterminalFlag
  cr3 : final.cr3 = kernel.cr3
  tssEsp0 : final.tssEsp0 = kernel.tssEsp0
  stack : ∀ pid, kernel.openTasks pid ≠ -1 → findProgramid kernel.cr3 ≠ .done pid →
    (final.pcb pid).esp = (kernel.pcb pid).esp ∧ (final.pcb pid).ebp = (kernel.pcb pid).ebp

variable {image : Image} {kernel started ended back middle final : Kernel} {frame : CallFrame}
  {cur slot parent : Nat} {status : Byte} {events : List Event} {calls : List ReturnedCall}

/-- The events of a balanced run are a run of the kernel. -/
theorem BalancedRun.run (balanced : BalancedRun image kernel events calls final) :
    (kernelSystem image).run kernel events = some final := by
  induction balanced with
  | nil kernel => rfl
  | refused returned rest ih =>
      refine Transitions.run_cons.mpr ⟨_, ?_, ih⟩
      simp only [kernelSystem, Kernel.step, returned, Outcome.toOption, Option.map_some]
  | fileCall file stepped rest ih => exact Transitions.run_cons.mpr ⟨_, stepped, ih⟩
  | matched launching inside halting rest insideRun restRun =>
      refine Transitions.run_cons.mpr ⟨_, ?_, Transitions.run_append.mpr
        ⟨_, insideRun, Transitions.run_cons.mpr ⟨_, ?_, restRun⟩⟩⟩
      · simp only [kernelSystem, Kernel.step, launching, Outcome.toOption, Option.map_some]
      · simp only [kernelSystem, Kernel.step, halting, Outcome.toOption, Option.map_some]

theorem Undone.refl (kernel : Kernel) : Undone kernel kernel :=
  ⟨rfl, rfl, rfl, rfl, rfl, rfl, fun _ _ _ => ⟨rfl, rfl⟩⟩

theorem Undone.trans (first : Undone kernel middle) (second : Undone middle final) :
    Undone kernel final where
  openTasks := second.openTasks.trans first.openTasks
  terminals := second.terminals.trans first.terminals
  oldTerminal := second.oldTerminal.trans first.oldTerminal
  newterminalFlag := second.newterminalFlag.trans first.newterminalFlag
  cr3 := second.cr3.trans first.cr3
  tssEsp0 := second.tssEsp0.trans first.tssEsp0
  stack pid live waiting := by
    have before := first.stack pid live waiting
    have after := second.stack pid (by rwa [first.openTasks]) (by rwa [first.cr3])
    exact ⟨after.1.trans before.1, after.2.trans before.2⟩

theorem Kernel.Quiet.undone (quiet : Quiet kernel final) : Undone kernel final where
  openTasks := quiet.openTasks
  terminals := quiet.terminals
  oldTerminal := quiet.oldTerminal
  newterminalFlag := quiet.newterminalFlag
  cr3 := quiet.cr3
  tssEsp0 := quiet.tssEsp0
  stack pid _ _ := quiet.stack pid

theorem RunsOn.undone (runs : RunsOn kernel cur) (restored : Undone kernel final) :
    RunsOn final cur where
  current := by rw [restored.cr3]; exact runs.current
  user := runs.user
  live := by rw [restored.openTasks]; exact runs.live
  shown := by rw [restored.terminals, restored.oldTerminal]; exact runs.shown
  stack := by rw [restored.tssEsp0]; exact runs.stack
  newterminalFlag := by rw [restored.newterminalFlag]; exact runs.newterminalFlag

/-- The newest process of the shown terminal runs. -/
theorem Consistent.runsOn {processes : Forest TerminalId Nat}
    (consistent : Consistent kernel processes) : ∃ cur, RunsOn kernel cur := by
  obtain ⟨cur, rest, chain⟩ :=
    List.exists_cons_of_ne_nil ((consistent.active _).mp consistent.shown)
  have shows := consistent.leaf kernel.oldTerminal cur (by rw [chain]; rfl)
  have member : cur ∈ processes := ⟨_, by rw [chain]; exact List.mem_cons_self ..⟩
  obtain ⟨low, high⟩ := consistent.range cur member
  have directory := consistent.current
  have stack := consistent.stack
  rw [shows] at directory stack
  exact ⟨cur, pageDirectoryOf_findProgramid.mpr directory, by omega,
    (consistent.live cur low high).mpr member, shows, stack, consistent.newterminalFlag⟩

/-- The child runs, and is linked to its parent. -/
theorem RunsOn.launched (runs : RunsOn kernel cur)
    (launched : Launched kernel frame cur slot started) :
    RunsOn started slot ∧ started.openTasks = Function.update kernel.openTasks slot cur := by
  have unset : ¬ kernel.newterminalFlag = 1 := by
    rw [runs.newterminalFlag]
    decide
  have openTasks : started.openTasks = Function.update kernel.openTasks slot (cur : Int) := by
    rw [launched.openTasks, if_neg unset]
  have range := launched.slot_range
  refine ⟨⟨launched.cr3, by omega, ?_, ?_, launched.tssEsp0, ?_⟩, openTasks⟩
  · rw [openTasks, Function.update_self]
    omega
  · rw [launched.terminals, launched.oldTerminal, Function.update_self]
  · rw [launched.newterminalFlag, if_neg unset]
    exact runs.newterminalFlag

theorem Kernel.Launched.undone (launched : Launched kernel frame cur slot started)
    (runs : RunsOn kernel cur) (inside : Undone started ended)
    (left : Left ended status slot cur back) : Undone kernel back where
  openTasks := by
    rw [left.openTasks, inside.openTasks, (runs.launched launched).2, Function.update_idem,
      ← launched.slot_free, Function.update_eq_self]
  terminals := by
    rw [left.terminals, inside.terminals, inside.oldTerminal, launched.oldTerminal,
      launched.terminals, Function.update_self, Function.update_idem]
    dsimp only
    rw [← runs.shown]
    exact Function.update_eq_self ..
  oldTerminal := left.oldTerminal.trans (inside.oldTerminal.trans launched.oldTerminal)
  newterminalFlag := by
    rw [left.newterminalFlag, inside.newterminalFlag, runs.newterminalFlag]
    exact (runs.launched launched).1.newterminalFlag
  cr3 := by
    have after := pageDirectoryOf_findProgramid.mp left.cr3
    exact Option.some.inj (after.symm.trans (pageDirectoryOf_findProgramid.mp runs.current))
  tssEsp0 := left.tssEsp0.trans runs.stack.symm
  stack pid live waiting := by
    have notCaller : pid ≠ cur := fun same => waiting (same ▸ runs.current)
    have notChild : pid ≠ slot := fun same => live (same ▸ launched.slot_free)
    have childStack := launched.otherStack pid notCaller
    have innerStack := inside.stack pid
      (by rw [(runs.launched launched).2, Function.update_of_ne notChild]; exact live)
      (by rw [launched.cr3]; exact fun same => notChild (Outcome.done.inj same).symm)
    rw [left.pcb, Function.update_of_ne notCaller]
    exact ⟨innerStack.1.trans childStack.1, innerStack.2.trans childStack.2⟩

/-- The child of a process leaves for that process, where it called `execute`. -/
theorem halt_child {control : Control} (runs : RunsOn kernel cur)
    (launched : Launched kernel frame cur slot started) (inside : Undone started ended)
    (halting : ended.halt status = .done (control, back)) :
    Left ended status slot cur back ∧
      ReturnedCall.Correct ⟨frame, status, control, back.currStatus⟩ := by
  obtain ⟨child, openTasks⟩ := runs.launched launched
  have current := (child.undone inside).current
  have parentTask : ended.openTasks slot = cur := by
    rw [inside.openTasks, openTasks, Function.update_self]
  rcases halt_eq_done halting with ⟨other, _, restarted⟩ | ⟨other, parent, leaves, left⟩
  · obtain rfl := Outcome.done.inj (restarted.current.symm.trans current)
    have root := restarted.root
    rw [parentTask] at root
    exact absurd (Int.natCast_eq_zero.mp root) runs.user
  · obtain rfl := Outcome.done.inj (left.current.symm.trans current)
    obtain rfl := Int.natCast_inj.mp (left.parentTask.symm.trans parentTask)
    refine ⟨left, ?_, left.currStatus⟩
    have notChild : parent ≠ other := fun same => runs.live (same ▸ launched.slot_free)
    have kept := inside.stack parent
      (by rw [openTasks, Function.update_of_ne notChild]; exact runs.live)
      (by rw [launched.cr3]; exact fun same => notChild (Outcome.done.inj same).symm)
    have saved := launched.callerStack runs.user
    rw [leaves, kept.1, kept.2, saved.1, saved.2]

theorem BalancedRun.undone (balanced : BalancedRun image kernel events calls final)
    (runs : RunsOn kernel cur) :
    Undone kernel final ∧ ∀ call ∈ calls, call.Correct := by
  induction balanced generalizing cur with
  | nil kernel => exact ⟨.refl kernel, nofun⟩
  | refused returned rest ih =>
      rcases execute_eq_done returned with ⟨_, rfl⟩ | ⟨entry, caller, slot, control, _⟩
      · exact ih runs
      · cases control
  | @fileCall kernel next _ event _ _ file stepped rest ih =>
      have quiet : Quiet kernel next := by
        cases step_effect stepped with
        | quiet quiet _ => exact quiet
        | _ => exact file.elim
      obtain ⟨restored, correct⟩ := ih (runs.undone quiet.undone)
      exact ⟨quiet.undone.trans restored, correct⟩
  | matched launching inside halting rest insideRestores restRestores =>
      rcases execute_eq_done launching with ⟨control, _⟩ | ⟨entry, caller, slot, _, launched⟩
      · cases control
      obtain rfl := Outcome.done.inj (launched.current.symm.trans runs.current)
      obtain ⟨insideRestored, insideCorrect⟩ := insideRestores (runs.launched launched).1
      obtain ⟨left, returned⟩ := halt_child runs launched insideRestored halting
      have undone := launched.undone runs insideRestored left
      obtain ⟨restored, correct⟩ := restRestores (runs.undone undone)
      refine ⟨undone.trans restored, fun call member => ?_⟩
      rcases List.mem_append.mp member with inner | outer
      · exact insideCorrect call inner
      · rcases List.mem_cons.mp outer with rfl | later
        · exact returned
        · exact correct call later

/-- From every state of a run in which the new terminals got their shells, a
balanced run ends with the process structure it began with, and each `execute`
returns the status given to the `halt` of its child. -/
theorem execute_halt_inverse {image : Image} {first kernel final : Kernel}
    {before events : List Event} {calls : List ReturnedCall} (started : FirstShell image first)
    (starts : (kernelSystem image).Respects (ShellStarts image) first before)
    (reached : (kernelSystem image).run first before = some kernel)
    (balanced : BalancedRun image kernel events calls final) :
    final.openTasks = kernel.openTasks ∧
      (∀ term, (final.terminals term).programId = (kernel.terminals term).programId) ∧
      final.cr3 = kernel.cr3 ∧ final.tssEsp0 = kernel.tssEsp0 ∧
      ∀ call ∈ calls, call.control = .haltRetLabel call.frame.esp call.frame.ebp ∧
        call.value = call.status.toNat := by
  obtain ⟨recorded, ranRecorded, rfl⟩ :=
    Recorded.run_exists (show (Recorded.begin first).kernel = first from rfl) reached
  obtain ⟨processes, consistent, _⟩ := run_consistent started starts ranRecorded
  obtain ⟨cur, runs⟩ := consistent.runsOn
  obtain ⟨restored, correct⟩ := balanced.undone runs
  exact ⟨restored.openTasks, fun term => by rw [restored.terminals], restored.cr3,
    restored.tssEsp0, fun call member => ⟨(correct call member).control, (correct call member).value⟩⟩

theorem execute_halt_inverse_for_child_shell :
    ∃ (first final : Kernel) (call : ReturnedCall), FirstShell shellImage first ∧
      BalancedRun shellImage first [.execute (some shellCommand) zeroedFrame, .halt 5] [call] final ∧
      final.openTasks = first.openTasks ∧
      (∀ term, (final.terminals term).programId = (first.terminals term).programId) ∧
      final.cr3 = first.cr3 ∧ final.tssEsp0 = first.tssEsp0 ∧
      ∀ returned ∈ [call], returned.control = .haltRetLabel returned.frame.esp returned.frame.ebp ∧
        returned.value = returned.status.toNat := by
  obtain ⟨first, isFirst, launched⟩ :=
    firstShell_exists shellImage_valid zeroedMemory zeroedFrame
  obtain ⟨entry, started, launching, _, nested⟩ :=
    (nested_first launched).launched shellImage_valid zeroedFrame (by decide)
  obtain ⟨control, final, halting, _⟩ := halt_leaves 5 nested.current
    (nested.openTasks 2 (by decide) (by decide)) (by decide) (by decide)
  have balanced : BalancedRun shellImage first
      [.execute (some shellCommand) zeroedFrame, .halt 5]
      [⟨zeroedFrame, 5, control, final.currStatus⟩] final :=
    .matched launching (.nil started) halting (.nil final)
  exact ⟨first, final, _, isFirst, balanced,
    execute_halt_inverse isFirst (show (kernelSystem shellImage).Respects _ first [] from trivial)
      rfl balanced⟩

end Ece391
