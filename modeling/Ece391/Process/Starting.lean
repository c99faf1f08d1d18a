import Ece391.Process.Effects

namespace Ece391

open Library

/-! # Programs that start

`execute` of a valid program starts it when a slot of 1 to 6 is free, and does
not return when none is.
-/

namespace Kernel

variable {image : Image} {kernel : Kernel} {name : CString} {dentry : Dentry}
  {frame : CallFrame} {cur slot : Nat}

theorem pageLoader_starts (kernel : Kernel) (valid : ValidProgram image name dentry)
    (bound : slot ≤ 6) : ∃ loaded, kernel.pageLoader image name slot = .done loaded := by
  obtain ⟨cr3, directory⟩ := pageDirectoryOf_exists bound
  have header := valid.header
  have fits : image.inodeLength dentry.inodeNum ≤ programRoom := valid.fits
  have small : programRoom < 2147483648 := by decide
  have nonempty : 0 < image.inodeLength dentry.inodeNum := by omega
  simp only [pageLoader, valid.found, Outcome.done_bind, setProgrampage, directory, Outcome.pure_eq,
    readData_whole _ valid.inode nonempty]
  rw [int32_of_lt (by omega), if_neg (by omega), if_neg (by omega)]
  exact ⟨_, rfl⟩

/-- There is no page directory behind pid 6. -/
theorem pageLoader_spins (kernel : Kernel) (valid : ValidProgram image name dentry)
    (beyond : 6 < slot) : kernel.pageLoader image name slot = .spins := by
  have absent : pageDirectoryOf (slot : Int) = none := pageDirectoryOf_eq_none.mpr (.inr (by omega))
  simp only [pageLoader, valid.found, Outcome.done_bind, setProgrampage, absent, Outcome.spins_bind]

theorem launch_starts (valid : ValidProgram image name dentry) (argument : CString)
    (entryPoint : Word) (frame : CallFrame) (current : findProgramid kernel.cr3 = .done cur)
    (found : (findSlot kernel.openTasks).2 = some slot) (bound : slot ≤ 6) :
    ∃ control after, kernel.launch image name argument entryPoint frame =
      .done (control, after) := by
  simp only [launch, current, Outcome.done_bind, Outcome.pure_eq]
  have same : (if cur = 0 then { kernel with firstShellEntryPoint := entryPoint }
      else kernel).openTasks = kernel.openTasks := by split <;> rfl
  rw [same, found]
  obtain ⟨loaded, loading⟩ := pageLoader_starts (((((if cur = 0 then
    { kernel with firstShellEntryPoint := entryPoint } else kernel).claimSlot cur slot).scheduleLaunch
      cur slot).setUpPcb slot argument).saveCaller cur frame) valid bound
  simp only [loading, Outcome.done_bind]
  exact ⟨_, _, rfl⟩

theorem launch_spins (valid : ValidProgram image name dentry) (argument : CString)
    (entryPoint : Word) (frame : CallFrame) (current : findProgramid kernel.cr3 = .done cur)
    (full : ∀ slot, 1 ≤ slot → slot ≤ 6 → kernel.openTasks slot ≠ -1) :
    kernel.launch image name argument entryPoint frame = .spins := by
  simp only [launch, current, Outcome.done_bind, Outcome.pure_eq]
  have same : (if cur = 0 then { kernel with firstShellEntryPoint := entryPoint }
      else kernel).openTasks = kernel.openTasks := by split <;> rfl
  rw [same]
  cases found : (findSlot kernel.openTasks).2 with
  | none => rfl
  | some slot =>
      obtain ⟨low, _, free, _⟩ := findSlot_eq_some.mp found
      have beyond : 6 < slot := by
        by_contra inside
        exact full slot low (by omega) free
      simp only [pageLoader_spins _ valid beyond, Outcome.spins_bind]

/-- A command whose name and argument fit the arrays of `execute`. -/
structure ShortCommand (command : CString) : Prop where
  name : (commandName command).strlen < 32
  argument : (commandArgument command).strlen < 128

variable {command : CString}

theorem execute_short (short : ShortCommand command) (kernel : Kernel) (frame : CallFrame) :
    kernel.execute image (some command) frame = (do
      match ← checkExecutable image (commandName command) frame.buf with
      | none => return (.returns (-1), kernel)
      | some entryPoint =>
          kernel.launch image (commandName command) (commandArgument command) entryPoint frame) := by
  rw [execute, parseCommand_short short.name short.argument]
  rfl

theorem execute_starts (short : ShortCommand command)
    (valid : ValidProgram image (commandName command) dentry) (frame : CallFrame)
    (current : findProgramid kernel.cr3 = .done cur)
    (found : (findSlot kernel.openTasks).2 = some slot) (bound : slot ≤ 6) :
    ∃ entry after, kernel.execute image (some command) frame = .done (.iret entry, after) ∧
      Launched kernel frame cur slot after := by
  obtain ⟨entry, accepted⟩ := valid.checkExecutable frame.buf
  obtain ⟨control, after, launching⟩ :=
    launch_starts valid (commandArgument command) entry frame current found bound
  obtain ⟨rfl, cur', slot', launched⟩ := launch_eq_done launching
  obtain rfl := Outcome.done.inj (launched.current.symm.trans current)
  obtain rfl := Option.some.inj (launched.found.symm.trans found)
  exact ⟨entry, after, by
    simp only [execute_short short, accepted, Outcome.done_bind, launching], launched⟩

theorem execute_spins (short : ShortCommand command)
    (valid : ValidProgram image (commandName command) dentry) (frame : CallFrame)
    (current : findProgramid kernel.cr3 = .done cur)
    (full : ∀ slot, 1 ≤ slot → slot ≤ 6 → kernel.openTasks slot ≠ -1) :
    kernel.execute image (some command) frame = .spins := by
  obtain ⟨entry, accepted⟩ := valid.checkExecutable frame.buf
  simp only [execute_short short, accepted, Outcome.done_bind,
    launch_spins valid _ entry frame current full]

theorem findSlot_exists {openTasks : Nat → Int} {free : Nat} (low : 1 ≤ free) (high : free ≤ 7)
    (isFree : openTasks free = -1) : ∃ slot, (findSlot openTasks).2 = some slot ∧ slot ≤ free := by
  induction free using Nat.strongRecOn with
  | ind free ih =>
      by_cases first : ∀ j, 1 ≤ j → j < free → openTasks j ≠ -1
      · exact ⟨free, findSlot_eq_some.mpr ⟨low, high, isFree, first⟩, Nat.le_refl _⟩
      · simp only [not_forall, not_not] at first
        obtain ⟨j, jLow, jBelow, jFree⟩ := first
        obtain ⟨slot, found, bound⟩ := ih j jBelow jLow (by omega) jFree
        exact ⟨slot, found, by omega⟩

/-- CR3 names a process, and so does the CR3 saved of every other terminal in use. -/
structure Running (kernel : Kernel) : Prop where
  current : ∃ cur, findProgramid kernel.cr3 = .done cur
  saved : ∀ term, (kernel.terminals term).active ≠ 0 → term ≠ kernel.oldTerminal →
    ∃ pid, findProgramid (kernel.terminals term).cr3 = .done pid

theorem Running.launched {after : Kernel} (running : Running kernel)
    (launched : Launched kernel frame cur slot after) : Running after where
  current := ⟨slot, launched.cr3⟩
  saved term active other := by
    rw [launched.oldTerminal] at other
    rw [launched.terminals, Function.update_of_ne other] at active ⊢
    exact running.saved term active other

theorem Running.leftTerminal {irq : IrqFrame} {target : TerminalId} {shown : Kernel}
    (running : Running kernel)
    (leaving : LeftTerminal { kernel with esp_0 := irq.esp_0, ebp_0 := irq.ebp_0 } cur target shown) :
    (∃ pid, findProgramid shown.cr3 = .done pid) ∧
      ∀ term, (shown.terminals term).active ≠ 0 →
        ∃ pid, findProgramid (shown.terminals term).cr3 = .done pid := by
  refine ⟨⟨cur, by rw [leaving.cr3]; exact leaving.current⟩, fun term active => ?_⟩
  rw [leaving.terminals] at active ⊢
  dsimp only at active ⊢
  by_cases same : term = kernel.oldTerminal
  · subst same
    rw [Function.update_self]
    exact ⟨cur, leaving.current⟩
  · rw [Function.update_of_ne same] at active ⊢
    exact running.saved term active same

theorem Running.openTerminal {target : TerminalId}
    (suspended : (∃ pid, findProgramid kernel.cr3 = .done pid) ∧
      ∀ term, (kernel.terminals term).active ≠ 0 →
        ∃ pid, findProgramid (kernel.terminals term).cr3 = .done pid)
    (isShown : kernel.oldTerminal = target) : Running (kernel.openTerminal target) where
  current := suspended.1
  saved term active other := by
    have different : term ≠ target := fun same => other (same.trans isShown.symm)
    have untouched : (kernel.openTerminal target).terminals term = kernel.terminals term :=
      Function.update_of_ne different ..
    rw [untouched] at active ⊢
    exact suspended.2 term active

theorem Running.step {event : Event} {after : Kernel} (running : Running kernel)
    (stepped : kernel.step image event = some after) : Running after := by
  cases step_effect stepped with
  | refused returned => exact running
  | quiet quiet other =>
      obtain ⟨current, saved⟩ := running
      constructor
      · rwa [quiet.cr3]
      · rwa [quiet.terminals, quiet.oldTerminal]
  | launched _ launched => exact running.launched launched
  | left left =>
      refine ⟨⟨_, left.cr3⟩, fun term active other => ?_⟩
      rw [left.oldTerminal] at other
      rw [left.terminals, Function.update_of_ne other] at active ⊢
      exact running.saved term active other
  | restarted restarted =>
      rw [restarted.state]
      exact ⟨running.current, running.saved⟩
  | opened different leaving inactive launched =>
      exact (Running.openTerminal (running.leftTerminal leaving) leaving.oldTerminal).launched launched
  | abandoned different leaving inactive failed =>
      exact Running.openTerminal (running.leftTerminal leaving) leaving.oldTerminal
  | resumed different leaving active =>
      have suspended := (running.leftTerminal leaving).2
      constructor
      · rw [resumeTerminal_cr3]
        exact suspended _ active
      · intro term inUse _
        rw [resumeTerminal_terminals] at inUse ⊢
        exact suspended term inUse

end Kernel

open Kernel

theorem FirstShell.launched {image : Image} {first : Kernel} (started : FirstShell image first) :
    ∃ memory frame slot, Launched (Kernel.boot memory) frame 0 slot first := by
  obtain ⟨memory, frame, entry, returned⟩ := started
  rcases execute_eq_done returned with ⟨refused, _⟩ | ⟨_, cur, slot, _, launched⟩
  · cases refused
  · have current := launched.current
    rw [boot_cr3] at current
    obtain rfl : 0 = cur := Outcome.done.inj current
    exact ⟨memory, frame, slot, launched⟩

/-- Behind the first shell no terminal but the shown one is in use. -/
theorem Kernel.Launched.inactive {memory first : Kernel} {frame : CallFrame} {slot : Nat}
    {term : TerminalId} (launched : Launched (boot memory) frame 0 slot first) (hidden : term ≠ 0) :
    (first.terminals term).active = 0 := by
  rw [launched.terminals, boot_oldTerminal, Function.update_of_ne hidden, boot_terminals]
  exact if_neg hidden

theorem Reachable.running {image : Image} {kernel : Kernel} (reachable : Reachable image kernel) :
    Running kernel := by
  refine reachable.of_invariant ?_ fun kernel event next running stepped => running.step stepped
  intro first started
  obtain ⟨memory, frame, slot, launched⟩ := started.launched
  refine ⟨⟨slot, launched.cr3⟩, fun term active other => ?_⟩
  rw [launched.oldTerminal, boot_oldTerminal] at other
  exact absurd (launched.inactive other) active

theorem shellCommand_short : ShortCommand shellCommand := ⟨by decide, by decide⟩

theorem commandName_shellCommand : commandName shellCommand = shellCommand := by decide

theorem shellImage_valid : ValidProgram shellImage shellCommand (shellImage.dirEntry 0) where
  found := readDentryByName_eq_some.mpr
    ⟨by decide, 0, ⟨by decide, by decide +kernel, nofun⟩, rfl⟩
  inode := by decide +kernel
  header := by decide +kernel
  fits := by decide +kernel
  magic := by decide +kernel

theorem shellImage_openable : Openable shellImage shellCommand (shellImage.dirEntry 0) :=
  ⟨by decide, shellImage_valid.found, by decide +kernel⟩

/-- The boot of a machine whose disk has a shell starts that shell as process 1. -/
theorem firstShell_exists {image : Image} {dentry : Dentry}
    (valid : ValidProgram image shellCommand dentry) (memory : Kernel) (frame : CallFrame) :
    ∃ first, FirstShell image first ∧ Launched (Kernel.boot memory) frame 0 1 first := by
  have found : (findSlot (boot memory).openTasks).2 = some 1 :=
    findSlot_eq_some.mpr ⟨by decide, by decide, boot_openTasks memory 1 (by decide),
      fun j low high => by omega⟩
  rw [← commandName_shellCommand] at valid
  obtain ⟨entry, first, returned, launched⟩ := execute_starts shellCommand_short valid frame
    (by rw [boot_cr3]; rfl) found (by decide)
  exact ⟨first, ⟨memory, frame, entry, returned⟩, launched⟩

theorem run_of_execute {image : Image} {kernel next : Kernel} {command : Option CString}
    {frame : CallFrame} {control : Control}
    (returned : kernel.execute image command frame = .done (control, next)) :
    (kernelSystem image).run kernel [.execute command frame] = some next := by
  have stepped : kernel.step image (.execute command frame) = some next := by
    rw [step, returned]
    rfl
  exact Transitions.run_singleton.trans stepped

/-- `pids` 1 to `depth` run one inside the other, the rest of the table is free. -/
structure Nested (depth : Nat) (kernel : Kernel) : Prop where
  current : findProgramid kernel.cr3 = .done depth
  newterminalFlag : kernel.newterminalFlag = 0
  openTasks : ∀ pid : Nat, 1 ≤ pid → pid ≤ 6 →
    kernel.openTasks pid = if pid ≤ depth then (pid : Int) - 1 else -1

theorem Nested.quiet {kernel after : Kernel} {depth : Nat} (nested : Nested depth kernel)
    (quiet : Kernel.Quiet kernel after) : Nested depth after where
  current := by rw [quiet.cr3]; exact nested.current
  newterminalFlag := quiet.newterminalFlag.trans nested.newterminalFlag
  openTasks := by rw [quiet.openTasks]; exact nested.openTasks

theorem Nested.findSlot {kernel : Kernel} {depth : Nat} (nested : Nested depth kernel)
    (room : depth ≤ 5) : (findSlot kernel.openTasks).2 = some (depth + 1) := by
  refine findSlot_eq_some.mpr ⟨by omega, by omega, ?_, fun j low below => ?_⟩
  · rw [nested.openTasks _ (by omega) (by omega), if_neg (by omega)]
  · rw [nested.openTasks j low (by omega), if_pos (by omega)]
    omega

theorem Nested.launched {image : Image} {kernel : Kernel} {dentry : Dentry} {depth : Nat}
    (nested : Nested depth kernel) (valid : ValidProgram image shellCommand dentry)
    (frame : CallFrame) (room : depth ≤ 5) :
    ∃ entry next, kernel.execute image (some shellCommand) frame = .done (.iret entry, next) ∧
      Launched kernel frame depth (depth + 1) next ∧ Nested (depth + 1) next := by
  rw [← commandName_shellCommand] at valid
  obtain ⟨entry, next, returned, launched⟩ :=
    execute_starts shellCommand_short valid frame nested.current (nested.findSlot room) (by omega)
  refine ⟨entry, next, returned, launched, launched.cr3, ?_, fun pid low high => ?_⟩
  · rw [launched.newterminalFlag, nested.newterminalFlag]; rfl
  · rw [launched.openTasks, Function.update_apply, nested.newterminalFlag,
      nested.openTasks pid low high]
    split
    · rename_i new; subst new; rw [if_pos (Nat.le_refl _)]; omega
    · rename_i other
      by_cases older : pid ≤ depth
      · rw [if_pos older, if_pos (by omega)]
      · rw [if_neg older, if_neg (by omega)]

theorem nested_first {first : Kernel} {memory : Kernel} {frame : CallFrame}
    (launched : Launched (Kernel.boot memory) frame 0 1 first) : Nested 1 first := by
  refine ⟨launched.cr3, ?_, fun pid low high => ?_⟩
  · rw [launched.newterminalFlag, boot_newterminalFlag]; rfl
  · rw [launched.openTasks, Function.update_apply, boot_newterminalFlag,
      boot_openTasks memory pid (by omega)]
    split
    · rename_i root; subst root; rfl
    · rename_i other; rw [if_neg (by omega)]

/-- A shell that executes shells fills the table from the front. -/
theorem nested_shells {image : Image} {first : Kernel} {dentry : Dentry} {memory : Kernel}
    {frame : CallFrame} (valid : ValidProgram image shellCommand dentry)
    (launched : Launched (Kernel.boot memory) frame 0 1 first) (deeper : Nat) (bound : deeper ≤ 5) :
    ∃ kernel, (kernelSystem image).run first
        (List.replicate deeper (.execute (some shellCommand) frame)) = some kernel ∧
      Nested (deeper + 1) kernel := by
  induction deeper with
  | zero => exact ⟨first, rfl, nested_first launched⟩
  | succ deeper ih =>
      obtain ⟨kernel, ran, nested⟩ := ih (by omega)
      obtain ⟨entry, next, returned, _, nestedNext⟩ := nested.launched valid frame (by omega)
      refine ⟨next, ?_, nestedNext⟩
      rw [List.replicate_succ', Transitions.run_append]
      exact ⟨kernel, ran, run_of_execute returned⟩

def zeroedFrame : CallFrame := ⟨0, 0, fun _ => 0⟩

/-- Any stack registers: those of an interrupt in a run that does not use them. -/
def zeroedIrq : IrqFrame := ⟨0, 0⟩

def cachedNowhere : TlbUse := ⟨fun _ => false, fun _ => false, fun _ => false⟩

end Ece391
