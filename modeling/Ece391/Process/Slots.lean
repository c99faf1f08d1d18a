import Ece391.Process.Starting

namespace Ece391

open Library Kernel

/-! # The search for a slot

The loop of `execute` runs to index 7 over a table of seven entries, and waits
for ever behind it.
-/

theorem searchSlot_reads {openTasks : Nat → Int} {remaining i slot : Nat}
    (found : (searchSlot openTasks remaining i).2 = some slot) :
    ∀ j ∈ (searchSlot openTasks remaining i).1, j ≤ slot := by
  induction remaining generalizing i with
  | zero => cases found
  | succ remaining ih =>
      simp only [searchSlot] at found ⊢
      split at found
      · obtain rfl := Option.some.inj found
        rename_i free
        simp [free]
      · rename_i live
        have first := (searchSlot_eq_some.mp found).1
        rw [if_neg live]
        intro j member
        rcases List.mem_cons.mp member with rfl | later
        · omega
        · exact ih found j later

/-- What an allocator of six slots does: it claims a free one, or refuses and
leaves the process structure alone. -/
structure Allocates (kernel : Kernel) (outcome : Outcome (Control × Kernel)) : Prop where
  reads : ∀ i ∈ (findSlot kernel.openTasks).1, i ≤ 6
  result :
    (∃ slot entry after, 1 ≤ slot ∧ slot ≤ 6 ∧ kernel.openTasks slot = -1 ∧
      outcome = .done (.iret entry, after) ∧ findProgramid after.cr3 = .done slot ∧
      after.openTasks slot ≠ -1 ∧ ∀ i, i ≠ slot → after.openTasks i = kernel.openTasks i) ∨
    ((∀ slot, 1 ≤ slot → slot ≤ 6 → kernel.openTasks slot ≠ -1) ∧
      ∃ after, outcome = .done (.returns (-1), after) ∧ after.openTasks = kernel.openTasks ∧
        after.terminals = kernel.terminals ∧ after.pcb = kernel.pcb)

def HasFreeSlot (kernel : Kernel) : Prop :=
  ∃ slot, 1 ≤ slot ∧ slot ≤ 6 ∧ kernel.openTasks slot = -1

theorem allocates_iff {image : Image} {kernel : Kernel} {command : CString} {dentry : Dentry}
    {cur : Nat} (short : ShortCommand command)
    (valid : ValidProgram image (commandName command) dentry) (frame : CallFrame)
    (current : findProgramid kernel.cr3 = .done cur) :
    Allocates kernel (kernel.execute image (some command) frame) ↔ HasFreeSlot kernel := by
  constructor
  · intro allocates
    by_contra full
    have everyLive : ∀ slot, 1 ≤ slot → slot ≤ 6 → kernel.openTasks slot ≠ -1 :=
      fun slot low high free => full ⟨slot, low, high, free⟩
    have spins := execute_spins short valid frame current everyLive
    rcases allocates.result with ⟨_, _, _, _, _, _, started, _⟩ | ⟨_, _, refused, _⟩
    · rw [spins] at started; cases started
    · rw [spins] at refused; cases refused
  · rintro ⟨free, low, high, isFree⟩
    obtain ⟨slot, found, bound⟩ := findSlot_exists low (by omega) isFree
    obtain ⟨entry, after, returned, launched⟩ :=
      execute_starts short valid frame current found (by omega)
    obtain ⟨slotLow, slotHigh⟩ := launched.slot_range
    refine ⟨fun i member => ?_, .inl ⟨slot, entry, after, slotLow, slotHigh, launched.slot_free,
      returned, launched.cr3, ?_, fun i other => ?_⟩⟩
    · have reads := searchSlot_reads found i member
      omega
    · rw [launched.openTasks, Function.update_self]
      split <;> omega
    · rw [launched.openTasks, Function.update_of_ne other]

theorem leaveTerminal_done (kernel : Kernel) {cur : Nat}
    (current : findProgramid kernel.cr3 = .done cur) (target : TerminalId) (tlb : TlbUse) :
    ∃ shown, kernel.leaveTerminal target tlb = .done shown := by
  simp only [leaveTerminal, saveTerminal, current, Outcome.done_bind, Outcome.pure_eq]
  exact ⟨_, rfl⟩

/-- A switch to another terminal than the shown one is not ignored. -/
theorem keyboardSwitch_other {image : Image} {kernel : Kernel} {target : TerminalId}
    (different : target ≠ kernel.oldTerminal) (irq : IrqFrame) (frame : CallFrame) (tlb : TlbUse) :
    kernel.keyboardSwitch image target irq frame tlb =
      { kernel with esp_0 := irq.esp_0, ebp_0 := irq.ebp_0 }.switchTo image target frame tlb := by
  have bound := target.isLt
  have range : 0 ≤ (target : Int) ∧ (target : Int) ≤ 2 := by omega
  have back : (⟨(target : Int).toNat, by omega⟩ : TerminalId) = target := by
    apply Fin.ext
    simp
  simp only [keyboardSwitch, terminalSwitch, dif_pos range, back]
  exact if_neg (Ne.symm different)

/-- The `execute` that a switch to a new terminal makes, and the state it makes
it in. -/
theorem keyboardSwitch_new {image : Image} {kernel : Kernel} {cur : Nat}
    (current : findProgramid kernel.cr3 = .done cur) {target : TerminalId}
    (different : target ≠ kernel.oldTerminal) (inactive : (kernel.terminals target).active = 0)
    (irq : IrqFrame) (frame : CallFrame) (tlb : TlbUse) :
    ∃ shown, LeftTerminal { kernel with esp_0 := irq.esp_0, ebp_0 := irq.ebp_0 } cur target shown ∧
      kernel.keyboardSwitch image target irq frame tlb =
        (shown.openTerminal target).execute image (some shellCommand) frame := by
  obtain ⟨shown, leaves⟩ := leaveTerminal_done
    { kernel with esp_0 := irq.esp_0, ebp_0 := irq.ebp_0 } current target tlb
  obtain ⟨cur', leaving⟩ := leaveTerminal_eq_done leaves
  obtain rfl := Outcome.done.inj (leaving.current.symm.trans current)
  have stillInactive : (shown.terminals target).active = 0 := by
    rw [leaving.terminals]
    dsimp only
    rwa [Function.update_of_ne different]
  refine ⟨shown, leaving, ?_⟩
  rw [keyboardSwitch_other different]
  simp only [switchTo, leaves, Outcome.done_bind, if_pos stillInactive]

/-- With room in the table, a switch to another terminal starts its shell as the
next process. -/
theorem nextShell_exists {image : Image} {kernel : Kernel} {dentry : Dentry} {depth : Nat}
    (nested : Nested depth kernel) (valid : ValidProgram image shellCommand dentry)
    (room : depth ≤ 5) {target : TerminalId} (different : target ≠ kernel.oldTerminal)
    (inactive : (kernel.terminals target).active = 0) (irq : IrqFrame) (frame : CallFrame)
    (tlb : TlbUse) :
    ∃ shown entry next,
      LeftTerminal { kernel with esp_0 := irq.esp_0, ebp_0 := irq.ebp_0 } depth target shown ∧
      kernel.keyboardSwitch image target irq frame tlb = .done (.iret entry, next) ∧
      Launched (shown.openTerminal target) frame depth (depth + 1) next := by
  obtain ⟨shown, leaving, calls⟩ :
      ∃ shown, LeftTerminal { kernel with esp_0 := irq.esp_0, ebp_0 := irq.ebp_0 } depth target
          shown ∧
        kernel.keyboardSwitch image target irq frame tlb =
          (shown.openTerminal target).execute image (some shellCommand) frame :=
    keyboardSwitch_new nested.current different inactive irq frame tlb
  have sameTable : (shown.openTerminal target).openTasks = kernel.openTasks := leaving.openTasks
  have current : findProgramid (shown.openTerminal target).cr3 = .done depth := by
    have sameCr3 : (shown.openTerminal target).cr3 = kernel.cr3 := leaving.cr3
    rw [sameCr3, nested.current]
  have found : (findSlot (shown.openTerminal target).openTasks).2 = some (depth + 1) := by
    rw [sameTable]
    exact nested.findSlot room
  rw [← commandName_shellCommand] at valid
  obtain ⟨entry, next, returned, launched⟩ :=
    execute_starts shellCommand_short valid frame current found (by omega)
  exact ⟨shown, entry, next, leaving, calls.trans returned, launched⟩

theorem secondShell_exists {image : Image} {first : Kernel} {dentry : Dentry} {memory : Kernel}
    {bootFrame : CallFrame} (valid : ValidProgram image shellCommand dentry)
    (launched : Launched (boot memory) bootFrame 0 1 first) {target : TerminalId}
    (different : target ≠ 0) (irq : IrqFrame) (frame : CallFrame) (tlb : TlbUse) :
    ∃ shown entry second,
      LeftTerminal { first with esp_0 := irq.esp_0, ebp_0 := irq.ebp_0 } 1 target shown ∧
      first.keyboardSwitch image target irq frame tlb = .done (.iret entry, second) ∧
      Launched (shown.openTerminal target) frame 1 2 second := by
  have away : target ≠ first.oldTerminal := by
    rwa [launched.oldTerminal, boot_oldTerminal]
  exact nextShell_exists (nested_first launched) valid (by decide) away (launched.inactive different) irq frame tlb

/-- A switch to a terminal in use comes back to it. -/
theorem keyboardSwitch_active (image : Image) {kernel : Kernel} {cur : Nat}
    (current : findProgramid kernel.cr3 = .done cur) {target : TerminalId}
    (different : target ≠ kernel.oldTerminal) (active : (kernel.terminals target).active ≠ 0)
    (irq : IrqFrame) (frame : CallFrame) (tlb : TlbUse) :
    ∃ ebp esp after, kernel.keyboardSwitch image target irq frame tlb =
      .done (.intRetHelper ebp esp, after) := by
  obtain ⟨shown, leaves⟩ := leaveTerminal_done
    { kernel with esp_0 := irq.esp_0, ebp_0 := irq.ebp_0 } current target tlb
  obtain ⟨_, leaving⟩ := leaveTerminal_eq_done leaves
  have stillActive : (shown.terminals target).active ≠ 0 := by
    rw [leaving.terminals]
    dsimp only
    rwa [Function.update_of_ne different]
  rw [keyboardSwitch_other different]
  simp only [switchTo, leaves, Outcome.done_bind, if_neg stillActive]
  exact ⟨_, _, _, rfl⟩

/-- In every reachable state an `execute` of a valid program, whether called by
the current process or by a switch to a new terminal, allocates as it should
exactly when one of the slots 1 to 6 is free. -/
theorem slots_allocated_iff_free {image : Image} {kernel : Kernel}
    (reachable : Reachable image kernel) :
    (∀ command dentry frame, ShortCommand command →
      ValidProgram image (commandName command) dentry →
      (Allocates kernel (kernel.execute image (some command) frame) ↔ HasFreeSlot kernel)) ∧
    ∀ shell (target : TerminalId) irq frame tlb, ValidProgram image shellCommand shell →
      target ≠ kernel.oldTerminal → (kernel.terminals target).active = 0 →
      ∃ cur shown,
        LeftTerminal { kernel with esp_0 := irq.esp_0, ebp_0 := irq.ebp_0 } cur target shown ∧
        kernel.keyboardSwitch image target irq frame tlb =
          (shown.openTerminal target).execute image (some shellCommand) frame ∧
        (Allocates (shown.openTerminal target) (kernel.keyboardSwitch image target irq frame tlb) ↔
          HasFreeSlot kernel) := by
  obtain ⟨cur, current⟩ := reachable.running.current
  refine ⟨fun command dentry frame short valid => allocates_iff short valid frame current, ?_⟩
  intro shell target irq frame tlb valid different inactive
  obtain ⟨shown, leaving, calls⟩ :
      ∃ shown, LeftTerminal { kernel with esp_0 := irq.esp_0, ebp_0 := irq.ebp_0 } cur target shown ∧
        kernel.keyboardSwitch image target irq frame tlb =
          (shown.openTerminal target).execute image (some shellCommand) frame :=
    keyboardSwitch_new current different inactive irq frame tlb
  have callerCurrent : findProgramid (shown.openTerminal target).cr3 = .done cur := by
    have same : (shown.openTerminal target).cr3 = kernel.cr3 := leaving.cr3
    rw [same, current]
  refine ⟨cur, shown, leaving, calls, ?_⟩
  rw [← commandName_shellCommand] at valid
  have sameTable : (shown.openTerminal target).openTasks = kernel.openTasks := leaving.openTasks
  rw [calls, allocates_iff shellCommand_short valid frame callerCurrent]
  simp only [HasFreeSlot]
  rw [sameTable]

theorem slots_allocated_iff_free_shell :
    ∃ kernel, Reachable shellImage kernel ∧
      (Allocates kernel (kernel.execute shellImage (some shellCommand) zeroedFrame) ↔
        HasFreeSlot kernel) := by
  obtain ⟨first, started, _⟩ := firstShell_exists shellImage_valid zeroedMemory zeroedFrame
  have reachable : Reachable shellImage first := ⟨first, [], started, rfl⟩
  have valid := shellImage_valid
  rw [← commandName_shellCommand] at valid
  exact ⟨first, reachable, (slots_allocated_iff_free reachable).1 shellCommand _ zeroedFrame
    shellCommand_short valid⟩

/-- Six shells, one inside the other, fill the table; the next one spins. -/
theorem full_table_spins :
    ∃ kernel, Reachable shellImage kernel ∧
      kernel.execute shellImage (some shellCommand) zeroedFrame = .spins ∧
      ¬ Allocates kernel (kernel.execute shellImage (some shellCommand) zeroedFrame) := by
  obtain ⟨first, started, launched⟩ :=
    firstShell_exists shellImage_valid zeroedMemory zeroedFrame
  obtain ⟨kernel, ran, nested⟩ := nested_shells shellImage_valid launched 5 (by decide)
  have full : ∀ slot, 1 ≤ slot → slot ≤ 6 → kernel.openTasks slot ≠ -1 := by
    intro slot low high
    rw [nested.openTasks slot low high, if_pos high]
    omega
  have valid := shellImage_valid
  rw [← commandName_shellCommand] at valid
  refine ⟨kernel, ⟨first, _, started, ran⟩, execute_spins shellCommand_short valid zeroedFrame
    nested.current full, fun allocates => ?_⟩
  obtain ⟨slot, low, high, free⟩ :=
    (allocates_iff shellCommand_short valid zeroedFrame nested.current).mp allocates
  exact full slot low high free

end Ece391
