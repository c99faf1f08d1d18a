import Ece391.Process.Starting

namespace Ece391

open Library Kernel

/-! # What the run queue holds

`execute` looks its new process up with `find_terminal` before any terminal
shows it, and adds `&terminals[-1]` when the look-up fails.  The kernel's own
first call does that, and no later call takes the entry out again.
-/

/-- The entries of `tasks[]` are the terminals in use, once each. -/
structure QueueIntact (kernel : Kernel) : Prop where
  address : ∀ index < MAXTERMS, ∀ entry, kernel.tasks index = some entry →
    ∃ term : TerminalId, entry = term
  once : ∀ left < MAXTERMS, ∀ right < MAXTERMS, left ≠ right → ∀ entry,
    kernel.tasks left = some entry → kernel.tasks right ≠ some entry
  active : ∀ term : TerminalId, (∃ index < MAXTERMS, kernel.tasks index = some (term : Int)) ↔
    (kernel.terminals term).active ≠ 0

/-- Entry `index` is the address `&terminals[-1]`. -/
def StrayEntry (tasks : Nat → Option Int) (index : Nat) : Prop := tasks index = some (-1)

theorem StrayEntry.not_intact {kernel : Kernel} {index : Nat} (stray : StrayEntry kernel.tasks index)
    (bound : index < MAXTERMS) : ¬ QueueIntact kernel := by
  intro intact
  obtain ⟨term, same⟩ := intact.address index bound (-1) stray
  omega

section Keeps

variable {kernel : Kernel} {index cur slot : Nat}

theorem StrayEntry.add {tasks : Nat → Option Int} (stray : StrayEntry tasks index)
    (currentTaskIdx : Nat) (task : Int) :
    StrayEntry (addTaskToQueue tasks currentTaskIdx task) index :=
  addTaskToQueue_keeps stray

/-- Only terminals that were found are taken out. -/
theorem StrayEntry.remove {tasks : Nat → Option Int} (stray : StrayEntry tasks index) {task : Int}
    (found : task ≠ -1) : StrayEntry (removeTaskFromQueue tasks task) index :=
  removeTaskFromQueue_keeps stray (Ne.symm found)

theorem StrayEntry.scheduleLaunch (stray : StrayEntry kernel.tasks index) :
    StrayEntry (kernel.scheduleLaunch cur slot).tasks index := by
  simp only [Kernel.scheduleLaunch]
  split
  · exact stray
  · rename_i found
    apply StrayEntry.add
    split
    · exact stray.remove found
    · exact stray

theorem StrayEntry.scheduleHalt {parent : Int} (stray : StrayEntry kernel.tasks index) :
    StrayEntry (kernel.scheduleHalt cur parent).tasks index := by
  simp only [Kernel.scheduleHalt]
  split
  · exact stray
  · rename_i found
    apply StrayEntry.add
    split
    · exact stray.remove found
    · exact stray

theorem StrayEntry.launched {frame : CallFrame} {after : Kernel}
    (stray : StrayEntry kernel.tasks index) (launched : Launched kernel frame cur slot after) :
    StrayEntry after.tasks index := by
  have claimed : StrayEntry (kernel.claimSlot cur slot).tasks index := stray
  rw [launched.tasks]
  exact claimed.scheduleLaunch

theorem StrayEntry.openTerminal {irq : IrqFrame} {target : TerminalId} {shown : Kernel}
    (stray : StrayEntry kernel.tasks index)
    (leaving : LeftTerminal { kernel with esp_0 := irq.esp_0, ebp_0 := irq.ebp_0 } cur target shown) :
    StrayEntry (shown.openTerminal target).tasks index := by
  have same : shown.tasks = kernel.tasks := leaving.tasks
  have kept : StrayEntry shown.tasks index := by rwa [same]
  exact kept.add ..

end Keeps

/-- No step takes a stray entry out of the queue. -/
theorem StrayEntry.step {image : Image} {kernel next : Kernel} {event : Event} {index : Nat}
    (stray : StrayEntry kernel.tasks index) (stepped : kernel.step image event = some next) :
    StrayEntry next.tasks index := by
  cases step_effect stepped with
  | refused returned => exact stray
  | quiet quiet other => rwa [quiet.tasks]
  | launched _ launched => exact stray.launched launched
  | left left =>
      rw [left.tasks]
      exact stray.scheduleHalt
  | restarted restarted =>
      rw [restarted.state]
      exact stray.scheduleHalt
  | opened different leaving inactive launched => exact (stray.openTerminal leaving).launched launched
  | abandoned different leaving inactive failed => exact stray.openTerminal leaving
  | resumed different leaving active =>
      have same : _ = kernel.tasks := leaving.tasks
      rwa [resumeTerminal_tasks, same]

/-- Until a process runs, every terminal claims to show pid 0. -/
theorem FirstShell.tasks {image : Image} {first : Kernel} (started : FirstShell image first) :
    first.tasks = addTaskToQueue (addTaskToQueue (fun _ => none) 0 0) 0 (-1) := by
  obtain ⟨memory, frame, slot, launched⟩ := started.launched
  have low := launched.slot_range.1
  have found : ((boot memory).claimSlot 0 slot).findTerminal (0 : Nat) ≠ -1 := by
    rw [Ne, findTerminal_eq_neg_one]
    intro absent
    apply absent 0
    simp [claimSlot, initialTerminal]
  have missing : ((boot memory).claimSlot 0 slot).findTerminal slot = -1 := by
    rw [findTerminal_eq_neg_one]
    intro term
    simp only [claimSlot, boot_terminals, initialTerminal]
    omega
  have root : ((boot memory).claimSlot 0 slot).openTasks slot = 0 := by
    simp only [claimSlot, Function.update_self, boot_newterminalFlag]
    rfl
  rw [launched.tasks]
  simp only [scheduleLaunch, if_neg found, missing, root, ne_eq, not_true_eq_false, if_false]
  simp only [claimSlot, boot_tasks, boot_currentTaskIdx]

theorem FirstShell.stray {image : Image} {first : Kernel} (started : FirstShell image first) :
    StrayEntry first.tasks 1 := by
  rw [started.tasks]
  rfl

/-- From the kernel's first `execute` on the queue is never intact again. -/
theorem queue_never_intact {image : Image} {kernel : Kernel} (reachable : Reachable image kernel) :
    ¬ QueueIntact kernel := by
  have stray : StrayEntry kernel.tasks 1 :=
    reachable.of_invariant (fun first started => started.stray)
      fun before event next stray stepped => stray.step stepped
  exact stray.not_intact (by decide)

theorem queue_never_intact_shell :
    ∃ kernel, Reachable shellImage kernel ∧ ¬ QueueIntact kernel := by
  obtain ⟨first, started, _⟩ := firstShell_exists shellImage_valid zeroedMemory zeroedFrame
  have reachable : Reachable shellImage first := ⟨first, [], started, rfl⟩
  exact ⟨first, reachable, queue_never_intact reachable⟩

/-- Booting a disk with a shell leaves `&terminals[-1]` in `tasks[1]`. -/
theorem first_shell_queues_stray :
    ¬ ∀ kernel, Reachable shellImage kernel → QueueIntact kernel := by
  intro intact
  obtain ⟨first, started, _⟩ := firstShell_exists shellImage_valid zeroedMemory zeroedFrame
  exact started.stray.not_intact (by decide) (intact first ⟨first, [], started, rfl⟩)

end Ece391
