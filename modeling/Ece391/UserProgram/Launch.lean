import Ece391.Emulation.Agreement
import Ece391.UserProgram.Service

namespace Ece391

open Library Kernel

/-! # Programs that a command starts -/

variable {image : Image} {behind : BehindTables} {driver : TerminalDriver} {kernel after : Kernel}
  {command : CString} {frame : CallFrame} {control : Control} {entry : Word} {cur slot : Nat}

/-- The new process has the argument of the command, a keyboard and no files. -/
structure Started (image : Image) (behind : BehindTables) (command : CString) (slot : Nat)
    (driver : TerminalDriver) : Prop where
  running : RunsAs image behind slot driver
  argument : stringAt (driver.kernel.pcb slot).argument ARGUMENT_LEN 0 =
    some (commandArgument command)
  free : freeDescriptor (driver.kernel.pcb slot) = some 2
  stdin : ReadsKeyboard (driver.kernel.pcb slot) 0
  closed : ∀ fd, 2 ≤ fd → fd < 7 → ((driver.kernel.pcb slot).fd fd).flags = 0

theorem Started.holding (started : Started image behind command slot driver) :
    Holding image behind slot driver.kernel.pcb driver.kernel.currentDirIndex [] []
      ⟨driver, [], []⟩ :=
  ⟨started.running, rfl, rfl, rfl, rfl⟩

/-- Descriptors 0 and 1 are the terminal, descriptor 2 is the first free one. -/
theorem initialFd_free {pcb : Pcb} {fd : Nat → FileDescriptor} (table : pcb.fd = initialFd fd) :
    freeDescriptor pcb = some 2 ∧ ReadsKeyboard pcb 0 := by
  refine ⟨freeDescriptor_eq_some.mpr ⟨by decide, by decide, ?_, fun i low below => by omega⟩, ?_, ?_⟩
  · rw [table]
    rfl
  · rw [table]
    have flags : (initialFd fd (0 : Int).toNat).flags = 1 := rfl
    omega
  · rw [table]
    rfl

theorem execute_started (reachable : ConsoleReachable image behind driver)
    (short : ShortCommand command)
    (done : driver.kernel.execute image (some command) frame = .done (.iret entry, after)) :
    ∃ slot, Started image behind command slot { driver with kernel := after } := by
  have parsed := done
  rw [execute_short short] at parsed
  obtain ⟨checked, _, rest⟩ := Outcome.bind_eq_done.mp parsed
  cases checked with
  | none => cases rest
  | some entryPoint =>
      obtain ⟨_, cur, slot, launched⟩ := launch_eq_done rest
      obtain ⟨new, dest, current, argument⟩ := launch_argument rest
      obtain rfl : new = slot := Outcome.done.inj (current.symm.trans launched.cr3)
      have stepped : driver.step image behind (.call (.execute (some command) frame)) =
          some { driver with kernel := after } := by
        simp only [TerminalDriver.step, Kernel.step, done, Outcome.toOption_done, Option.map_some]
      have starts : driver.StartsShells image behind (.call (.execute (some command) frame)) :=
        trivial
      obtain ⟨free, stdin⟩ := initialFd_free launched.newFd
      refine ⟨new, ⟨reachable.step starts stepped, launched.cr3⟩, ?_, free, stdin, ?_⟩
      · dsimp only
        rw [argument]
        exact stringAt_strcpy short.argument
      · intro fd low high
        dsimp only
        rw [launched.newFd, initialFd, if_neg (by omega), if_pos high]

theorem shellImage_wellFormed : WellFormed shellImage := by
  have first : ∀ index < shellImage.numDirectory, index = 0 := by
    intro index below
    have one : shellImage.numDirectory = 1 := by decide +kernel
    omega
  refine ⟨?_, ?_, ?_⟩ <;> intro index listed <;> obtain rfl := first index listed <;>
    decide +kernel

theorem shellImage_regular : RegularFile shellImage shellCommand (shellImage.dirEntry 0) :=
  ⟨by decide, by decide, ⟨0, by decide +kernel, ⟨by decide, by decide +kernel, nofun⟩, rfl⟩,
    by decide +kernel⟩

/-- A machine that has just started its first shell. -/
theorem bootedShell_reachable {image : Image} {dentry : Dentry}
    (valid : ValidProgram image shellCommand dentry) (behind : BehindTables) :
    ∃ driver, ConsoleReachable image behind driver ∧ Nested 1 driver.kernel ∧
      driver.kernel.currentDirIndex = 0 ∧ ∀ pid, driver.kernel.videoPage pid = .screen := by
  obtain ⟨first, started, launched⟩ := firstShell_exists valid zeroedMemory zeroedFrame
  have startX : first.screenX = 0 := launched.display.screenX.trans (boot_screenX _)
  have startY : first.screenY = 0 := launched.display.screenY.trans (boot_screenY _)
  have onScreen : ∀ pid, first.videoPage pid = .screen := by
    intro pid
    rw [launched.display.videoPage]
    exact boot_videoPage _ pid
  let blank : Console := ⟨fun _ => 0, 0, 0, fun _ => 0, 0⟩
  have messages : BootMessages first := ⟨blank, blank, [], rfl, rfl, rfl, startX, startY⟩
  exact ⟨⟨first, noModifiers⟩, ⟨first, noModifiers, [], started, messages, trivial, rfl⟩,
    nested_first launched, started.index, onScreen⟩

/-- A command that names the shell is executed by the first one. -/
theorem bootedShell_executes {image : Image} {dentry : Dentry}
    (valid : ValidProgram image shellCommand dentry) (behind : BehindTables)
    (name : commandName command = shellCommand) (short : ShortCommand command) :
    ∃ driver entry kernel, ConsoleReachable image behind driver ∧
      driver.kernel.execute image (some command) zeroedFrame = .done (.iret entry, kernel) ∧
      kernel.currentDirIndex = 0 := by
  obtain ⟨driver, reachable, nested, fresh, _⟩ := bootedShell_reachable valid behind
  rw [← name] at valid
  obtain ⟨entry, kernel, executed, _⟩ :=
    execute_starts short valid zeroedFrame nested.current (nested.findSlot (by decide)) (by decide)
  exact ⟨driver, entry, kernel, reachable, executed, (execute_index executed).trans fresh⟩

end Ece391
