import Ece391.FileSystem.Names
import Ece391.Process.Slots

namespace Ece391

open Library Kernel

/-! # What execute accepts as a program

The decision is made on the first of the 63 directory slots that matches the
name and on four bytes of a stack buffer; neither the number of entries, nor
the type of the entry, nor the result of the header read is looked at.
-/

/-- The name of a listed regular file that has a header and starts like an
executable. -/
structure ProperProgram (image : Image) (name : CString) : Prop where
  nonempty : name.strlen ≠ 0
  listed : ∃ index, index < NUM_DIR_ENTRIES ∧ index < image.numDirectory ∧
    ExactName image name index ∧ (image.dirEntry index).fileType = 2 ∧
    28 ≤ image.inodeLength (image.dirEntry index).inodeNum ∧
    ElfMagic (fileByte image (image.dirEntry index).inodeNum)

/-- `execute` returned -1 and left the process structure alone. -/
def Refused (kernel : Kernel) (outcome : Outcome (Control × Kernel)) : Prop :=
  ∃ after, outcome = .done (.returns (-1), after) ∧ after.openTasks = kernel.openTasks ∧
    after.terminals = kernel.terminals ∧ after.tasks = kernel.tasks ∧ after.pcb = kernel.pcb ∧
    after.cr3 = kernel.cr3

/-- The four bytes tested for the program in slot `index`: the first ones of
the file as far as it goes, the stack buffer's own behind that. -/
def PassesCheck (image : Image) (index : Nat) (buf : Nat → Byte) : Prop :=
  ElfMagic (headerBuf image (image.dirEntry index).inodeNum buf)

section Names

variable {image : Image} {name : CString} {index : Nat}

end Names

variable {image : Image} {kernel : Kernel} {command : CString} {frame : CallFrame}

theorem execute_not_refused {index : Nat} (short : ShortCommand command)
    (firstMatch : FirstMatch image (commandName command) index)
    (passes : PassesCheck image index frame.buf) :
    ¬ Refused kernel (kernel.execute image (some command) frame) := by
  rintro ⟨after, refused, _⟩
  have found := readDentryByName_eq_some.mpr ⟨short.name, index, firstMatch, rfl⟩
  rw [execute_short short, checkExecutable_found found] at refused
  simp only [PassesCheck] at passes
  simp only [if_pos passes, Outcome.done_bind] at refused
  have started := (launch_eq_done refused).1
  cases started

theorem execute_refused (short : ShortCommand command)
    (fails : ∀ index, FirstMatch image (commandName command) index →
      ¬ PassesCheck image index frame.buf) :
    Refused kernel (kernel.execute image (some command) frame) := by
  refine ⟨kernel, ?_, rfl, rfl, rfl, rfl, rfl⟩
  rw [execute_short short]
  have looked : readDentryByName image (commandName command) = _ :=
    readDentryByName_of_short short.name
  cases entry : findEntry image (commandName command).char NUM_DIR_ENTRIES 0 with
  | none =>
      rw [entry] at looked
      rw [checkExecutable_absent looked]
      rfl
  | some index =>
      rw [entry] at looked
      obtain ⟨_, bound, found, first⟩ := findEntry_eq_some.mp entry
      have failed := fails index ⟨by omega, found, fun j below => first j (Nat.zero_le _) below⟩
      rw [checkExecutable_found looked]
      simp only [PassesCheck] at failed
      rw [if_neg failed]
      rfl

/-- A command of one space. -/
def blankCommand : CString := ⟨[32], by simp⟩

end Ece391
