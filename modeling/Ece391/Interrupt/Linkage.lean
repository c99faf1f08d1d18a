import Ece391.Library.Cpu
import Ece391.Process.Step

namespace Ece391

open Library

/-! # The interrupt stubs of idt_linkage.S

C code is known to them by the calling convention: its arguments lie above the
return address, and when it returns ESP is where it was.
-/

def KERNEL_CS : Word := 0x10
def KERNEL_DS : Word := 0x18

/-- The gate of a stub while the task state segment has `esp0`. -/
def irqGate (wrapper esp0 : Word) : Gate := ⟨KERNEL_CS, wrapper, KERNEL_DS, esp0⟩

/-- What `irq1_wrapper` finds in ESP and EBP. -/
def irqFrame (process : Cpu) (gate : Gate) : IrqFrame :=
  let entered := process.interrupt gate
  ⟨entered.registers.esp, entered.registers.ebp⟩

def intRetHelper (cpu : Cpu) : Cpu :=
  Cpu.iret { cpu with registers := { cpu.registers with ebp := cpu.word 1, esp := cpu.word 2 } }

/-- Control is at the entry of `int_ret_helper(ebp, esp)`. -/
structure CallsIntRetHelper (cpu : Cpu) (ebp esp : Word) : Prop where
  ebp : cpu.word 1 = ebp
  esp : cpu.word 2 = esp

variable {process returning : Cpu} {gate : Gate}

/-- The registers that `int_ret_helper` gives back, the others stay as they are. -/
theorem intRetHelper_registers
    (called : CallsIntRetHelper returning (irqFrame process gate).ebp_0 (irqFrame process gate).esp_0)
    (kept : SameWords returning.memory (process.interrupt gate).memory (irqFrame process gate).esp_0
      process.frame.length) :
    (intRetHelper returning).registers =
      { returning.registers with
        ebp := process.registers.ebp
        esp := process.registers.esp
        eip := process.registers.eip
        eflags := process.registers.eflags } := by
  have esp : returning.word 2 = (process.interrupt gate).registers.esp := called.esp
  have ebp : returning.word 1 = process.registers.ebp := by
    obtain ⟨esp, entry⟩ := process.interrupt_registers gate
    rw [called.ebp]
    simp only [irqFrame, entry]
  have holds : Holds returning.memory (returning.word 2) process.frame := by
    rw [esp]
    exact (process.interrupt_holds gate).congr kept
  simp only [intRetHelper]
  rw [Cpu.iret_of_holds esp holds, ebp]

end Ece391
