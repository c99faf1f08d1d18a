import Mathlib.Logic.Function.Basic

namespace Ece391.Library

/-! # Interrupts of a 32-bit x86 processor

The general registers, the stack operations that save them, and the way into
and out of a handler at privilege level 0.  Segments are flat, and memory is
the words at multiples of four, which stacks are aligned to.
-/

abbrev Address := BitVec 32

structure Registers where
  eax : BitVec 32
  ebx : BitVec 32
  ecx : BitVec 32
  edx : BitVec 32
  esi : BitVec 32
  edi : BitVec 32
  ebp : BitVec 32
  esp : BitVec 32
  eip : BitVec 32
  eflags : BitVec 32
deriving DecidableEq, Repr

structure Cpu where
  registers : Registers
  /-- The selectors as the words that are pushed of them. -/
  cs : BitVec 32
  ss : BitVec 32
  memory : Address → BitVec 32

/-- What an interrupt gate and the task state segment hold. -/
structure Gate where
  cs : BitVec 32
  eip : BitVec 32
  ss0 : BitVec 32
  esp0 : BitVec 32

/-- The words from `address` on. -/
def Holds (memory : Address → BitVec 32) : Address → List (BitVec 32) → Prop
  | _, [] => True
  | address, word :: rest => memory address = word ∧ Holds memory (address + 4) rest

/-- The `count` words from `address` on are the same in both memories. -/
def SameWords (left right : Address → BitVec 32) (address : Address) (count : Nat) : Prop :=
  ∀ i < count, left (address + BitVec.ofNat 32 (4 * i)) = right (address + BitVec.ofNat 32 (4 * i))

theorem next_word (address : Address) (i : Nat) :
    address + BitVec.ofNat 32 (4 * (i + 1)) = address + 4 + BitVec.ofNat 32 (4 * i) := by
  apply BitVec.eq_of_toNat_eq
  simp only [BitVec.ofNat_eq_ofNat, BitVec.toNat_add, BitVec.toNat_ofNat]
  omega

theorem Holds.congr {memory other : Address → BitVec 32} {address : Address}
    {words : List (BitVec 32)} (holds : Holds memory address words)
    (same : SameWords other memory address words.length) : Holds other address words := by
  induction words generalizing address with
  | nil => trivial
  | cons word rest ih =>
      have first := same 0 (Nat.zero_lt_succ _)
      simp only [Nat.mul_zero, BitVec.add_zero] at first
      refine ⟨first.trans holds.1, ih holds.2 fun i inside => ?_⟩
      have later := same (i + 1) (Nat.succ_lt_succ inside)
      rwa [next_word] at later

theorem Holds.get {memory : Address → BitVec 32} {address : Address} {words : List (BitVec 32)}
    (holds : Holds memory address words) {i : Nat} {word : BitVec 32} (at_i : words[i]? = some word) :
    memory (address + BitVec.ofNat 32 (4 * i)) = word := by
  induction words generalizing address i with
  | nil => cases at_i
  | cons first rest ih =>
      cases i with
      | zero =>
          obtain rfl := Option.some.inj at_i
          simp only [Nat.mul_zero, BitVec.add_zero]
          exact holds.1
      | succ i =>
          rw [next_word]
          exact ih holds.2 at_i

theorem holds_append {memory : Address → BitVec 32} {address : Address}
    {first second : List (BitVec 32)} : Holds memory address (first ++ second) ↔
      Holds memory address first ∧
        Holds memory (address + BitVec.ofNat 32 (4 * first.length)) second := by
  induction first generalizing address with
  | nil => simp [Holds]
  | cons word rest ih =>
      simp only [List.cons_append, Holds, ih, List.length_cons, next_word, and_assoc]

/-- A store below the words leaves them. -/
theorem Holds.update {memory : Address → BitVec 32} {address : Address}
    {words : List (BitVec 32)} (holds : Holds memory address words) (value : BitVec 32)
    (below : Nat) (positive : 0 < below) (room : below + 4 * words.length < 4294967296) :
    Holds (Function.update memory (address - BitVec.ofNat 32 below) value) address words := by
  induction words generalizing address below with
  | nil => trivial
  | cons word rest ih =>
      simp only [List.length_cons] at room
      constructor
      · have apart : address ≠ address - BitVec.ofNat 32 below := by
          intro same
          have offset := congrArg BitVec.toNat same
          simp only [BitVec.toNat_sub, BitVec.toNat_ofNat] at offset
          omega
        rw [Function.update_of_ne apart]
        exact holds.1
      · have same : address - BitVec.ofNat 32 below = address + 4 - BitVec.ofNat 32 (below + 4) := by
          apply BitVec.eq_of_toNat_eq
          simp only [BitVec.ofNat_eq_ofNat, BitVec.toNat_sub, BitVec.toNat_add, BitVec.toNat_ofNat]
          omega
        rw [same]
        exact ih holds.2 (below + 4) (by omega) (by omega)

theorem SameWords.update {memory other : Address → BitVec 32} {address : Address} {count : Nat}
    (same : SameWords memory other address count) (value : BitVec 32) (below : Nat)
    (positive : 0 < below) (room : below + 4 * count < 4294967296) :
    SameWords (Function.update memory (address - BitVec.ofNat 32 below) value) other address count := by
  intro i inside
  have apart : address + BitVec.ofNat 32 (4 * i) ≠ address - BitVec.ofNat 32 below := by
    intro equal
    have offset := congrArg BitVec.toNat equal
    simp only [BitVec.toNat_add, BitVec.toNat_sub, BitVec.toNat_ofNat] at offset
    omega
  rw [Function.update_of_ne apart]
  exact same i inside

namespace Cpu

def push (cpu : Cpu) (value : BitVec 32) : Cpu :=
  { cpu with
    registers := { cpu.registers with esp := cpu.registers.esp - 4 }
    memory := Function.update cpu.memory (cpu.registers.esp - 4) value }

/-- Several pushes; `words` is the order in memory, the last push first. -/
def pushAll (cpu : Cpu) : List (BitVec 32) → Cpu
  | [] => cpu
  | word :: rest => (cpu.pushAll rest).push word

def pusha (cpu : Cpu) : Cpu :=
  let r := cpu.registers
  cpu.pushAll [r.edi, r.esi, r.ebp, r.esp, r.ebx, r.edx, r.ecx, r.eax]

/-- The `i`-th word of the stack. -/
def word (cpu : Cpu) (i : Nat) : BitVec 32 :=
  cpu.memory (cpu.registers.esp + BitVec.ofNat 32 (4 * i))

/-- The ESP on the stack is skipped. -/
def popa (cpu : Cpu) : Cpu :=
  { cpu with
    registers := { cpu.registers with
      edi := cpu.word 0
      esi := cpu.word 1
      ebp := cpu.word 2
      ebx := cpu.word 4
      edx := cpu.word 5
      ecx := cpu.word 6
      eax := cpu.word 7
      esp := cpu.registers.esp + 32 } }

/-- A selector of an outer privilege level. -/
def outer (selector : BitVec 32) : Bool := selector.toNat % 4 ≠ 0

/-- The words an interrupt leaves on the stack. -/
def frame (cpu : Cpu) : List (BitVec 32) :=
  if outer cpu.cs then
    [cpu.registers.eip, cpu.cs, cpu.registers.eflags, cpu.registers.esp, cpu.ss]
  else [cpu.registers.eip, cpu.cs, cpu.registers.eflags]

/-- An interrupt through a gate of level 0: a program of an outer level gets the
stack of the task state segment, and interrupts are off from there on. -/
def interrupt (cpu : Cpu) (gate : Gate) : Cpu :=
  let stacked : Cpu :=
    if outer cpu.cs then
      { cpu with registers := { cpu.registers with esp := gate.esp0 }, ss := gate.ss0 }
    else cpu
  let stacked := stacked.pushAll cpu.frame
  { stacked with
    cs := gate.cs
    registers := { stacked.registers with
      eip := gate.eip
      eflags := stacked.registers.eflags &&& ~~~0x200 } }

/-- `iret` at level 0; a return to an outer level takes the stack with it. -/
def iret (cpu : Cpu) : Cpu :=
  let returned : Registers :=
    { cpu.registers with eip := cpu.word 0, eflags := cpu.word 2, esp := cpu.registers.esp + 12 }
  if outer (cpu.word 1) then
    { cpu with
      registers := { returned with esp := cpu.word 3 }
      cs := cpu.word 1
      ss := cpu.word 4 }
  else { cpu with registers := returned, cs := cpu.word 1 }

variable (cpu : Cpu)

theorem pushAll_esp (words : List (BitVec 32)) :
    (cpu.pushAll words).registers.esp = cpu.registers.esp - BitVec.ofNat 32 (4 * words.length) := by
  induction words with
  | nil => simp only [pushAll, List.length_nil, Nat.mul_zero, BitVec.sub_zero]
  | cons word rest ih =>
      simp only [pushAll, push, ih, List.length_cons]
      apply BitVec.eq_of_toNat_eq
      simp only [BitVec.ofNat_eq_ofNat, BitVec.toNat_sub, BitVec.toNat_ofNat]
      omega

/-- What is pushed lies above what was there. -/
theorem pushAll_holds (words : List (BitVec 32)) {older : List (BitVec 32)}
    (held : Holds cpu.memory cpu.registers.esp older)
    (room : 4 * (words.length + older.length) < 4294967296) :
    Holds (cpu.pushAll words).memory (cpu.pushAll words).registers.esp (words ++ older) := by
  induction words with
  | nil => exact held
  | cons word rest ih =>
      simp only [List.length_cons] at room
      have later := ih (by omega)
      refine ⟨Function.update_self .., ?_⟩
      simp only [pushAll, push]
      have above : (cpu.pushAll rest).registers.esp - 4 + 4 = (cpu.pushAll rest).registers.esp :=
        BitVec.sub_add_cancel _ _
      rw [above]
      refine later.update word 4 (by decide) ?_
      simp only [List.length_append]
      omega

/-- Pushes leave the words above the stack pointer. -/
theorem pushAll_keeps (words : List (BitVec 32)) (count : Nat)
    (room : 4 * (words.length + count) < 4294967296) :
    SameWords (cpu.pushAll words).memory cpu.memory cpu.registers.esp count := by
  induction words with
  | nil => exact fun _ _ => rfl
  | cons word rest ih =>
      simp only [List.length_cons] at room
      have below : (cpu.pushAll rest).registers.esp - 4 =
          cpu.registers.esp - BitVec.ofNat 32 (4 * (rest.length + 1)) := by
        rw [pushAll_esp]
        apply BitVec.eq_of_toNat_eq
        simp only [BitVec.ofNat_eq_ofNat, BitVec.toNat_sub, BitVec.toNat_ofNat]
        omega
      simp only [pushAll, push, below]
      exact SameWords.update (ih (by omega)) word (4 * (rest.length + 1)) (by omega) (by omega)

theorem frame_length : cpu.frame.length ≤ 5 := by
  simp only [frame]
  split <;> simp

theorem interrupt_holds (gate : Gate) :
    Holds (cpu.interrupt gate).memory (cpu.interrupt gate).registers.esp cpu.frame := by
  have length := cpu.frame_length
  simp only [interrupt]
  have nothing : ∀ stacked : Cpu, Holds stacked.memory stacked.registers.esp [] := fun _ => trivial
  have held := pushAll_holds (if outer cpu.cs then
    { cpu with registers := { cpu.registers with esp := gate.esp0 }, ss := gate.ss0 } else cpu)
    cpu.frame (nothing _) (by simp only [List.length_nil]; omega)
  rwa [List.append_nil] at held

theorem interrupt_esp (gate : Gate) (inner : ¬ outer cpu.cs) :
    (cpu.interrupt gate).registers.esp + 12 = cpu.registers.esp := by
  simp only [interrupt, frame, if_neg inner, pushAll_esp, List.length_cons, List.length_nil]
  exact BitVec.sub_add_cancel _ _

theorem pushAll_registers (words : List (BitVec 32)) :
    ∃ esp, (cpu.pushAll words).registers = { cpu.registers with esp } := by
  induction words with
  | nil => exact ⟨cpu.registers.esp, rfl⟩
  | cons word rest ih =>
      obtain ⟨esp, same⟩ := ih
      exact ⟨esp - 4, by simp only [pushAll, push, same]⟩

/-- The handler starts with the general registers of the program. -/
theorem interrupt_registers (gate : Gate) :
    ∃ esp, (cpu.interrupt gate).registers =
      { cpu.registers with
        esp
        eip := gate.eip
        eflags := cpu.registers.eflags &&& ~~~0x200 } := by
  simp only [interrupt]
  split
  · obtain ⟨esp, same⟩ := pushAll_registers
      { cpu with registers := { cpu.registers with esp := gate.esp0 }, ss := gate.ss0 } cpu.frame
    exact ⟨esp, by rw [same]⟩
  · obtain ⟨esp, same⟩ := pushAll_registers cpu cpu.frame
    exact ⟨esp, by rw [same]⟩

variable {cpu}

/-- The way back from a handler restores what the interrupt saved and nothing else. -/
theorem iret_of_holds {process : Cpu} {gate : Gate}
    (stack : cpu.registers.esp = (process.interrupt gate).registers.esp)
    (holds : Holds cpu.memory cpu.registers.esp process.frame) :
    cpu.iret.registers =
      { cpu.registers with
        eip := process.registers.eip
        eflags := process.registers.eflags
        esp := process.registers.esp } := by
  unfold frame at holds
  simp only [iret]
  by_cases isOuter : outer process.cs
  · rw [if_pos isOuter] at holds
    have eip : cpu.word 0 = process.registers.eip := holds.get rfl
    have cs : cpu.word 1 = process.cs := holds.get rfl
    have eflags : cpu.word 2 = process.registers.eflags := holds.get rfl
    have esp : cpu.word 3 = process.registers.esp := holds.get rfl
    simp only [eip, cs, eflags, esp, isOuter, if_true]
  · rw [if_neg isOuter] at holds
    have eip : cpu.word 0 = process.registers.eip := holds.get rfl
    have cs : cpu.word 1 = process.cs := holds.get rfl
    have eflags : cpu.word 2 = process.registers.eflags := holds.get rfl
    have esp : cpu.registers.esp + 12 = process.registers.esp := by
      rw [stack, process.interrupt_esp gate isOuter]
    simp only [eip, cs, eflags, esp, isOuter, Bool.false_eq_true, if_false]

theorem popa_of_holds {saved : Registers}
    (stack : cpu.registers.esp + 32 = saved.esp)
    (holds : Holds cpu.memory cpu.registers.esp [saved.edi, saved.esi, saved.ebp, saved.esp,
      saved.ebx, saved.edx, saved.ecx, saved.eax]) :
    cpu.popa.registers =
      { saved with eip := cpu.registers.eip, eflags := cpu.registers.eflags } := by
  have edi : cpu.word 0 = saved.edi := holds.get rfl
  have esi : cpu.word 1 = saved.esi := holds.get rfl
  have ebp : cpu.word 2 = saved.ebp := holds.get rfl
  have ebx : cpu.word 4 = saved.ebx := holds.get rfl
  have edx : cpu.word 5 = saved.edx := holds.get rfl
  have ecx : cpu.word 6 = saved.ecx := holds.get rfl
  have eax : cpu.word 7 = saved.eax := holds.get rfl
  simp only [popa, edi, esi, ebp, ebx, edx, ecx, eax, stack]

end Cpu

end Ece391.Library
