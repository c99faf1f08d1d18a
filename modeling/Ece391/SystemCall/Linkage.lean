import Ece391.Interrupt.Linkage
import Mathlib.Tactic.IntervalCases

namespace Ece391

open Library

/-! # Getting into a system call and back (ece391syscall.S, idt_linkage.S) -/

/-- The handlers of `syscall_array`. -/
inductive SyscallHandler where
  | halt
  | execute
  | read
  | write
  | open
  | close
  | getargs
  | vidmap
deriving DecidableEq, Repr

def syscallArray : List (Option SyscallHandler) :=
  [none, some .halt, some .execute, some .read, some .write, some .open, some .close,
    some .getargs, some .vidmap]

/-- `SYS_HALT` to `SYS_VIDMAP`. -/
def SyscallHandler.number : SyscallHandler → Word
  | .halt => 1
  | .execute => 2
  | .read => 3
  | .write => 4
  | .open => 5
  | .close => 6
  | .getargs => 7
  | .vidmap => 8

namespace Library.Cpu

/-- An interrupt through a trap gate, which leaves the interrupt flag. -/
def trap (cpu : Cpu) (gate : Gate) : Cpu :=
  let entered := cpu.interrupt gate
  { entered with registers := { entered.registers with eflags := cpu.registers.eflags } }

theorem pusha_registers (cpu : Cpu) : ∃ esp, cpu.pusha.registers = { cpu.registers with esp } :=
  pushAll_registers cpu _

end Library.Cpu

/-- `DO_CALL` up to its INT, which comes back to `resume`. -/
def doCall (number resume : Word) (cpu : Cpu) : Cpu :=
  let saved := cpu.push cpu.registers.ebx
  { saved with
    registers := { saved.registers with
      eax := number
      ebx := saved.word 2
      ecx := saved.word 3
      edx := saved.word 4
      eip := resume } }

/-- `POPL %EBX` and `RET` -/
def doCallReturn (cpu : Cpu) : Cpu :=
  let popped : Cpu :=
    { cpu with
      registers := { cpu.registers with ebx := cpu.word 0, esp := cpu.registers.esp + 4 } }
  { popped with
    registers := { popped.registers with eip := popped.word 0, esp := popped.registers.esp + 4 } }

/-- `syscall_wrapper` up to the comparisons. -/
def syscallWrapper (process : Cpu) (gate : Gate) : Cpu :=
  let saved := (process.trap gate).pusha
  saved.pushAll [saved.registers.ebx, saved.registers.ecx, saved.registers.edx]

/-- The comparisons, which are signed, and the entry of `syscall_array`. -/
def syscallDispatch (eax : Word) : Option SyscallHandler :=
  if eax.toInt < 1 then none
  else if eax.toInt > 8 then none
  else (syscallArray[eax.toNat]?).join

/-- `call *syscall_array(,%eax,4)` -/
def callHandler (handler next : Word) (cpu : Cpu) : Cpu :=
  let pushed := cpu.push next
  { pushed with registers := { pushed.registers with eip := handler } }

/-- `popl %ebx`, `popl %ecx` and `popl %edx` -/
def popArguments (cpu : Cpu) : Cpu :=
  { cpu with
    registers := { cpu.registers with
      ebx := cpu.word 0
      ecx := cpu.word 1
      edx := cpu.word 2
      esp := cpu.registers.esp + 12 } }

/-- `syscall_wrapper` from the return of the handler on. -/
def syscallReturn (returnValue : Word) (cpu : Cpu) : Cpu :=
  let popped := popArguments cpu
  let stored : Cpu :=
    { popped with memory := Function.update popped.memory returnValue popped.registers.eax }
  let restored := stored.popa
  let loaded : Cpu :=
    { restored with registers := { restored.registers with eax := restored.memory returnValue } }
  loaded.iret

/-- `syscall_wrapper` from `done` on. -/
def syscallDone (cpu : Cpu) : Cpu :=
  let restored := (popArguments cpu).popa
  Cpu.iret { restored with registers := { restored.registers with eax := -1 } }

theorem push_word (cpu : Cpu) (value : Word) {i : Nat} (small : 4 * (i + 1) < 4294967296) :
    (cpu.push value).word (i + 1) = cpu.word i := by
  have above : cpu.registers.esp - 4 + BitVec.ofNat 32 (4 * (i + 1)) =
      cpu.registers.esp + BitVec.ofNat 32 (4 * i) := by
    rw [next_word, BitVec.sub_add_cancel]
  have apart : cpu.registers.esp + BitVec.ofNat 32 (4 * i) ≠ cpu.registers.esp - 4 := by
    intro same
    rw [← above] at same
    have offset := congrArg BitVec.toNat same
    simp only [BitVec.toNat_add, BitVec.toNat_ofNat] at offset
    omega
  change Function.update cpu.memory _ value (cpu.registers.esp - 4 + _) = _
  rw [above, Function.update_of_ne apart]
  rfl

theorem push_word_zero (cpu : Cpu) (value : Word) : (cpu.push value).word 0 = value := by
  change Function.update cpu.memory _ value (cpu.registers.esp - 4 + BitVec.ofNat 32 (4 * 0)) = _
  rw [Nat.mul_zero, BitVec.add_zero, Function.update_self]

theorem callHandler_word (handler next : Word) (cpu : Cpu) {i : Nat}
    (small : 4 * (i + 1) < 4294967296) : (callHandler handler next cpu).word (i + 1) = cpu.word i :=
  push_word cpu next small

/-- A store elsewhere leaves the words. -/
theorem SameWords.store {memory other : Address → Word} {address target value : Word} {count : Nat}
    (same : SameWords memory other address count)
    (apart : ∀ i < count, address + BitVec.ofNat 32 (4 * i) ≠ target) :
    SameWords (Function.update memory target value) other address count := by
  intro i inside
  rw [Function.update_of_ne (apart i inside)]
  exact same i inside

theorem iret_memory (cpu : Cpu) : cpu.iret.memory = cpu.memory := by
  simp only [Cpu.iret]
  split <;> rfl

theorem trap_registers (process : Cpu) (gate : Gate) : ∃ esp,
    (process.trap gate).registers = { process.registers with esp, eip := gate.eip } := by
  obtain ⟨esp, entry⟩ := process.interrupt_registers gate
  exact ⟨esp, by simp only [Cpu.trap, entry]⟩

variable {process returning cpu : Cpu} {gate : Gate} {number resume returnValue : Word}

/-- What `pusha` keeps. -/
def savedWords (r : Registers) : List Word :=
  [r.edi, r.esi, r.ebp, r.esp, r.ebx, r.edx, r.ecx, r.eax]

/-- What `syscall_wrapper` keeps below the frame, the arguments of the handler first. -/
def syscallWords (r : Registers) : List Word := [r.ebx, r.ecx, r.edx] ++ savedWords r

theorem syscallWords_length (r : Registers) : (syscallWords r).length = 11 := rfl

theorem syscallWrapper_eq (process : Cpu) (gate : Gate) : syscallWrapper process gate =
    (process.trap gate).pushAll (syscallWords (process.trap gate).registers) := by
  obtain ⟨esp, same⟩ := (process.trap gate).pusha_registers
  have ebx : (process.trap gate).pusha.registers.ebx = (process.trap gate).registers.ebx := by
    rw [same]
  have ecx : (process.trap gate).pusha.registers.ecx = (process.trap gate).registers.ecx := by
    rw [same]
  have edx : (process.trap gate).pusha.registers.edx = (process.trap gate).registers.edx := by
    rw [same]
  rw [syscallWrapper, ebx, ecx, edx]
  simp only [syscallWords, savedWords, List.cons_append, List.nil_append, Cpu.pushAll, Cpu.pusha]

theorem syscallWrapper_holds (process : Cpu) (gate : Gate) :
    Holds (syscallWrapper process gate).memory (syscallWrapper process gate).registers.esp
      (syscallWords (process.trap gate).registers ++ process.frame) := by
  have length := process.frame_length
  have trapped : Holds (process.trap gate).memory (process.trap gate).registers.esp process.frame :=
    process.interrupt_holds gate
  rw [syscallWrapper_eq]
  refine Cpu.pushAll_holds _ _ trapped ?_
  rw [syscallWords_length]
  omega

theorem syscallWrapper_saved (process : Cpu) (gate : Gate) :
    Holds (syscallWrapper process gate).memory ((syscallWrapper process gate).registers.esp + 12)
      (savedWords (process.trap gate).registers ++ process.frame) := by
  have holds := syscallWrapper_holds process gate
  rw [syscallWords, List.append_assoc] at holds
  exact (holds_append.mp holds).2

theorem syscallWrapper_esp (process : Cpu) (gate : Gate) :
    (syscallWrapper process gate).registers.esp + 44 = (process.trap gate).registers.esp := by
  rw [syscallWrapper_eq, Cpu.pushAll_esp, syscallWords_length]
  exact BitVec.sub_add_cancel _ _

/-- The way out of the handlers for a stack that still has what the way in put there; EAX is
what is loaded last. -/
theorem leaves_with (cpu : Cpu) (loaded : Word)
    (stack : cpu.registers.esp + 32 = (process.trap gate).registers.esp)
    (holds : Holds cpu.memory cpu.registers.esp
      (savedWords (process.trap gate).registers ++ process.frame)) :
    (Cpu.iret { cpu.popa with registers := { cpu.popa.registers with eax := loaded } }).registers =
      { process.registers with eax := loaded } := by
  obtain ⟨saved, framed⟩ := holds_append.mp holds
  have popped := Cpu.popa_of_holds stack saved
  obtain ⟨esp, entry⟩ := trap_registers process gate
  let last : Cpu := { cpu.popa with registers := { cpu.popa.registers with eax := loaded } }
  have stackBack : last.registers.esp = (process.interrupt gate).registers.esp := stack
  have framedBack : Holds last.memory last.registers.esp process.frame := by
    change Holds cpu.memory (cpu.registers.esp + 32) process.frame
    exact framed
  have back := Cpu.iret_of_holds stackBack framedBack
  refine back.trans ?_
  change { cpu.popa.registers with
    eax := loaded
    eip := process.registers.eip
    eflags := process.registers.eflags
    esp := process.registers.esp } = _
  rw [popped, entry]

theorem syscallDone_leaves (stack : cpu.registers.esp + 44 = (process.trap gate).registers.esp)
    (saved : Holds cpu.memory (cpu.registers.esp + 12)
      (savedWords (process.trap gate).registers ++ process.frame)) :
    (syscallDone cpu).registers = { process.registers with eax := -1 } := by
  refine leaves_with (popArguments cpu) (-1) ?_ saved
  rw [← stack]
  exact BitVec.add_assoc ..

/-- A number that is no system call. -/
theorem syscallDone_registers (process : Cpu) (gate : Gate) :
    (syscallDone (syscallWrapper process gate)).registers =
      { process.registers with eax := -1 } :=
  syscallDone_leaves (syscallWrapper_esp process gate) (syscallWrapper_saved process gate)

/-- A handler that returns and leaves the stack from the saved registers on. -/
structure ReturnsFrom (process : Cpu) (gate : Gate) (returnValue : Word) (returning : Cpu) :
    Prop where
  stack : returning.registers.esp = (syscallWrapper process gate).registers.esp
  kept : SameWords returning.memory (syscallWrapper process gate).memory
    (returning.registers.esp + 12) (8 + process.frame.length)
  apart : ∀ i < 8 + process.frame.length,
    returning.registers.esp + 12 + BitVec.ofNat 32 (4 * i) ≠ returnValue

theorem syscallReturn_registers (returns : ReturnsFrom process gate returnValue returning) :
    (syscallReturn returnValue returning).registers =
      { process.registers with eax := returning.registers.eax } := by
  have above := syscallWrapper_saved process gate
  rw [← returns.stack] at above
  let stored : Cpu := { popArguments returning with
    memory := Function.update returning.memory returnValue returning.registers.eax }
  have kept : SameWords stored.memory (syscallWrapper process gate).memory
      (returning.registers.esp + 12)
      (savedWords (process.trap gate).registers ++ process.frame).length := by
    rw [List.length_append]
    exact SameWords.store returns.kept returns.apart
  have bottom : stored.registers.esp + 32 = (process.trap gate).registers.esp := by
    rw [← syscallWrapper_esp, ← returns.stack]
    exact BitVec.add_assoc ..
  have loaded : stored.popa.memory returnValue = returning.registers.eax :=
    Function.update_self ..
  have ends : syscallReturn returnValue returning = Cpu.iret { stored.popa with
      registers := { stored.popa.registers with eax := stored.popa.memory returnValue } } := rfl
  rw [ends, leaves_with stored _ bottom (above.congr kept), loaded]

theorem syscallReturn_memory (returnValue : Word) (returning : Cpu) :
    (syscallReturn returnValue returning).memory =
      Function.update returning.memory returnValue returning.registers.eax :=
  iret_memory _

theorem syscallDone_memory (cpu : Cpu) : (syscallDone cpu).memory = cpu.memory :=
  iret_memory _

/-- The registers at the INT, by what the caller of the stub has. -/
theorem doCall_registers (number resume : Word) (cpu : Cpu) :
    (doCall number resume cpu).registers = { cpu.registers with
      eax := number
      ebx := cpu.word 1
      ecx := cpu.word 2
      edx := cpu.word 3
      esp := cpu.registers.esp - 4
      eip := resume } := by
  have ebx := push_word cpu cpu.registers.ebx (i := 1) (by decide)
  have ecx := push_word cpu cpu.registers.ebx (i := 2) (by decide)
  have edx := push_word cpu cpu.registers.ebx (i := 3) (by decide)
  simp only [doCall, ebx, ecx, edx]
  rfl

theorem doCall_word_zero (number resume : Word) (cpu : Cpu) :
    (doCall number resume cpu).word 0 = cpu.registers.ebx :=
  push_word_zero cpu _

theorem doCall_word_one (number resume : Word) (cpu : Cpu) :
    (doCall number resume cpu).word 1 = cpu.word 0 :=
  push_word cpu _ (by decide)

theorem doCallReturn_eq (back : Cpu) : (doCallReturn back).registers =
    { back.registers with
      ebx := back.word 0
      eip := back.word 1
      esp := back.registers.esp + 4 + 4 } := by
  have second : back.registers.esp + 4 + BitVec.ofNat 32 (4 * 0) =
      back.registers.esp + BitVec.ofNat 32 (4 * 1) := (next_word _ 0).symm
  simp only [doCallReturn, Cpu.word, second]

theorem doCallReturn_registers {back : Cpu} {value : Word}
    (registers : back.registers =
      { (doCall number resume cpu).registers with eax := value })
    (own : SameWords back.memory (doCall number resume cpu).memory
      (doCall number resume cpu).registers.esp 2) :
    (doCallReturn back).registers = { cpu.registers with
      eax := value
      ecx := cpu.word 2
      edx := cpu.word 3
      esp := cpu.registers.esp + 4
      eip := cpu.word 0 } := by
  have esp : back.registers.esp = (doCall number resume cpu).registers.esp := by rw [registers]
  have saved : back.word 0 = cpu.registers.ebx := by
    rw [Cpu.word, esp, own 0 (by decide)]
    exact doCall_word_zero number resume cpu
  have address : back.word 1 = cpu.word 0 := by
    rw [Cpu.word, esp, own 1 (by decide)]
    exact doCall_word_one number resume cpu
  have stack : back.registers.esp + 4 = cpu.registers.esp := by
    rw [esp, doCall_registers, BitVec.sub_add_cancel]
  rw [doCallReturn_eq, saved, address, stack, registers, doCall_registers]

theorem syscallArray_number {handler : SyscallHandler} (range : number.toNat ≤ 8)
    (found : (syscallArray[number.toNat]?).join = some handler) : number = handler.number := by
  apply BitVec.eq_of_toNat_eq
  generalize number.toNat = index at range found
  interval_cases index <;> cases found <;> rfl

/-- Exactly the eight numbers get anywhere, though the comparisons are signed. -/
theorem syscallDispatch_iff {handler : SyscallHandler} :
    syscallDispatch number = some handler ↔ number = handler.number := by
  constructor
  · intro dispatched
    rw [syscallDispatch] at dispatched
    split at dispatched
    · cases dispatched
    · rename_i positive
      split at dispatched
      · cases dispatched
      · rename_i small
        have range : number.toNat ≤ 8 := by
          have sign := BitVec.toInt_eq_toNat_cond number
          have bound := number.isLt
          split at sign <;> omega
        exact syscallArray_number range dispatched
  · rintro rfl
    cases handler <;> rfl

/-- A call of a library function on a stack whose first word is where it returns to. -/
structure CallLinks (cpu : Cpu) (gate : Gate) (number resume returnValue : Word) : Prop where
  dispatched : ∀ handler, syscallDispatch (doCall number resume cpu).registers.eax = some handler ↔
    number = handler.number
  /-- The handler finds the arguments of the library function where a C function has them, and
  runs with the interrupt flag of the program. -/
  arguments : ∀ handler next, ∀ i < 3,
    (callHandler handler next (syscallWrapper (doCall number resume cpu) gate)).word (i + 1) =
      cpu.word (i + 1)
  interruptible : (syscallWrapper (doCall number resume cpu) gate).registers.eflags =
    cpu.registers.eflags
  /-- A handler that leaves the two stacks alone returns its value to the caller. -/
  returned : ∀ returning, ReturnsFrom (doCall number resume cpu) gate returnValue returning →
    SameWords returning.memory (doCall number resume cpu).memory (cpu.registers.esp - 4) 2 →
    (∀ i < 2, cpu.registers.esp - 4 + BitVec.ofNat 32 (4 * i) ≠ returnValue) →
    (doCallReturn (syscallReturn returnValue returning)).registers = { cpu.registers with
      eax := returning.registers.eax
      ecx := cpu.word 2
      edx := cpu.word 3
      esp := cpu.registers.esp + 4
      eip := cpu.word 0 }
  /-- A number that no handler has returns -1, on a stack apart from the kernel's. -/
  refused : SameWords (syscallWrapper (doCall number resume cpu) gate).memory
      (doCall number resume cpu).memory (cpu.registers.esp - 4) 2 →
    (doCallReturn (syscallDone (syscallWrapper (doCall number resume cpu) gate))).registers =
      { cpu.registers with
        eax := -1
        ecx := cpu.word 2
        edx := cpu.word 3
        esp := cpu.registers.esp + 4
        eip := cpu.word 0 }

theorem syscallWrapper_registers (process : Cpu) (gate : Gate) : ∃ esp,
    (syscallWrapper process gate).registers = { process.registers with esp, eip := gate.eip } := by
  obtain ⟨esp, pushed⟩ := Cpu.pushAll_registers (process.trap gate)
    (syscallWords (process.trap gate).registers)
  obtain ⟨_, entry⟩ := trap_registers process gate
  exact ⟨esp, by rw [syscallWrapper_eq, pushed, entry]⟩

theorem syscallWrapper_argument (process : Cpu) (gate : Gate) {i : Nat} {word : Word}
    (argument : [process.registers.ebx, process.registers.ecx, process.registers.edx][i]? =
      some word) : (syscallWrapper process gate).word i = word := by
  obtain ⟨_, entry⟩ := trap_registers process gate
  have holds := syscallWrapper_holds process gate
  rw [syscallWords, List.append_assoc, entry] at holds
  exact (holds_append.mp holds).1.get argument

/-- Every call of every library function. -/
theorem system_calls_link (cpu : Cpu) (gate : Gate) (number resume returnValue : Word) :
    CallLinks cpu gate number resume returnValue where
  dispatched handler := by
    rw [doCall_registers]
    exact syscallDispatch_iff
  arguments handler next i inside := by
    rw [callHandler_word _ _ _ (by omega)]
    apply syscallWrapper_argument
    rw [doCall_registers]
    interval_cases i <;> rfl
  interruptible := by
    obtain ⟨_, entry⟩ := syscallWrapper_registers (doCall number resume cpu) gate
    rw [entry, doCall_registers]
  returned returning returns own apart := by
    have stack : (doCall number resume cpu).registers.esp = cpu.registers.esp - 4 := by
      rw [doCall_registers]
    refine doCallReturn_registers (syscallReturn_registers returns) ?_
    rw [syscallReturn_memory, stack]
    exact SameWords.store own apart
  refused own := by
    have stack : (doCall number resume cpu).registers.esp = cpu.registers.esp - 4 := by
      rw [doCall_registers]
    refine doCallReturn_registers (syscallDone_registers _ gate) ?_
    rw [syscallDone_memory, stack]
    exact own

end Ece391
