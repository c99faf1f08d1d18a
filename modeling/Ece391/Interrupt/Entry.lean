import Ece391.Interrupt.Machine
import Ece391.SystemCall.Linkage

namespace Ece391

open Library

/-! # The way into a handler, instruction by instruction

`syscall_wrapper` pushes the arguments and compares the call number while
interrupts are enabled.  Until it is used a value lies in its register only,
and the registers in use before each instruction are listed in `live`.
-/

/-- The registers that pass a system call. -/
inductive CallRegister where
  | eax
  | ebx
  | ecx
  | edx
deriving DecidableEq, Repr

abbrev CallRegisters := CallRegister → Word

/-- What the memory of a caller holds where the arguments of a call may point. -/
structure CallMemory where
  string : Word → CString
  buffer : Word → Option (Nat → Byte)
  frame : CallFrame
  /-- What `write`, `getargs` or `vidmap` returns. -/
  answer : SyscallHandler → CallRegisters → Int

/-- What a handler is asked to do. -/
def SyscallHandler.request (memory : CallMemory) (arguments : CallRegisters) :
    SyscallHandler → Request
  | .halt => .halt (UInt8.ofNat (arguments .ebx).toNat)
  | .execute =>
      .execute (if arguments .ebx = 0 then none else some (memory.string (arguments .ebx)))
        memory.frame
  | .read =>
      .service (.sysRead (arguments .ebx).toInt (memory.buffer (arguments .ecx))
        (arguments .edx).toInt)
  | .open => .service (.sysOpen (memory.string (arguments .ebx)))
  | .close => .service (.sysClose (arguments .ebx).toInt)
  | .write => .service (.other (memory.answer .write arguments))
  | .getargs => .service (.other (memory.answer .getargs arguments))
  | .vidmap => .service (.other (memory.answer .vidmap arguments))

/-- What the program asks for that has these registers at its INT. -/
def requestOf (memory : CallMemory) (registers : CallRegisters) : Request :=
  match syscallDispatch (registers .eax) with
  | none => .invalid
  | some handler => handler.request memory registers

/-- The instructions of `syscall_wrapper` up to the handler.  A comparison
leaves its result in EFLAGS, which the interrupt saves. -/
inductive EntryStage where
  | pusha
  | pushEdx
  | pushEcx
  | pushEbx
  | compareLow
  | jumpLow (less : Bool)
  | compareHigh
  | jumpHigh (greater : Bool)
  | callHandler
  /-- The five instructions at `done` before IRET, with the number still ahead of the last. -/
  | done (ahead : Nat)

/-- The registers that are still needed before an instruction. -/
def EntryStage.live : EntryStage → List CallRegister
  | .pusha => [.eax, .ebx, .ecx, .edx]
  | .pushEdx => [.eax, .ebx, .ecx, .edx]
  | .pushEcx => [.eax, .ebx, .ecx]
  | .pushEbx => [.eax, .ebx]
  | .compareLow => [.eax]
  | .jumpLow less => if less then [] else [.eax]
  | .compareHigh => [.eax]
  | .jumpHigh greater => if greater then [] else [.eax]
  | .callHandler => [.eax]
  | .done _ => []

/-- A system call on its way to the handler.  `asked` are the registers at INT,
a record that no instruction reads. -/
structure Entry where
  asked : CallRegisters
  memory : CallMemory
  registers : CallRegisters
  /-- What `pushl` has put on the kernel stack, newest first. -/
  stack : List Word
  stage : EntryStage

inductive EntryStep where
  | goes (entry : Entry)
  | calls (request : Request)
  /-- A jump to no handler. -/
  | lost

namespace Entry

/-- The handler finds its arguments on the stack. -/
def arguments (entry : Entry) : CallRegisters
  | .eax => entry.registers .eax
  | .ebx => entry.stack[0]?.getD 0
  | .ecx => entry.stack[1]?.getD 0
  | .edx => entry.stack[2]?.getD 0

def push (entry : Entry) (register : CallRegister) (stage : EntryStage) : EntryStep :=
  .goes { entry with stack := entry.registers register :: entry.stack, stage }

/-- The next instruction. -/
def next (entry : Entry) : EntryStep :=
  match entry.stage with
  | .pusha => .goes { entry with stage := .pushEdx }
  | .pushEdx => entry.push .edx .pushEcx
  | .pushEcx => entry.push .ecx .pushEbx
  | .pushEbx => entry.push .ebx .compareLow
  | .compareLow =>
      .goes { entry with stage := .jumpLow (decide ((entry.registers .eax).toInt < 1)) }
  | .jumpLow less => .goes { entry with stage := if less then .done 4 else .compareHigh }
  | .compareHigh =>
      .goes { entry with stage := .jumpHigh (decide (8 < (entry.registers .eax).toInt)) }
  | .jumpHigh greater => .goes { entry with stage := if greater then .done 4 else .callHandler }
  | .callHandler =>
      match (syscallArray[(entry.registers .eax).toNat]?).join with
      | some handler => .calls (handler.request entry.memory entry.arguments)
      | none => .lost
  | .done 0 => .calls .invalid
  | .done (ahead + 1) => .goes { entry with stage := .done ahead }

/-- Another terminal has had the processor: `int_ret_helper` restores no register. -/
def spill (entry : Entry) (scratch : CallRegisters) : Entry := { entry with registers := scratch }

/-- The registers still needed are the ones that `scratch` holds. -/
def Keeps (entry : Entry) (scratch : CallRegisters) : Prop :=
  ∀ register ∈ entry.stage.live, scratch register = entry.registers register

end Entry

/-- What is on the stack before an instruction. -/
def EntryStage.pushed : EntryStage → List CallRegister
  | .pusha => []
  | .pushEdx => []
  | .pushEcx => [.edx]
  | .pushEbx => [.ecx, .edx]
  | _ => [.ebx, .ecx, .edx]

/-- What the comparisons before an instruction have found. -/
def EntryStage.Found (number : Word) : EntryStage → Prop
  | .jumpLow less => less = decide (number.toInt < 1)
  | .compareHigh => ¬ number.toInt < 1
  | .jumpHigh greater => ¬ number.toInt < 1 ∧ greater = decide (8 < number.toInt)
  | .callHandler => ¬ number.toInt < 1 ∧ ¬ 8 < number.toInt
  | .done _ => number.toInt < 1 ∨ 8 < number.toInt
  | _ => True

/-- Nothing of the call has been lost yet. -/
structure Entry.Intact (entry : Entry) : Prop where
  registers : ∀ register ∈ entry.stage.live, entry.registers register = entry.asked register
  stack : entry.stack = entry.stage.pushed.map entry.asked
  found : entry.stage.Found (entry.asked .eax)

theorem requestOf_of_outside {memory : CallMemory} {registers : CallRegisters}
    (outside : (registers .eax).toInt < 1 ∨ 8 < (registers .eax).toInt) :
    requestOf memory registers = .invalid := by
  have nowhere : syscallDispatch (registers .eax) = none := by
    rw [syscallDispatch]
    rcases outside with low | high
    · rw [if_pos low]
    · rw [if_neg (by omega), if_pos high]
  rw [requestOf, nowhere]

theorem syscallArray_inside {number : Word} (low : ¬ number.toInt < 1) (high : ¬ 8 < number.toInt) :
    ∃ handler, (syscallArray[number.toNat]?).join = some handler ∧
      syscallDispatch number = some handler := by
  have range : 1 ≤ number.toNat ∧ number.toNat ≤ 8 := by
    have sign := BitVec.toInt_eq_toNat_cond number
    have bound := number.isLt
    split at sign <;> omega
  have dispatched : syscallDispatch number = (syscallArray[number.toNat]?).join := by
    rw [syscallDispatch, if_neg low, if_neg high]
  rw [dispatched]
  obtain ⟨least, most⟩ := range
  generalize number.toNat = index at least most
  interval_cases index <;> exact ⟨_, rfl, rfl⟩

namespace Entry

variable {entry following : Entry}

theorem Intact.start (registers : CallRegisters) (memory : CallMemory) :
    Intact ⟨registers, memory, registers, [], .pusha⟩ := ⟨fun _ _ => rfl, rfl, trivial⟩

theorem Intact.spill {scratch : CallRegisters} (intact : entry.Intact) (keeps : entry.Keeps scratch) :
    (entry.spill scratch).Intact where
  registers register live := (keeps register live).trans (intact.registers register live)
  stack := intact.stack
  found := intact.found

theorem Intact.arguments (intact : entry.Intact) (stage : entry.stage = .callHandler) :
    entry.arguments = entry.asked := by
  have stack := intact.stack
  have registers := intact.registers
  rw [stage] at stack registers
  funext register
  cases register with
  | eax => exact registers .eax (List.mem_singleton.mpr rfl)
  | _ => simp only [Entry.arguments, stack]; rfl

/-- A `pushl` of a register that is still needed. -/
theorem Intact.push {register : CallRegister} {stage : EntryStage} (intact : entry.Intact)
    (goes : entry.push register stage = .goes following) (needed : register ∈ entry.stage.live)
    (fewer : stage.live ⊆ entry.stage.live)
    (pushed : stage.pushed = register :: entry.stage.pushed)
    (found : stage.Found (entry.asked .eax)) :
    following.Intact ∧ following.asked = entry.asked ∧ following.memory = entry.memory := by
  cases goes
  refine ⟨⟨fun other live => intact.registers other (fewer live), ?_, found⟩, rfl, rfl⟩
  simp only [pushed, List.map_cons, intact.stack, intact.registers register needed]

/-- A comparison or a jump. -/
theorem Intact.at {stage : EntryStage} (intact : entry.Intact)
    (goes : EntryStep.goes { entry with stage } = .goes following)
    (fewer : stage.live ⊆ entry.stage.live) (pushed : stage.pushed = entry.stage.pushed)
    (found : stage.Found (entry.asked .eax)) :
    following.Intact ∧ following.asked = entry.asked ∧ following.memory = entry.memory := by
  cases goes
  refine ⟨⟨fun other live => intact.registers other (fewer live), ?_, found⟩, rfl, rfl⟩
  simp only [pushed, intact.stack]

/-- An instruction loses nothing. -/
theorem Intact.next (intact : entry.Intact) (goes : entry.next = .goes following) :
    following.Intact ∧ following.asked = entry.asked ∧ following.memory = entry.memory := by
  have found := intact.found
  have eax : .eax ∈ entry.stage.live → entry.registers .eax = entry.asked .eax :=
    intact.registers .eax
  cases here : entry.stage with
  | pusha =>
      simp only [Entry.next, here] at goes
      exact intact.at goes (by simp [here, EntryStage.live]) (by rw [here]; rfl) trivial
  | pushEdx =>
      simp only [Entry.next, here] at goes
      exact intact.push goes (by simp [here, EntryStage.live]) (by simp [here, EntryStage.live])
        (by rw [here]; rfl) trivial
  | pushEcx =>
      simp only [Entry.next, here] at goes
      exact intact.push goes (by simp [here, EntryStage.live]) (by simp [here, EntryStage.live])
        (by rw [here]; rfl) trivial
  | pushEbx =>
      simp only [Entry.next, here] at goes
      exact intact.push goes (by simp [here, EntryStage.live]) (by simp [here, EntryStage.live])
        (by rw [here]; rfl) trivial
  | compareLow =>
      simp only [Entry.next, here] at goes
      rw [eax (by simp [here, EntryStage.live])] at goes
      refine intact.at goes ?_ (by rw [here]; rfl) rfl
      rw [here]
      simp only [EntryStage.live]
      split <;> simp
  | compareHigh =>
      simp only [Entry.next, here] at goes
      rw [eax (by simp [here, EntryStage.live])] at goes
      rw [here] at found
      refine intact.at goes ?_ (by rw [here]; rfl) ⟨found, rfl⟩
      rw [here]
      simp only [EntryStage.live]
      split <;> simp
  | jumpLow less =>
      simp only [Entry.next, here] at goes
      rw [here] at found
      cases less with
      | true =>
          exact intact.at goes (by simp [EntryStage.live]) (by rw [here]; rfl)
            (.inl (of_decide_eq_true found.symm))
      | false =>
          exact intact.at goes (by simp [here, EntryStage.live]) (by rw [here]; rfl)
            (of_decide_eq_false found.symm)
  | jumpHigh greater =>
      simp only [Entry.next, here] at goes
      rw [here] at found
      obtain ⟨low, found⟩ := found
      cases greater with
      | true =>
          exact intact.at goes (by simp [EntryStage.live]) (by rw [here]; rfl)
            (.inr (of_decide_eq_true found.symm))
      | false =>
          exact intact.at goes (by simp [here, EntryStage.live]) (by rw [here]; rfl)
            ⟨low, of_decide_eq_false found.symm⟩
  | callHandler =>
      simp only [Entry.next, here] at goes
      split at goes <;> cases goes
  | done ahead =>
      rw [here] at found
      cases ahead with
      | zero =>
          simp only [Entry.next, here] at goes
          cases goes
      | succ ahead =>
          simp only [Entry.next, here] at goes
          exact intact.at goes (by simp [EntryStage.live]) (by rw [here]; rfl) found

/-- The handler that is found is the one of the number. -/
theorem Intact.handler (intact : entry.Intact) (stage : entry.stage = .callHandler) :
    ∃ handler, entry.next = .calls (handler.request entry.memory entry.asked) ∧
      syscallDispatch (entry.asked .eax) = some handler := by
  have found := intact.found
  rw [stage] at found
  have eax : entry.registers .eax = entry.asked .eax :=
    intact.registers .eax (by simp [stage, EntryStage.live])
  obtain ⟨handler, inArray, dispatched⟩ := syscallArray_inside found.1 found.2
  refine ⟨handler, ?_, dispatched⟩
  simp only [Entry.next, stage, eax, inArray, intact.arguments stage]

/-- The handler is called that the program asked for, with its arguments. -/
theorem Intact.calls {request : Request} (intact : entry.Intact)
    (calls : entry.next = .calls request) : request = requestOf entry.memory entry.asked := by
  cases here : entry.stage with
  | callHandler =>
      obtain ⟨handler, next, dispatched⟩ := intact.handler here
      rw [next] at calls
      cases calls
      simp only [requestOf, dispatched]
  | done ahead =>
      have found := intact.found
      rw [here] at found
      cases ahead with
      | zero =>
          simp only [Entry.next, here] at calls
          cases calls
          exact (requestOf_of_outside found).symm
      | succ ahead =>
          simp only [Entry.next, here] at calls
          cases calls
  | _ =>
      simp only [Entry.next, here, Entry.push] at calls
      cases calls

theorem Intact.not_lost (intact : entry.Intact) : entry.next ≠ .lost := by
  intro lost
  cases here : entry.stage with
  | callHandler =>
      obtain ⟨handler, next, _⟩ := intact.handler here
      rw [next] at lost
      cases lost
  | done ahead =>
      cases ahead with
      | zero | succ =>
          simp only [Entry.next, here] at lost
          cases lost
  | _ =>
      simp only [Entry.next, here, Entry.push] at lost
      cases lost

end Entry

end Ece391
