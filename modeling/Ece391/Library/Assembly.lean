import Mathlib.Logic.Relation
import Ece391.Library.Transfer

namespace Ece391.Library.Assembly

universe u

/-! # Assembly with x86 string instructions

The registers and instructions that routines over blocks of bytes use, in AT&T
order.  Segments are flat, and addresses count modulo 2^32.
-/

inductive Register where
  | eax | ecx | edx | esi | edi
deriving DecidableEq

inductive Operand where
  | immediate (value : BitVec 32)
  | register (register : Register)
deriving DecidableEq

/-- A line of code.  `%al`, `%ds` and `%es` are fixed operands of their
instructions; the flags other than ZF and DF are not read. -/
inductive Line (Label : Type u) where
  | label (name : Label)
  | testl (source : Operand) (target : Register)
  | jz (target : Label)
  | jmp (target : Label)
  | movbFrom (pointer : Register)
  | movbTo (pointer : Register)
  | movwFromDs (target : Register)
  | movwToEs (source : Register)
  | movl (source target : Register)
  | addl (value : BitVec 32) (target : Register)
  | subl (value : BitVec 32) (target : Register)
  | shrl (count : Nat) (target : Register)
  | andl (value : BitVec 32) (target : Register)
  | cld
  | repStosl
  | repMovsl

abbrev Bytes := BitVec 32 → BitVec 8

structure Processor where
  eax : BitVec 32
  ecx : BitVec 32
  edx : BitVec 32
  esi : BitVec 32
  edi : BitVec 32
  ds : BitVec 16
  es : BitVec 16
  zf : Bool
  df : Bool
  /-- The index of the line that is next. -/
  eip : Nat
  memory : Bytes

/-- The little-endian word at an address. -/
def loadWord (memory : Bytes) (address : BitVec 32) : BitVec 32 :=
  memory (address + 3) ++ memory (address + 2) ++ memory (address + 1) ++ memory address

def storeWord (memory : Bytes) (address value : BitVec 32) : Bytes :=
  let memory := Function.update memory address (value.extractLsb' 0 8)
  let memory := Function.update memory (address + 1) (value.extractLsb' 8 8)
  let memory := Function.update memory (address + 2) (value.extractLsb' 16 8)
  Function.update memory (address + 3) (value.extractLsb' 24 8)

namespace Processor

def get (p : Processor) : Register → BitVec 32
  | .eax => p.eax
  | .ecx => p.ecx
  | .edx => p.edx
  | .esi => p.esi
  | .edi => p.edi

def set (p : Processor) (value : BitVec 32) : Register → Processor
  | .eax => { p with eax := value }
  | .ecx => { p with ecx := value }
  | .edx => { p with edx := value }
  | .esi => { p with esi := value }
  | .edi => { p with edi := value }

def operand (p : Processor) : Operand → BitVec 32
  | .immediate value => value
  | .register register => p.get register

/-- The result of an arithmetic instruction, with ZF as it says. -/
def result (p : Processor) (value : BitVec 32) (target : Register) : Processor :=
  { p.set value target with zf := value = 0 }

/-- `%al` -/
def al (p : Processor) : BitVec 8 := p.eax.extractLsb' 0 8

/-- The low `w` bits of a register replaced. -/
def low {w : Nat} (whole : BitVec 32) (value : BitVec w) : BitVec 32 :=
  (whole >>> w) <<< w ||| value.setWidth 32

def next (p : Processor) : Processor := { p with eip := p.eip + 1 }

/-- How a string instruction moves its pointers. -/
def stride (p : Processor) : BitVec 32 := if p.df then -4 else 4

end Processor

variable {Label : Type u} [DecidableEq Label]

/-- The index of a label. -/
def position (name : Label) : List (Line Label) → Option Nat
  | [] => none
  | .label other :: rest => if other = name then some 0 else (position name rest).map (· + 1)
  | _ :: rest => (position name rest).map (· + 1)

/-- One line, and of a repeated instruction one turn; `none` for a jump to a
label that does not exist. -/
def execute (code : List (Line Label)) (p : Processor) : Line Label → Option Processor
  | .label _ => some p.next
  | .testl source target => some { p with zf := p.operand source &&& p.get target = 0 }.next
  | .jz target =>
      if p.zf then (position target code).map fun eip => { p with eip } else some p.next
  | .jmp target => (position target code).map fun eip => { p with eip }
  | .movbFrom pointer =>
      some { p with eax := Processor.low p.eax (p.memory (p.get pointer)) }.next
  | .movbTo pointer =>
      some { p with memory := Function.update p.memory (p.get pointer) p.al }.next
  | .movwFromDs target => some (p.set (Processor.low (p.get target) p.ds) target).next
  | .movwToEs source => some { p with es := (p.get source).extractLsb' 0 16 }.next
  | .movl source target => some (p.set (p.get source) target).next
  | .addl value target => some (p.result (p.get target + value) target).next
  | .subl value target => some (p.result (p.get target - value) target).next
  | .shrl count target => some (p.result (p.get target >>> count) target).next
  | .andl value target => some (p.result (p.get target &&& value) target).next
  | .cld => some { p with df := false }.next
  | .repStosl =>
      if p.ecx = 0 then some p.next
      else some
        { p with
          memory := storeWord p.memory p.edi p.eax
          edi := p.edi + p.stride
          ecx := p.ecx - 1 }
  | .repMovsl =>
      if p.ecx = 0 then some p.next
      else some
        { p with
          memory := storeWord p.memory p.edi (loadWord p.memory p.esi)
          esi := p.esi + p.stride
          edi := p.edi + p.stride
          ecx := p.ecx - 1 }

/-- Behind the last line there is no step. -/
def step (code : List (Line Label)) (p : Processor) : Option Processor :=
  code[p.eip]?.bind (execute code p)

/-- A number of steps. -/
def steps (code : List (Line Label)) : Nat → Processor → Option Processor
  | 0, p => some p
  | count + 1, p => (step code p).bind (steps code count)

/-- The run from one state comes to the other. -/
def Reaches (code : List (Line Label)) : Processor → Processor → Prop :=
  Relation.ReflTransGen fun before after => step code before = some after

variable {code : List (Line Label)} {p q : Processor} {source : Operand} {register : Register}
  {target name : Label} {eip : Nat}

/-- Lines without a jump run by computing. -/
theorem Reaches.of_steps (count : Nat) (taken : steps code count p = some q) :
    Reaches code p q := by
  induction count generalizing p with
  | zero =>
      cases taken
      exact .refl
  | succ count ih =>
      obtain ⟨middle, first, rest⟩ := Option.bind_eq_some_iff.mp taken
      exact .head first (ih rest)

theorem Reaches.trans {r : Processor} (first : Reaches code p q) (rest : Reaches code q r) :
    Reaches code p r :=
  Relation.ReflTransGen.trans first rest

theorem Reaches.line {line : Line Label} (here : code[p.eip]? = some line)
    (executed : execute code p line = some q) : Reaches code p q := by
  apply Relation.ReflTransGen.single
  rw [step, here]
  exact executed

theorem Reaches.label (line : code[p.eip]? = some (.label name)) : Reaches code p p.next :=
  Reaches.line line rfl

/-- A test and the jump behind it, which is not taken. -/
theorem Reaches.passes (test : code[p.eip]? = some (.testl source register))
    (jump : code[p.eip + 1]? = some (.jz target))
    (nonzero : p.operand source &&& p.get register ≠ 0) :
    Reaches code p { p with zf := false, eip := p.eip + 2 } := by
  apply Reaches.of_steps 2
  have tested : step code p = some { p with zf := false, eip := p.eip + 1 } := by
    rw [step, test]
    simp only [Option.bind_some, execute, decide_eq_false nonzero]
    rfl
  rw [steps, tested, Option.bind_some, steps, step, jump]
  rfl

/-- The jump is taken. -/
theorem Reaches.jumps (test : code[p.eip]? = some (.testl source register))
    (jump : code[p.eip + 1]? = some (.jz target))
    (zero : p.operand source &&& p.get register = 0) (found : position target code = some eip) :
    Reaches code p { p with zf := true, eip } := by
  apply Reaches.of_steps 2
  have tested : step code p = some { p with zf := true, eip := p.eip + 1 } := by
    rw [step, test]
    simp only [Option.bind_some, execute, decide_eq_true zero]
    rfl
  rw [steps, tested, Option.bind_some, steps, step, jump]
  simp only [Option.bind_some, execute, if_true, found]
  rfl

/-- A loop that counts a register down is left at its head. -/
theorem Reaches.exits (head : code[p.eip]? = some (.label name))
    (test : code[p.eip + 1]? = some (.testl (.register register) register))
    (jump : code[p.eip + 2]? = some (.jz target)) (zero : p.get register = 0)
    (found : position target code = some eip) (behind : code[eip]? = some (.label target)) :
    Reaches code p { p with zf := true, eip := eip + 1 } := by
  have counted : p.get register &&& p.get register = 0 := by rwa [BitVec.and_self]
  have tested : p.next.operand (.register register) &&& p.next.get register = 0 := by
    cases register <;> exact counted
  refine Reaches.trans (Reaches.label head) ?_
  refine Reaches.trans (Reaches.jumps test jump tested found) ?_
  exact Reaches.label behind

/-- The loop goes on behind its head. -/
theorem Reaches.continues (head : code[p.eip]? = some (.label name))
    (test : code[p.eip + 1]? = some (.testl (.register register) register))
    (jump : code[p.eip + 2]? = some (.jz target)) (nonzero : p.get register ≠ 0) :
    Reaches code p { p with zf := false, eip := p.eip + 3 } := by
  have counted : p.get register &&& p.get register ≠ 0 := by rwa [BitVec.and_self]
  have tested : p.next.operand (.register register) &&& p.next.get register ≠ 0 := by
    cases register <;> exact counted
  exact Reaches.trans (Reaches.label head) (Reaches.passes test jump tested)

theorem Reaches.stosl (line : code[p.eip]? = some .repStosl) (more : p.ecx ≠ 0) :
    Reaches code p
      { p with
        memory := storeWord p.memory p.edi p.eax
        edi := p.edi + p.stride
        ecx := p.ecx - 1 } :=
  Reaches.line line (if_neg more)

theorem Reaches.movsl (line : code[p.eip]? = some .repMovsl) (more : p.ecx ≠ 0) :
    Reaches code p
      { p with
        memory := storeWord p.memory p.edi (loadWord p.memory p.esi)
        esi := p.esi + p.stride
        edi := p.edi + p.stride
        ecx := p.ecx - 1 } :=
  Reaches.line line (if_neg more)

/-- A repeated instruction is over when the count is 0. -/
theorem Reaches.repeated
    (line : code[p.eip]? = some .repStosl ∨ code[p.eip]? = some .repMovsl) (none : p.ecx = 0) :
    Reaches code p p.next := by
  rcases line with stosl | movsl
  · exact Reaches.line stosl (if_pos none)
  · exact Reaches.line movsl (if_pos none)

/-- The bits that are not replaced do not count. -/
theorem extract_low {w : Nat} (whole : BitVec 32) (value : BitVec w) (narrow : w ≤ 32) :
    (Processor.low whole value).extractLsb' 0 w = value := by
  ext i inside
  have inWord : i < 32 := Nat.lt_of_lt_of_le inside narrow
  simp [Processor.low, inside, inWord]

/-- The bytes of a word that is loaded. -/
theorem loadWord_byte (memory : Bytes) (address : BitVec 32) {lane : Nat} (inside : lane < 4) :
    (loadWord memory address).extractLsb' (8 * lane) 8 = memory (address + BitVec.ofNat 32 lane) := by
  show @BitVec.extractLsb' (8 + 8 + 8 + 8) _ _ (memory (address + 3) ++ memory (address + 2) ++
    memory (address + 1) ++ memory address) = _
  have lanes : lane = 0 ∨ lane = 1 ∨ lane = 2 ∨ lane = 3 := by omega
  rcases lanes with rfl | rfl | rfl | rfl
  · rw [BitVec.extractLsb'_append_eq_right, BitVec.add_zero]
  · rw [BitVec.extractLsb'_append_eq_of_le (by decide), BitVec.extractLsb'_append_eq_right]
    rfl
  · rw [BitVec.extractLsb'_append_eq_of_le (by decide),
      BitVec.extractLsb'_append_eq_of_le (by decide), BitVec.extractLsb'_append_eq_right]
    rfl
  · rw [BitVec.extractLsb'_append_eq_of_le (by decide),
      BitVec.extractLsb'_append_eq_of_le (by decide), BitVec.extractLsb'_append_eq_left]
    rfl

variable {source memory : Bytes} {dest value : BitVec 32} {count : Nat}

theorem offset_add (dest : BitVec 32) (count lane : Nat) :
    dest + BitVec.ofNat 32 count + BitVec.ofNat 32 lane = dest + BitVec.ofNat 32 (count + lane) := by
  rw [BitVec.add_assoc, ← BitVec.ofNat_add]

/-- A word that is stored moves four bytes. -/
theorem storeWord_transfer (bounded : count + 4 ≤ 2 ^ 32)
    (bytes : ∀ lane < 4, value.extractLsb' (8 * lane) 8 = source (BitVec.ofNat 32 (count + lane))) :
    storeWord (transfer source memory dest count) (dest + BitVec.ofNat 32 count) value =
      transfer source memory dest (count + 4) := by
  have first := bytes 0 (by decide)
  have second := bytes 1 (by decide)
  have third := bytes 2 (by decide)
  have fourth := bytes 3 (by decide)
  rw [Nat.mul_zero, Nat.add_zero] at first
  rw [storeWord, first, second, third, fourth]
  show Function.update (Function.update (Function.update (Function.update _ _ _)
    (dest + BitVec.ofNat 32 count + BitVec.ofNat 32 1) _)
    (dest + BitVec.ofNat 32 count + BitVec.ofNat 32 2) _)
    (dest + BitVec.ofNat 32 count + BitVec.ofNat 32 3) _ = _
  rw [offset_add, offset_add, offset_add, transfer_succ (by omega), transfer_succ (by omega),
    transfer_succ (by omega), transfer_succ (by omega)]

end Ece391.Library.Assembly
