import Ece391.Library.BitFields

namespace Ece391.Library

/-! # Descriptors of a 32-bit x86 processor

What the processor reads from the eight bytes of an interrupt gate and of a
segment, how it takes the gate and what it lets be loaded.  The marks that a load
leaves in the descriptor (accessed, busy) are not kept.
-/

structure GateDescriptor where
  offset : Nat
  selector : Nat
  /-- Four bits, and above them the bit of code and data segments. -/
  kind : Nat
  dpl : Nat
  present : Nat
deriving DecidableEq, Repr

def decodeGate (value : Nat) : GateDescriptor where
  offset := bitField 0 16 value + 2 ^ 16 * bitField 48 16 value
  selector := bitField 16 16 value
  kind := bitField 40 5 value
  dpl := bitField 45 2 value
  present := bitField 47 1 value

/-- The gates of 32-bit handlers. -/
def INTERRUPT_GATE : Nat := 14
def TRAP_GATE : Nat := 15

inductive GateOutcome where
  /-- Control is at `offset` of the segment; an interrupt gate turns interrupts off. -/
  | enters (selector offset : Nat) (interruptsOff : Bool)
  | generalProtection
  | segmentNotPresent
  /-- A gate of 16 bits or of a task. -/
  | otherKind
deriving DecidableEq, Repr

/-- `software` is an INT instruction, which the privilege of the gate is for. -/
def takeGate (value : Nat) (software : Bool) (cpl : Nat) : GateOutcome :=
  let gate := decodeGate value
  if gate.kind < 5 ∨ 7 < gate.kind ∧ gate.kind < INTERRUPT_GATE ∨ TRAP_GATE < gate.kind then
    .generalProtection
  else if software = true ∧ gate.dpl < cpl then .generalProtection
  else if gate.present = 0 then .segmentNotPresent
  else if gate.kind = INTERRUPT_GATE then .enters gate.selector gate.offset true
  else if gate.kind = TRAP_GATE then .enters gate.selector gate.offset false
  else .otherKind

@[ext] structure SegmentDescriptor where
  base : Nat
  limit : Nat
  kind : Nat
  dpl : Nat
  present : Nat
  /-- The limit counts pages of 4 KB. -/
  granularity : Nat
deriving DecidableEq, Repr

def decodeSegment (value : Nat) : SegmentDescriptor where
  base := bitField 16 16 value + 2 ^ 16 * bitField 32 8 value + 2 ^ 24 * bitField 56 8 value
  limit := bitField 0 16 value + 2 ^ 16 * bitField 48 4 value
  kind := bitField 40 5 value
  dpl := bitField 45 2 value
  present := bitField 47 1 value
  granularity := bitField 55 1 value

namespace SegmentDescriptor

variable (segment : SegmentDescriptor)

def lastOffset : Nat :=
  if segment.granularity = 1 then segment.limit * 4096 + 4095 else segment.limit

/-- Where an offset lies, unless it is outside. -/
def linear (offset : Nat) : Option Nat :=
  if offset ≤ segment.lastOffset then some ((segment.base + offset) % 2 ^ 32) else none

/-- The segment is all of memory. -/
structure Flat : Prop where
  base : segment.base = 0
  lastOffset : segment.lastOffset = 2 ^ 32 - 1

theorem Flat.linear {segment : SegmentDescriptor} {offset : Nat} (flat : segment.Flat)
    (inside : offset < 2 ^ 32) : segment.linear offset = some offset := by
  have admitted : offset ≤ segment.lastOffset := by
    rw [flat.lastOffset]
    omega
  rw [SegmentDescriptor.linear, if_pos admitted, flat.base, Nat.zero_add, Nat.mod_eq_of_lt inside]

end SegmentDescriptor

inductive SegmentRegister where
  | code
  | stack
  | data
deriving DecidableEq, Repr

/-- Whether a program of privilege `cpl` may load the segment, when it asks for it with
privilege `rpl`.  For code this is a return, which does not gain privilege. -/
def SegmentDescriptor.Admits (segment : SegmentDescriptor) (rpl cpl : Nat) :
    SegmentRegister → Prop
  | .code => 24 ≤ segment.kind ∧ cpl ≤ rpl ∧
      (if segment.kind < 28 then segment.dpl = rpl else segment.dpl ≤ rpl)
  | .stack => 16 ≤ segment.kind ∧ segment.kind < 24 ∧ segment.kind / 2 % 2 = 1 ∧
      rpl = cpl ∧ segment.dpl = cpl
  | .data => 16 ≤ segment.kind ∧ (segment.kind < 24 ∨ segment.kind / 2 % 2 = 1) ∧
      (segment.kind < 28 → rpl ≤ segment.dpl ∧ cpl ≤ segment.dpl)

instance (segment : SegmentDescriptor) (rpl cpl : Nat) (register : SegmentRegister) :
    Decidable (segment.Admits rpl cpl register) :=
  match register with
  | .code => inferInstanceAs (Decidable (24 ≤ segment.kind ∧ cpl ≤ rpl ∧
      (if segment.kind < 28 then segment.dpl = rpl else segment.dpl ≤ rpl)))
  | .stack => inferInstanceAs (Decidable (16 ≤ segment.kind ∧ segment.kind < 24 ∧
      segment.kind / 2 % 2 = 1 ∧ rpl = cpl ∧ segment.dpl = cpl))
  | .data => inferInstanceAs (Decidable (16 ≤ segment.kind ∧
      (segment.kind < 24 ∨ segment.kind / 2 % 2 = 1) ∧
      (segment.kind < 28 → rpl ≤ segment.dpl ∧ cpl ≤ segment.dpl)))

inductive SegmentOutcome where
  | loads (segment : SegmentDescriptor)
  /-- A register of data may be unused. -/
  | unused
  | generalProtection
  | notPresent
deriving DecidableEq, Repr

/-- What a selector finds in the two tables, whose first entry is no segment. -/
def selected (global locals : List Nat) (selector : Nat) : Option SegmentDescriptor :=
  if selector / 4 % 2 = 1 then locals[selector / 8]?.map decodeSegment
  else global[selector / 8]?.map decodeSegment

def loadSegment (global locals : List Nat) (register : SegmentRegister) (selector cpl : Nat) :
    SegmentOutcome :=
  if selector / 4 = 0 then
    if register = .data then .unused else .generalProtection
  else
    match selected global locals selector with
    | none => .generalProtection
    | some segment =>
      if segment.Admits (selector % 4) cpl register then
        if segment.present = 0 then .notPresent else .loads segment
      else .generalProtection

/-- The kinds of system segments. -/
def LOCAL_TABLE : Nat := 2
def TASK_STATE : Nat := 9

/-- LLDT and LTR, which take the segment from the global table. -/
def loadSystem (global : List Nat) (kind selector : Nat) : SegmentOutcome :=
  if selector / 4 = 0 then
    if kind = LOCAL_TABLE then .unused else .generalProtection
  else if selector / 4 % 2 = 1 then .generalProtection
  else
    match global[selector / 8]?.map decodeSegment with
    | none => .generalProtection
    | some segment =>
      if segment.kind = kind then
        if segment.present = 0 then .notPresent else .loads segment
      else .generalProtection

theorem SegmentDescriptor.Admits.ofKind {segment : SegmentDescriptor} {rpl cpl : Nat}
    {register : SegmentRegister} (admits : segment.Admits rpl cpl register) : 16 ≤ segment.kind := by
  cases register with
  | code => exact Nat.le_trans (by decide) admits.1
  | stack => exact admits.1
  | data => exact admits.1

/-- No register but that of conforming code lets a program above its own privilege. -/
theorem SegmentDescriptor.Admits.level {segment : SegmentDescriptor} {rpl cpl : Nat}
    {register : SegmentRegister} (admits : segment.Admits rpl cpl register)
    (plain : segment.kind < 28) : cpl ≤ segment.dpl := by
  cases register with
  | code =>
      obtain ⟨_, asked, same⟩ := admits
      rw [if_pos plain] at same
      exact same ▸ asked
  | stack => exact Nat.le_of_eq admits.2.2.2.2.symm
  | data => exact (admits.2.2 plain).2

variable {global locals : List Nat} {register : SegmentRegister} {selector cpl : Nat}
  {segment : SegmentDescriptor}

theorem loadSystem_of {kind value : Nat} (named : selector / 4 ≠ 0 ∧ selector / 4 % 2 ≠ 1)
    (found : global[selector / 8]? = some value) (decoded : decodeSegment value = segment)
    (asked : segment.kind = kind) (present : segment.present ≠ 0) :
    loadSystem global kind selector = .loads segment := by
  simp only [loadSystem, if_neg named.1, if_neg named.2, found, Option.map_some, decoded,
    if_pos asked, if_neg present]

/-- What is loaded is a segment of a table that admits it. -/
theorem loadSegment_loads (loads : loadSegment global locals register selector cpl = .loads segment) :
    (∃ value, (value ∈ global ∨ value ∈ locals) ∧ decodeSegment value = segment) ∧
      segment.Admits (selector % 4) cpl register := by
  unfold loadSegment at loads
  split at loads
  · split at loads <;> cases loads
  · split at loads
    · cases loads
    · rename_i found
      split at loads
      · rename_i admits
        split at loads
        · cases loads
        · cases loads
          refine ⟨?_, admits⟩
          unfold selected at found
          split at found
          · obtain ⟨value, listed, decoded⟩ := Option.map_eq_some_iff.mp found
            exact ⟨value, .inr (List.mem_of_getElem? listed), decoded⟩
          · obtain ⟨value, listed, decoded⟩ := Option.map_eq_some_iff.mp found
            exact ⟨value, .inl (List.mem_of_getElem? listed), decoded⟩
      · cases loads

end Ece391.Library
