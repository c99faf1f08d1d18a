import Ece391.Library.Descriptor
import Ece391.Interrupt.Linkage

namespace Ece391

open Library

/-! # The interrupt descriptor table (x86_desc.h, idt.c) -/

structure IdtDesc where
  offset_15_00 : BitVec 16
  segSelector : BitVec 16
  reserved4 : BitVec 8
  reserved3 : BitVec 1
  reserved2 : BitVec 1
  reserved1 : BitVec 1
  size : BitVec 1
  reserved0 : BitVec 1
  dpl : BitVec 2
  present : BitVec 1
  offset_31_16 : BitVec 16
deriving DecidableEq, Repr

namespace IdtDesc

/-- The bit fields of the union, the first in the lowest bits. -/
def fields (desc : IdtDesc) : List (Nat × Nat) :=
  [(16, desc.offset_15_00.toNat), (16, desc.segSelector.toNat), (8, desc.reserved4.toNat),
    (1, desc.reserved3.toNat), (1, desc.reserved2.toNat), (1, desc.reserved1.toNat),
    (1, desc.size.toNat), (1, desc.reserved0.toNat), (2, desc.dpl.toNat),
    (1, desc.present.toNat), (16, desc.offset_31_16.toNat)]

/-- The eight bytes in memory. -/
def value (desc : IdtDesc) : Nat := pack desc.fields

/-- `SET_IDT_ENTRY` -/
def setIdtEntry (str : IdtDesc) (handler : Word) : IdtDesc :=
  { str with
    offset_31_16 := ((handler &&& 0xFFFF0000) >>> 16).setWidth 16
    offset_15_00 := (handler &&& 0xFFFF).setWidth 16 }

end IdtDesc

/-- The handlers whose addresses `idt_initialize` stores. -/
inductive Linkage where
  | divideByZero
  | debug
  | nmi
  | breakpoint
  | overflow
  | boundRange
  | invalidOp
  | deviceNa
  | doubleFault
  | coprocessorSegOverrun
  | invalidTss
  | segNotPresent
  | stackSegFault
  | generalProtection
  | pageFault
  | reserved
  | mathFault
  | alignmentCheck
  | machineCheck
  | floatingPoint
  | irq0Wrapper
  | irq1Wrapper
  | irq8Wrapper
  | syscallWrapper
deriving DecidableEq, Repr

/-- The vectors of the `SET_IDT_ENTRY` lines. -/
def linkages : List (Nat × Linkage) :=
  [(0, .divideByZero), (1, .debug), (2, .nmi), (3, .breakpoint), (4, .overflow), (5, .boundRange),
    (6, .invalidOp), (7, .deviceNa), (8, .doubleFault), (9, .coprocessorSegOverrun),
    (10, .invalidTss), (11, .segNotPresent), (12, .stackSegFault), (13, .generalProtection),
    (14, .pageFault), (15, .reserved), (16, .mathFault), (17, .alignmentCheck),
    (18, .machineCheck), (19, .floatingPoint), (32, .irq0Wrapper), (33, .irq1Wrapper),
    (40, .irq8Wrapper), (0x80, .syscallWrapper)]

/-- `for (i = start; i < start + count; i++) idt[i] = desc;` -/
def fillIdt (desc : IdtDesc) : (start count : Nat) → (Nat → IdtDesc) → Nat → IdtDesc
  | _, 0, idt => idt
  | start, count + 1, idt => fillIdt desc (start + 1) count (Function.update idt start desc)

def setIdtEntries (address : Linkage → Word) :
    List (Nat × Linkage) → (Nat → IdtDesc) → Nat → IdtDesc
  | [], idt => idt
  | (vector, linkage) :: rest, idt =>
      setIdtEntries address rest
        (Function.update idt vector ((idt vector).setIdtEntry (address linkage)))

/-- `low` and `high` are what the two offset fields of the local `exception` hold, which nothing
is stored to. -/
def idtInitialize (address : Linkage → Word) (low high : BitVec 16) (idt : Nat → IdtDesc) :
    Nat → IdtDesc :=
  let exception : IdtDesc :=
    { offset_15_00 := low
      segSelector := KERNEL_CS.setWidth 16
      reserved4 := 0
      reserved3 := 0
      reserved2 := 1
      reserved1 := 1
      size := 1
      reserved0 := 0
      dpl := 0
      present := 1
      offset_31_16 := high }
  let interrupt := exception
  let syscall := { interrupt with dpl := 3, reserved3 := 1 }
  let idt := fillIdt exception 0 32 idt
  let idt := fillIdt interrupt 32 9 idt
  let idt := Function.update idt 0x80 syscall
  setIdtEntries address linkages idt

/-- `idt` as x86_desc.S has it. -/
def zeroIdt : Nat → IdtDesc := fun _ => ⟨0, 0, 0, 0, 0, 0, 0, 0, 0, 0, 0⟩

variable {desc : IdtDesc} {handler : Word}

/-- The field with index `k` of a descriptor, which starts at bit `offset`. -/
theorem IdtDesc.read {offset width : Nat} {bits : BitVec width} (k : Nat)
    (start : ([16, 16, 8, 1, 1, 1, 1, 1, 2, 1, 16].take k).sum = offset)
    (field : desc.fields[k]? = some (width, bits.toNat)) :
    bitField offset width desc.value = bits.toNat :=
  bitField_read k rfl start field bits.isLt

/-- The processor finds every field where the union has it. -/
theorem IdtDesc.decode (desc : IdtDesc) : decodeGate desc.value =
    { offset := desc.offset_15_00.toNat + 2 ^ 16 * desc.offset_31_16.toNat
      selector := desc.segSelector.toNat
      kind := desc.reserved3.toNat + 2 * (desc.reserved2.toNat + 2 * (desc.reserved1.toNat +
        2 * (desc.size.toNat + 2 * desc.reserved0.toNat)))
      dpl := desc.dpl.toNat
      present := desc.present.toNat } := by
  have low : bitField 0 16 desc.value = desc.offset_15_00.toNat :=
    desc.read 0 (by decide) rfl
  have selector : bitField 16 16 desc.value = desc.segSelector.toNat :=
    desc.read 1 (by decide) rfl
  have bit40 : bitField 40 1 desc.value = desc.reserved3.toNat :=
    desc.read 3 (by decide) rfl
  have bit41 : bitField 41 1 desc.value = desc.reserved2.toNat :=
    desc.read 4 (by decide) rfl
  have bit42 : bitField 42 1 desc.value = desc.reserved1.toNat :=
    desc.read 5 (by decide) rfl
  have bit43 : bitField 43 1 desc.value = desc.size.toNat :=
    desc.read 6 (by decide) rfl
  have bit44 : bitField 44 1 desc.value = desc.reserved0.toNat :=
    desc.read 7 (by decide) rfl
  have dpl : bitField 45 2 desc.value = desc.dpl.toNat :=
    desc.read 8 (by decide) rfl
  have present : bitField 47 1 desc.value = desc.present.toNat :=
    desc.read 9 (by decide) rfl
  have high : bitField 48 16 desc.value = desc.offset_31_16.toNat :=
    desc.read 10 (by decide) rfl
  have kind : bitField 40 5 desc.value = bitField 40 1 desc.value +
      2 * (bitField 41 1 desc.value + 2 * (bitField 42 1 desc.value +
        2 * (bitField 43 1 desc.value + 2 * bitField 44 1 desc.value))) := by
    have first : bitField 40 5 desc.value = bitField 40 1 desc.value +
        2 ^ 1 * bitField 41 4 desc.value := bitField_add _ 40 1 4
    have second : bitField 41 4 desc.value = bitField 41 1 desc.value +
        2 ^ 1 * bitField 42 3 desc.value := bitField_add _ 41 1 3
    have third : bitField 42 3 desc.value = bitField 42 1 desc.value +
        2 ^ 1 * bitField 43 2 desc.value := bitField_add _ 42 1 2
    have fourth : bitField 43 2 desc.value = bitField 43 1 desc.value +
        2 ^ 1 * bitField 44 1 desc.value := bitField_add _ 43 1 1
    omega
  simp only [decodeGate, low, selector, kind, bit40, bit41, bit42, bit43, bit44, dpl, present, high]

/-- What `SET_IDT_ENTRY` stores is the address, in two halves. -/
theorem setIdtEntry_offset (desc : IdtDesc) (handler : Word) :
    (desc.setIdtEntry handler).offset_15_00.toNat +
      2 ^ 16 * (desc.setIdtEntry handler).offset_31_16.toNat = handler.toNat := by
  have low : (desc.setIdtEntry handler).offset_15_00.toNat = bitField 0 16 handler.toNat :=
    masked_toNat handler 0xFFFF 0 16 rfl
  have high : (desc.setIdtEntry handler).offset_31_16.toNat = bitField 16 16 handler.toNat :=
    masked_toNat handler 0xFFFF0000 16 16 rfl
  rw [low, high, ← bitField_add handler.toNat 0 16 16, bitField, Nat.pow_zero, Nat.div_one]
  exact Nat.mod_eq_of_lt handler.isLt

variable {address : Linkage → Word} {low high : BitVec 16} {idt : Nat → IdtDesc} {vector : Nat}
  {linkage : Linkage}

theorem fillIdt_apply (start count : Nat) : fillIdt desc start count idt vector =
    if start ≤ vector ∧ vector < start + count then desc else idt vector := by
  induction count generalizing start idt with
  | zero =>
      rw [if_neg (by omega)]
      rfl
  | succ count ih =>
      rw [fillIdt, ih, Function.update_apply]
      by_cases here : vector = start
      · rw [if_pos here, if_pos (show start ≤ vector ∧ vector < start + (count + 1) by omega),
          ite_self]
      · rw [if_neg here]
        refine if_congr ?_ rfl rfl
        omega

variable {list : List (Nat × Linkage)}

theorem setIdtEntries_other (other : ∀ entry ∈ list, vector ≠ entry.1) :
    setIdtEntries address list idt vector = idt vector := by
  induction list generalizing idt with
  | nil => rfl
  | cons entry rest ih =>
      rw [setIdtEntries, ih fun later member => other later (List.mem_cons_of_mem _ member)]
      exact Function.update_of_ne (other entry (List.mem_cons_self ..)) _ _

theorem setIdtEntries_entry (distinct : (list.map Prod.fst).Nodup)
    (member : (vector, linkage) ∈ list) :
    setIdtEntries address list idt vector = (idt vector).setIdtEntry (address linkage) := by
  induction list generalizing idt with
  | nil => cases member
  | cons entry rest ih =>
      obtain ⟨apart, distinctRest⟩ := List.nodup_cons.mp distinct
      rcases List.mem_cons.mp member with rfl | later
      · have others : ∀ entry ∈ rest, vector ≠ entry.1 := by
          rintro entry inRest rfl
          exact apart (List.mem_map.mpr ⟨_, inRest, rfl⟩)
        rw [setIdtEntries, setIdtEntries_other others, Function.update_self]
      · have different : vector ≠ entry.1 := by
          rintro rfl
          exact apart (List.mem_map.mpr ⟨_, later, rfl⟩)
        rw [setIdtEntries, ih distinctRest later, Function.update_of_ne different]

/-- `exception` and `interrupt` -/
def exceptionDesc (low high : BitVec 16) : IdtDesc where
  offset_15_00 := low
  segSelector := KERNEL_CS.setWidth 16
  reserved4 := 0
  reserved3 := 0
  reserved2 := 1
  reserved1 := 1
  size := 1
  reserved0 := 0
  dpl := 0
  present := 1
  offset_31_16 := high

def syscallDesc (low high : BitVec 16) : IdtDesc :=
  { exceptionDesc low high with dpl := 3, reserved3 := 1 }

/-- An entry before the `SET_IDT_ENTRY` lines. -/
def plainDesc (low high : BitVec 16) (vector : Nat) : IdtDesc :=
  if vector = 0x80 then syscallDesc low high
  else if vector < 41 then exceptionDesc low high
  else zeroIdt vector

theorem filled_eq (low high : BitVec 16) :
    Function.update (fillIdt (exceptionDesc low high) 32 9
      (fillIdt (exceptionDesc low high) 0 32 zeroIdt)) 0x80 (syscallDesc low high) =
        plainDesc low high := by
  funext vector
  rw [Function.update_apply, fillIdt_apply, fillIdt_apply, plainDesc]
  by_cases isSyscall : vector = 0x80
  · rw [if_pos isSyscall, if_pos isSyscall]
  · rw [if_neg isSyscall, if_neg isSyscall]
    by_cases first : vector < 32
    · rw [if_neg (by omega), if_pos (by omega), if_pos (by omega)]
    · by_cases second : vector < 41
      · rw [if_pos (by omega), if_pos second]
      · rw [if_neg (by omega), if_neg (by omega), if_neg second]

theorem idtInitialize_linkage (member : (vector, linkage) ∈ linkages) :
    idtInitialize address low high zeroIdt vector =
      (plainDesc low high vector).setIdtEntry (address linkage) := by
  rw [← filled_eq]
  exact setIdtEntries_entry (by decide) member

theorem idtInitialize_other (other : ∀ entry ∈ linkages, vector ≠ entry.1) :
    idtInitialize address low high zeroIdt vector = plainDesc low high vector := by
  rw [← filled_eq]
  exact setIdtEntries_other other

variable {software : Bool} {cpl : Nat}

theorem takeException (handler : Word) :
    takeGate ((exceptionDesc low high).setIdtEntry handler).value software cpl =
      if software = true ∧ 0 < cpl then .generalProtection else .enters 16 handler.toNat true := by
  have offset := setIdtEntry_offset (exceptionDesc low high) handler
  simp only [takeGate, IdtDesc.decode, offset]
  rfl

theorem takePlain :
    takeGate (exceptionDesc low high).value software cpl =
      if software = true ∧ 0 < cpl then .generalProtection
      else .enters 16 (low.toNat + 2 ^ 16 * high.toNat) true := by
  simp only [takeGate, IdtDesc.decode]
  rfl

theorem takeSyscall (handler : Word) (level : cpl ≤ 3) :
    takeGate ((syscallDesc low high).setIdtEntry handler).value software cpl =
      .enters 16 handler.toNat false := by
  have offset := setIdtEntry_offset (syscallDesc low high) handler
  have admitted : ¬ (software = true ∧ 3 < cpl) := by omega
  simp only [takeGate, IdtDesc.decode, offset]
  exact if_neg admitted

theorem takeZero (software : Bool) (cpl : Nat) :
    takeGate (zeroIdt vector).value software cpl = .generalProtection := by
  simp only [takeGate, IdtDesc.decode]
  rfl

/-- How the processor gets from a table into the handlers. -/
structure Dispatches (idt : Nat → IdtDesc) (address : Linkage → Word) : Prop where
  /-- Every program may make a system call, which leaves interrupts as they are. -/
  syscall : ∀ software cpl, cpl ≤ 3 →
    takeGate (idt 0x80).value software cpl = .enters 16 (address .syscallWrapper).toNat false
  /-- No other INT instruction gets a user program anywhere. -/
  guarded : ∀ vector cpl, vector ≠ 0x80 → 0 < cpl →
    takeGate (idt vector).value true cpl = .generalProtection
  /-- The exceptions and the three interrupts get to their stubs, with interrupts off. -/
  linked : ∀ vector linkage cpl, (vector, linkage) ∈ linkages → vector ≠ 0x80 →
    takeGate (idt vector).value false cpl = .enters 16 (address linkage).toNat true
  /-- Of the gates without a stub no others can be taken than these, -/
  unlinked : ∀ vector cpl selector offset off,
    takeGate (idt vector).value false cpl = .enters selector offset off →
    (∃ linkage, (vector, linkage) ∈ linkages) ∨ 20 ≤ vector ∧ vector ≤ 31 ∨
      34 ≤ vector ∧ vector ≤ 39
  /-- and these all lead to one address. -/
  present : ∃ offset, ∀ vector cpl, 20 ≤ vector ∧ vector ≤ 31 ∨ 34 ≤ vector ∧ vector ≤ 39 →
    takeGate (idt vector).value false cpl = .enters 16 offset true

theorem linkage_below {linkage : Linkage} (member : (vector, linkage) ∈ linkages)
    (notSyscall : vector ≠ 0x80) : vector < 41 := by
  have checked : ∀ entry ∈ linkages, entry.1 = 0x80 ∨ entry.1 < 41 := by decide
  rcases checked _ member with isSyscall | below
  · exact absurd isSyscall notSyscall
  · exact below

theorem unlinked_range (below : vector < 41) (other : ∀ entry ∈ linkages, vector ≠ entry.1) :
    20 ≤ vector ∧ vector ≤ 31 ∨ 34 ≤ vector ∧ vector ≤ 39 := by
  have checked : ∀ vector < 41, (∃ entry ∈ linkages, vector = entry.1) ∨
      20 ≤ vector ∧ vector ≤ 31 ∨ 34 ≤ vector ∧ vector ≤ 39 := by decide
  rcases checked vector below with ⟨entry, member, same⟩ | range
  · exact absurd same (other entry member)
  · exact range

theorem unlinked_other (range : 20 ≤ vector ∧ vector ≤ 31 ∨ 34 ≤ vector ∧ vector ≤ 39) :
    ∀ entry ∈ linkages, vector ≠ entry.1 := by
  have checked : ∀ entry ∈ linkages,
      ¬ (20 ≤ entry.1 ∧ entry.1 ≤ 31 ∨ 34 ≤ entry.1 ∧ entry.1 ≤ 39) := by decide
  rintro entry member rfl
  exact checked entry member range

/-- The table that `idt_initialize` loads, wherever the handlers lie and whatever the
offsets of the local were. -/
theorem idt_dispatches (address : Linkage → Word) (low high : BitVec 16) :
    Dispatches (idtInitialize address low high zeroIdt) address where
  syscall software cpl level := by
    have member : (0x80, Linkage.syscallWrapper) ∈ linkages := by decide
    rw [idtInitialize_linkage member, plainDesc, if_pos rfl]
    exact takeSyscall _ level
  guarded vector cpl notSyscall user := by
    by_cases linked : ∃ linkage, (vector, linkage) ∈ linkages
    · obtain ⟨linkage, member⟩ := linked
      rw [idtInitialize_linkage member, plainDesc, if_neg notSyscall,
        if_pos (linkage_below member notSyscall), takeException, if_pos ⟨rfl, user⟩]
    · have other : ∀ entry ∈ linkages, vector ≠ entry.1 := by
        rintro entry member rfl
        exact linked ⟨entry.2, member⟩
      rw [idtInitialize_other other, plainDesc, if_neg notSyscall]
      split
      · rw [takePlain, if_pos ⟨rfl, user⟩]
      · exact takeZero _ _
  linked vector linkage cpl member notSyscall := by
    rw [idtInitialize_linkage member, plainDesc, if_neg notSyscall,
      if_pos (linkage_below member notSyscall), takeException, if_neg (fun both => nomatch both.1)]
  unlinked vector cpl selector offset off entered := by
    by_cases linked : ∃ linkage, (vector, linkage) ∈ linkages
    · exact .inl linked
    · have other : ∀ entry ∈ linkages, vector ≠ entry.1 := by
        rintro entry member rfl
        exact linked ⟨entry.2, member⟩
      have notSyscall : vector ≠ 0x80 := other (0x80, .syscallWrapper) (by decide)
      rw [idtInitialize_other other, plainDesc, if_neg notSyscall] at entered
      split at entered
      · rename_i below
        exact .inr (unlinked_range below other)
      · rw [takeZero] at entered
        cases entered
  present := by
    refine ⟨low.toNat + 2 ^ 16 * high.toNat, fun vector cpl range => ?_⟩
    rw [idtInitialize_other (unlinked_other range), plainDesc, if_neg (by omega),
      if_pos (by omega), takePlain, if_neg (fun both => nomatch both.1)]

end Ece391
