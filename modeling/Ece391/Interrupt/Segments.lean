import Ece391.Interrupt.Gates

namespace Ece391

open Library

/-! # The segments (x86_desc.h, x86_desc.S, kernel.c)

The descriptors of code and data are in x86_desc.S, and `entry` makes those of the
local table and of the task state.
-/

def USER_CS : Word := 0x23
def USER_DS : Word := 0x2B
def KERNEL_TSS : Word := 0x30
def KERNEL_LDT : Word := 0x38
def TSS_SIZE : Word := 104

structure SegDesc where
  segLim_15_00 : BitVec 16
  base_15_00 : BitVec 16
  base_23_16 : BitVec 8
  type : BitVec 4
  sys : BitVec 1
  dpl : BitVec 2
  present : BitVec 1
  segLim_19_16 : BitVec 4
  avail : BitVec 1
  reserved : BitVec 1
  opsize : BitVec 1
  granularity : BitVec 1
  base_31_24 : BitVec 8
deriving DecidableEq, Repr

namespace SegDesc

def fields (desc : SegDesc) : List (Nat × Nat) :=
  [(16, desc.segLim_15_00.toNat), (16, desc.base_15_00.toNat), (8, desc.base_23_16.toNat),
    (4, desc.type.toNat), (1, desc.sys.toNat), (2, desc.dpl.toNat), (1, desc.present.toNat),
    (4, desc.segLim_19_16.toNat), (1, desc.avail.toNat), (1, desc.reserved.toNat),
    (1, desc.opsize.toNat), (1, desc.granularity.toNat), (8, desc.base_31_24.toNat)]

def value (desc : SegDesc) : Nat := pack desc.fields

/-- The body of `SET_LDT_PARAMS` and of `SET_TSS_PARAMS`. -/
def setParams (str : SegDesc) (addr lim : Word) : SegDesc :=
  { str with
    base_31_24 := ((addr &&& 0xFF000000) >>> 24).setWidth 8
    base_23_16 := ((addr &&& 0x00FF0000) >>> 16).setWidth 8
    base_15_00 := (addr &&& 0x0000FFFF).setWidth 16
    segLim_19_16 := ((lim &&& 0x000F0000) >>> 16).setWidth 4
    segLim_15_00 := (lim &&& 0x0000FFFF).setWidth 16 }

def setLdtParams (str : SegDesc) (addr lim : Word) : SegDesc := str.setParams addr lim

def setTssParams (str : SegDesc) (addr lim : Word) : SegDesc := str.setParams addr lim

end SegDesc

/-- `gdt` as x86_desc.S has it. -/
def gdt : List Nat :=
  [0, 0, 0x00CF9A000000FFFF, 0x00CF92000000FFFF, 0x00CFFA000000FFFF, 0x00CFF2000000FFFF, 0, 0]

/-- The indices of `tss_desc_ptr` and `ldt_desc_ptr` in it. -/
def TSS_DESC_PTR : Nat := 6
def LDT_DESC_PTR : Nat := 7

/-- The table at `ldt`. -/
def ldtTable : List Nat := List.replicate 4 0

/-- `ldt_bottom - ldt - 1` and `tss_bottom - tss - 1`. -/
def LDT_BYTES : Word := 31
def TSS_BYTES : Word := 103

structure TaskState where
  ldtSegmentSelector : BitVec 16
  ss0 : BitVec 16
  esp0 : Word
deriving DecidableEq, Repr

structure LoadedSegments where
  gdt : List Nat
  ldtr : SegmentOutcome
  tr : SegmentOutcome
  tss : TaskState
deriving DecidableEq, Repr

/-- `the_ldt_desc`, which holds anything at first. -/
def theLdtDesc (ldt : Word) (str : SegDesc) : SegDesc :=
  let str :=
    { str with
      granularity := 0, opsize := 1, reserved := 0, avail := 0, present := 1, dpl := 0, sys := 0,
      type := 2 }
  str.setLdtParams ldt LDT_BYTES

/-- `the_tss_desc`, which holds anything at first. -/
def theTssDesc (tss : Word) (str : SegDesc) : SegDesc :=
  let str :=
    { str with
      granularity := 0, opsize := 0, reserved := 0, avail := 0,
      segLim_19_16 := (TSS_SIZE &&& 0x000F0000).setWidth 4, present := 1, dpl := 0, sys := 0,
      type := 9, segLim_15_00 := (TSS_SIZE &&& 0x0000FFFF).setWidth 16 }
  str.setTssParams tss TSS_BYTES

/-- The two blocks of `entry`. -/
def entrySegments (ldt tss : Word) (ldtLocal tssLocal : SegDesc) : LoadedSegments :=
  let withLdt := gdt.set LDT_DESC_PTR (theLdtDesc ldt ldtLocal).value
  let withTss := withLdt.set TSS_DESC_PTR (theTssDesc tss tssLocal).value
  { gdt := withTss
    ldtr := loadSystem withLdt LOCAL_TABLE KERNEL_LDT.toNat
    tr := loadSystem withTss TASK_STATE KERNEL_TSS.toNat
    tss := ⟨KERNEL_LDT.setWidth 16, KERNEL_DS.setWidth 16, 0x800000⟩ }

variable {desc : SegDesc} {addr lim : Word}

theorem SegDesc.read {offset width : Nat} {bits : BitVec width} (k : Nat)
    (start : ([16, 16, 8, 4, 1, 2, 1, 4, 1, 1, 1, 1, 8].take k).sum = offset)
    (field : desc.fields[k]? = some (width, bits.toNat)) :
    bitField offset width desc.value = bits.toNat :=
  bitField_read k rfl start field bits.isLt

/-- The processor finds every field where the union has it. -/
theorem SegDesc.decode (desc : SegDesc) : decodeSegment desc.value =
    { base := desc.base_15_00.toNat + 2 ^ 16 * desc.base_23_16.toNat +
        2 ^ 24 * desc.base_31_24.toNat
      limit := desc.segLim_15_00.toNat + 2 ^ 16 * desc.segLim_19_16.toNat
      kind := desc.type.toNat + 2 ^ 4 * desc.sys.toNat
      dpl := desc.dpl.toNat
      present := desc.present.toNat
      granularity := desc.granularity.toNat } := by
  have lowLimit : bitField 0 16 desc.value = desc.segLim_15_00.toNat := desc.read 0 (by decide) rfl
  have lowBase : bitField 16 16 desc.value = desc.base_15_00.toNat := desc.read 1 (by decide) rfl
  have middleBase : bitField 32 8 desc.value = desc.base_23_16.toNat := desc.read 2 (by decide) rfl
  have type : bitField 40 4 desc.value = desc.type.toNat := desc.read 3 (by decide) rfl
  have sys : bitField 44 1 desc.value = desc.sys.toNat := desc.read 4 (by decide) rfl
  have dpl : bitField 45 2 desc.value = desc.dpl.toNat := desc.read 5 (by decide) rfl
  have present : bitField 47 1 desc.value = desc.present.toNat := desc.read 6 (by decide) rfl
  have highLimit : bitField 48 4 desc.value = desc.segLim_19_16.toNat := desc.read 7 (by decide) rfl
  have granularity : bitField 55 1 desc.value = desc.granularity.toNat :=
    desc.read 11 (by decide) rfl
  have highBase : bitField 56 8 desc.value = desc.base_31_24.toNat := desc.read 12 (by decide) rfl
  have kind : bitField 40 5 desc.value = desc.type.toNat + 2 ^ 4 * desc.sys.toNat := by
    rw [← type, ← sys]
    exact bitField_add desc.value 40 4 1
  simp only [decodeSegment, lowLimit, lowBase, middleBase, kind, dpl, present, highLimit,
    granularity, highBase]

/-- What the macros store is the address, in three parts. -/
theorem setParams_base (desc : SegDesc) (addr lim : Word) :
    (decodeSegment (desc.setParams addr lim).value).base = addr.toNat := by
  have low : (desc.setParams addr lim).base_15_00.toNat = bitField 0 16 addr.toNat :=
    masked_toNat addr 0x0000FFFF 0 16 rfl
  have middle : (desc.setParams addr lim).base_23_16.toNat = bitField 16 8 addr.toNat :=
    masked_toNat addr 0x00FF0000 16 8 rfl
  have high : (desc.setParams addr lim).base_31_24.toNat = bitField 24 8 addr.toNat :=
    masked_toNat addr 0xFF000000 24 8 rfl
  have upper : bitField 16 16 addr.toNat =
      bitField 16 8 addr.toNat + 2 ^ 8 * bitField 24 8 addr.toNat := bitField_add _ 16 8 8
  have whole : bitField 0 32 addr.toNat =
      bitField 0 16 addr.toNat + 2 ^ 16 * bitField 16 16 addr.toNat := bitField_add _ 0 16 16
  have all : bitField 0 32 addr.toNat = addr.toNat := by
    rw [bitField, Nat.pow_zero, Nat.div_one]
    exact Nat.mod_eq_of_lt addr.isLt
  rw [SegDesc.decode]
  simp only [low, middle, high]
  omega

/-- Of the limit they store the lowest 20 bits. -/
theorem setParams_limit (desc : SegDesc) (addr lim : Word) :
    (decodeSegment (desc.setParams addr lim).value).limit = bitField 0 20 lim.toNat := by
  have low : (desc.setParams addr lim).segLim_15_00.toNat = bitField 0 16 lim.toNat :=
    masked_toNat lim 0x0000FFFF 0 16 rfl
  have high : (desc.setParams addr lim).segLim_19_16.toNat = bitField 16 4 lim.toNat :=
    masked_toNat lim 0x000F0000 16 4 rfl
  rw [SegDesc.decode]
  simp only [low, high]
  exact (bitField_add lim.toNat 0 16 4).symm

theorem theLdtDesc_decode (ldt : Word) (str : SegDesc) :
    decodeSegment (theLdtDesc ldt str).value = ⟨ldt.toNat, 31, 2, 0, 1, 0⟩ := by
  ext
  · exact setParams_base _ ldt LDT_BYTES
  · exact setParams_limit _ ldt LDT_BYTES
  all_goals
    rw [SegDesc.decode]
    rfl

theorem theTssDesc_decode (tss : Word) (str : SegDesc) :
    decodeSegment (theTssDesc tss str).value = ⟨tss.toNat, 103, 9, 0, 1, 0⟩ := by
  ext
  · exact setParams_base _ tss TSS_BYTES
  · exact setParams_limit _ tss TSS_BYTES
  all_goals
    rw [SegDesc.decode]
    rfl

def selectorOf (code data : Nat) : SegmentRegister → Nat
  | .code => code
  | .stack => data
  | .data => data

/-- Segmentation is not used. -/
structure Unsegmented (loaded : LoadedSegments) (ldt tss : Word) : Prop where
  /-- Whatever a program loads is all of memory and not above its privilege. -/
  flat : ∀ register selector cpl segment,
    loadSegment loaded.gdt ldtTable register selector cpl = .loads segment →
      (∀ offset < 2 ^ 32, segment.linear offset = some offset) ∧ cpl ≤ segment.dpl
  /-- The code, the stack and the data of the kernel can be loaded at its privilege. -/
  kernel : ∀ register, ∃ segment,
    loadSegment loaded.gdt ldtTable register
      (selectorOf KERNEL_CS.toNat loaded.tss.ss0.toNat register) 0 = .loads segment
  /-- So can those of a program at its own. -/
  user : ∀ register, ∃ segment,
    loadSegment loaded.gdt ldtTable register
      (selectorOf USER_CS.toNat USER_DS.toNat register) 3 = .loads segment
  /-- The local table is where and as long as x86_desc.S has it, also for the selector in
  the task state. -/
  locals : ∃ segment, loaded.ldtr = .loads segment ∧
    loadSystem loaded.gdt LOCAL_TABLE loaded.tss.ldtSegmentSelector.toNat = .loads segment ∧
    segment.base = ldt.toNat ∧ segment.lastOffset + 1 = 8 * ldtTable.length
  /-- So is the task state, where the processor finds the stack of the kernel. -/
  task : ∃ segment, loaded.tr = .loads segment ∧ segment.base = tss.toNat ∧
    segment.lastOffset + 1 = TSS_SIZE.toNat

variable {ldt tss : Word} {ldtLocal tssLocal : SegDesc} {value : Nat}

/-- A descriptor of the two tables is no segment of code or data, or it is flat. -/
theorem entrySegments_descriptor
    (member : value ∈ (entrySegments ldt tss ldtLocal tssLocal).gdt ∨ value ∈ ldtTable) :
    (decodeSegment value).kind < 16 ∨
      (decodeSegment value).Flat ∧ (decodeSegment value).kind < 28 := by
  have zero : (decodeSegment 0).kind < 16 := by decide
  have fixed : ∀ value ∈ gdt, (decodeSegment value).kind < 16 ∨
      ((decodeSegment value).base = 0 ∧ (decodeSegment value).lastOffset = 2 ^ 32 - 1) ∧
        (decodeSegment value).kind < 28 := by decide
  rcases member with inGlobal | inLocal
  · rcases List.mem_or_eq_of_mem_set inGlobal with inRest | isTss
    · rcases List.mem_or_eq_of_mem_set inRest with inFixed | isLdt
      · rcases fixed value inFixed with low | ⟨⟨base, last⟩, plain⟩
        · exact .inl low
        · exact .inr ⟨⟨base, last⟩, plain⟩
      · rw [isLdt, theLdtDesc_decode]
        exact .inl (show 2 < 16 by decide)
    · rw [isTss, theTssDesc_decode]
      exact .inl (show 9 < 16 by decide)
  · rw [List.eq_of_mem_replicate inLocal]
    exact .inl zero

theorem lldt_loads {global : List Nat}
    (found : global[LDT_DESC_PTR]? = some (theLdtDesc ldt ldtLocal).value) :
    loadSystem global LOCAL_TABLE KERNEL_LDT.toNat = .loads ⟨ldt.toNat, 31, 2, 0, 1, 0⟩ :=
  loadSystem_of (by decide) found (theLdtDesc_decode ldt ldtLocal) rfl Nat.one_ne_zero

theorem ltr_loads {global : List Nat}
    (found : global[TSS_DESC_PTR]? = some (theTssDesc tss tssLocal).value) :
    loadSystem global TASK_STATE KERNEL_TSS.toNat = .loads ⟨tss.toNat, 103, 9, 0, 1, 0⟩ :=
  loadSystem_of (by decide) found (theTssDesc_decode tss tssLocal) rfl Nat.one_ne_zero

theorem loadSegment_fixed {register : SegmentRegister} {selector cpl : Nat}
    (low : selector / 8 < TSS_DESC_PTR) :
    loadSegment (entrySegments ldt tss ldtLocal tssLocal).gdt ldtTable register selector cpl =
      loadSegment gdt ldtTable register selector cpl := by
  have notTss : TSS_DESC_PTR ≠ selector / 8 := by omega
  have notLdt : LDT_DESC_PTR ≠ selector / 8 := by
    simp only [TSS_DESC_PTR, LDT_DESC_PTR] at low ⊢
    omega
  have same : (entrySegments ldt tss ldtLocal tssLocal).gdt[selector / 8]? = gdt[selector / 8]? :=
    (List.getElem?_set_ne notTss).trans (List.getElem?_set_ne notLdt)
  simp only [loadSegment, selected, same]

theorem kernel_selectors (register : SegmentRegister) :
    selectorOf KERNEL_CS.toNat KERNEL_DS.toNat register / 8 < TSS_DESC_PTR ∧
      ∃ segment, loadSegment gdt ldtTable register
        (selectorOf KERNEL_CS.toNat KERNEL_DS.toNat register) 0 = .loads segment := by
  cases register with
  | code => exact ⟨by decide, ⟨0, 0xFFFFF, 26, 0, 1, 1⟩, rfl⟩
  | stack => exact ⟨by decide, ⟨0, 0xFFFFF, 18, 0, 1, 1⟩, rfl⟩
  | data => exact ⟨by decide, ⟨0, 0xFFFFF, 18, 0, 1, 1⟩, rfl⟩

theorem user_selectors (register : SegmentRegister) :
    selectorOf USER_CS.toNat USER_DS.toNat register / 8 < TSS_DESC_PTR ∧
      ∃ segment, loadSegment gdt ldtTable register
        (selectorOf USER_CS.toNat USER_DS.toNat register) 3 = .loads segment := by
  cases register with
  | code => exact ⟨by decide, ⟨0, 0xFFFFF, 26, 3, 1, 1⟩, rfl⟩
  | stack => exact ⟨by decide, ⟨0, 0xFFFFF, 18, 3, 1, 1⟩, rfl⟩
  | data => exact ⟨by decide, ⟨0, 0xFFFFF, 18, 3, 1, 1⟩, rfl⟩

/-- The segments that `entry` sets up, wherever the tables lie and whatever its two
locals held. -/
theorem entry_unsegmented (ldt tss : Word) (ldtLocal tssLocal : SegDesc) :
    Unsegmented (entrySegments ldt tss ldtLocal tssLocal) ldt tss where
  flat register selector cpl segment loads := by
    obtain ⟨⟨value, member, rfl⟩, admits⟩ := loadSegment_loads loads
    have descriptor : 16 ≤ (decodeSegment value).kind := admits.ofKind
    rcases entrySegments_descriptor member with low | ⟨flat, plain⟩
    · omega
    · exact ⟨fun offset inside => flat.linear inside, admits.level plain⟩
  kernel register := by
    obtain ⟨low, loads⟩ := kernel_selectors register
    exact (loadSegment_fixed low).symm ▸ loads
  user register := by
    obtain ⟨low, loads⟩ := user_selectors register
    exact (loadSegment_fixed low).symm ▸ loads
  locals := by
    have stored : (gdt.set LDT_DESC_PTR (theLdtDesc ldt ldtLocal).value)[LDT_DESC_PTR]? =
        some (theLdtDesc ldt ldtLocal).value := List.getElem?_set_self (by decide)
    have kept : (entrySegments ldt tss ldtLocal tssLocal).gdt[LDT_DESC_PTR]? =
        some (theLdtDesc ldt ldtLocal).value := (List.getElem?_set_ne (by decide)).trans stored
    exact ⟨_, lldt_loads stored, lldt_loads kept, rfl, rfl⟩
  task := by
    have stored : (entrySegments ldt tss ldtLocal tssLocal).gdt[TSS_DESC_PTR]? =
        some (theTssDesc tss tssLocal).value := by
      have inside : TSS_DESC_PTR < gdt.length := by decide
      rw [entrySegments, List.getElem?_set_self (inside.trans_eq (List.length_set ..).symm)]
    exact ⟨_, ltr_loads stored, rfl, rfl⟩

end Ece391
