import Ece391.Library.Assembly
import Ece391.Library.Transfer

namespace Ece391

open Library Library.Assembly

/-! # memset and memcpy (lib.c) -/

/-- The labels of both routines, behind `.memset_` and `.memcpy_`. -/
inductive PhaseLabel where
  | top | aligned | bottom | done
deriving DecidableEq

/-- The assembly of `memset`. -/
def memsetCode : List (Line PhaseLabel) :=
  [.label .top,
    .testl (.register .ecx) .ecx,
    .jz .done,
    .testl (.immediate 3) .edi,
    .jz .aligned,
    .movbTo .edi,
    .addl 1 .edi,
    .subl 1 .ecx,
    .jmp .top,
    .label .aligned,
    .movwFromDs .edx,
    .movwToEs .edx,
    .movl .ecx .edx,
    .shrl 2 .ecx,
    .andl 3 .edx,
    .cld,
    .repStosl,
    .label .bottom,
    .testl (.register .edx) .edx,
    .jz .done,
    .movbTo .edi,
    .addl 1 .edi,
    .subl 1 .edx,
    .jmp .bottom,
    .label .done]

/-- `c << 24 | c << 16 | c << 8 | c` -/
def fourTimes (c : BitVec 32) : BitVec 32 := c <<< 24 ||| c <<< 16 ||| c <<< 8 ||| c

/-- Where `memset(s, c, n)` enters its assembly. -/
def memsetEntry (p : Processor) (s c n : BitVec 32) : Processor :=
  { p with eax := fourTimes (c &&& 0xFF), edi := s, ecx := n, eip := 0 }

/-- The assembly of `memcpy`. -/
def memcpyCode : List (Line PhaseLabel) :=
  [.label .top,
    .testl (.register .ecx) .ecx,
    .jz .done,
    .testl (.immediate 3) .edi,
    .jz .aligned,
    .movbFrom .esi,
    .movbTo .edi,
    .addl 1 .edi,
    .addl 1 .esi,
    .subl 1 .ecx,
    .jmp .top,
    .label .aligned,
    .movwFromDs .edx,
    .movwToEs .edx,
    .movl .ecx .edx,
    .shrl 2 .ecx,
    .andl 3 .edx,
    .cld,
    .repMovsl,
    .label .bottom,
    .testl (.register .edx) .edx,
    .jz .done,
    .movbFrom .esi,
    .movbTo .edi,
    .addl 1 .edi,
    .addl 1 .esi,
    .subl 1 .edx,
    .jmp .bottom,
    .label .done]

/-- Where `memcpy(dest, src, n)` enters its assembly. -/
def memcpyEntry (p : Processor) (dest src n : BitVec 32) : Processor :=
  { p with edi := dest, esi := src, ecx := n, eip := 0 }

/-- The call returns, with the last line executed. -/
def Returns (code : List (Line PhaseLabel)) (entry final : Processor) : Prop :=
  Reaches code entry final ∧ final.eip = code.length

/-- What the parts of a routine do, where `holds` says what is true after a
number of bytes have been moved.  The repeated instruction is line `rep`, the
loop behind it starts at `bottom`. -/
structure Routine (code : List (Line PhaseLabel)) (rep bottom total : Nat)
    (holds : Nat → Processor → Prop) : Prop where
  ends : ∀ {moved p}, p.eip = 0 → p.ecx = 0 → holds moved p →
    ∃ q, Reaches code p q ∧ q.eip = code.length ∧ holds moved q
  headByte : ∀ {moved p}, p.eip = 0 → p.ecx ≠ 0 → 3 &&& p.edi ≠ 0 → moved < total →
    holds moved p →
      ∃ q, Reaches code p q ∧ q.eip = 0 ∧ q.ecx = p.ecx - 1 ∧ holds (moved + 1) q
  enters : ∀ {moved p}, p.eip = 0 → p.ecx ≠ 0 → 3 &&& p.edi = 0 → holds moved p →
    ∃ q, Reaches code p q ∧ q.eip = rep ∧ q.df = false ∧ q.ecx = p.ecx >>> 2 ∧
      q.edx = p.ecx &&& 3 ∧ holds moved q
  word : ∀ {moved p}, p.eip = rep → p.df = false → p.ecx ≠ 0 → moved + 4 ≤ total →
    holds moved p →
      ∃ q, Reaches code p q ∧ q.eip = rep ∧ q.df = false ∧ q.ecx = p.ecx - 1 ∧ q.edx = p.edx ∧
        holds (moved + 4) q
  leaves : ∀ {moved p}, p.eip = rep → p.ecx = 0 → holds moved p →
    ∃ q, Reaches code p q ∧ q.eip = bottom ∧ q.edx = p.edx ∧ holds moved q
  tailByte : ∀ {moved p}, p.eip = bottom → p.edx ≠ 0 → moved < total → holds moved p →
    ∃ q, Reaches code p q ∧ q.eip = bottom ∧ q.edx = p.edx - 1 ∧ holds (moved + 1) q
  finishes : ∀ {moved p}, p.eip = bottom → p.edx = 0 → holds moved p →
    ∃ q, Reaches code p q ∧ q.eip = code.length ∧ holds moved q

theorem toNat_pred {count : BitVec 32} (positive : count ≠ 0) :
    (count - 1).toNat = count.toNat - 1 := by
  have nonzero : count.toNat ≠ 0 := fun zero => positive (BitVec.eq_of_toNat_eq zero)
  have bound := count.isLt
  rw [BitVec.toNat_sub]
  show (4294967296 - 1 + count.toNat) % 4294967296 = _
  omega

theorem toNat_quarter (count : BitVec 32) : (count >>> 2).toNat = count.toNat / 4 := by
  rw [BitVec.toNat_ushiftRight, Nat.shiftRight_eq_div_pow]

theorem toNat_rest (count : BitVec 32) : (count &&& 3).toNat = count.toNat % 4 := by
  rw [BitVec.toNat_and]
  exact Nat.and_two_pow_sub_one_eq_mod _ 2

variable {code : List (Line PhaseLabel)} {rep bottom total : Nat}
  {holds : Nat → Processor → Prop}

theorem toNat_eq_zero {count : BitVec 32} : count.toNat = 0 ↔ count = 0 :=
  ⟨fun zero => BitVec.eq_of_toNat_eq zero, fun zero => zero ▸ rfl⟩

/-- The head counts the bytes left in `%ecx`, the body the words left there and
the bytes behind them in `%edx`, the tail the bytes left in `%edx`. -/
def Routine.phases (routine : Routine code rep bottom total holds) :
    Phases (fun before after => step code before = some after) total where
  head moved p :=
    p.eip = 0 ∧ p.ecx.toNat = total - moved ∧ moved ≤ total ∧ holds moved p
  body moved groups p :=
    p.eip = rep ∧ p.df = false ∧ p.ecx.toNat = groups ∧
      moved + 4 * groups + p.edx.toNat = total ∧ holds moved p
  tail moved p :=
    p.eip = bottom ∧ moved + p.edx.toNat = total ∧ holds moved p
  done p := p.eip = code.length ∧ holds total p
  head_turn := by
    rintro moved p ⟨start, count, inside, held⟩
    by_cases none : p.ecx = 0
    · obtain ⟨q, reached, atEnd, moves⟩ := routine.ends start none held
      have whole : moved = total := by
        rw [none] at count
        have zero : total - moved = 0 := count.symm
        omega
      exact ⟨q, reached, .inl ⟨atEnd, whole ▸ moves⟩⟩
    · have positive := mt toNat_eq_zero.mp none
      by_cases aligned : 3 &&& p.edi = 0
      · obtain ⟨q, reached, atRep, forwards, groups, rest, moves⟩ :=
          routine.enters start none aligned held
        refine ⟨q, reached, .inr (.inl ⟨atRep, forwards, ?_, ?_, moves⟩)⟩
        · rw [groups, toNat_quarter, count]
        · rw [rest, toNat_rest, count]
          omega
      · obtain ⟨q, reached, again, less, moves⟩ :=
          routine.headByte start none aligned (by omega) held
        refine ⟨q, reached, .inr (.inr ⟨by omega, again, ?_, by omega, moves⟩)⟩
        rw [less, toNat_pred none]
        omega
  body_turn := by
    rintro moved groups p ⟨atRep, forwards, count, whole, held⟩
    have more : p.ecx ≠ 0 := mt toNat_eq_zero.mpr (by omega)
    obtain ⟨q, reached, again, stillForwards, less, rest, moves⟩ :=
      routine.word atRep forwards more (by omega) held
    refine ⟨q, reached, again, stillForwards, ?_, ?_, moves⟩
    · rw [less, toNat_pred more]
      omega
    · rw [rest]
      omega
  body_end := by
    rintro moved p ⟨atRep, forwards, count, whole, held⟩
    obtain ⟨q, reached, atBottom, rest, moves⟩ :=
      routine.leaves atRep (toNat_eq_zero.mp count) held
    refine ⟨q, reached, atBottom, ?_, moves⟩
    rw [rest]
    omega
  tail_turn := by
    rintro moved p ⟨atBottom, whole, held⟩
    by_cases none : p.edx = 0
    · obtain ⟨q, reached, atEnd, moves⟩ := routine.finishes atBottom none held
      have all : moved = total := by
        rw [none] at whole
        exact whole
      exact ⟨q, reached, .inl ⟨atEnd, all ▸ moves⟩⟩
    · have positive := mt toNat_eq_zero.mp none
      obtain ⟨q, reached, again, less, moves⟩ :=
        routine.tailByte atBottom none (by omega) held
      refine ⟨q, reached, .inr ⟨by omega, again, ?_, moves⟩⟩
      rw [less, toNat_pred none]
      omega

theorem Routine.moves (routine : Routine code rep bottom total holds) {p : Processor}
    (start : p.eip = 0) (count : p.ecx.toNat = total) (initial : holds 0 p) :
    ∃ q, Returns code p q ∧ holds total q := by
  have head : routine.phases.head 0 p := ⟨start, count, Nat.zero_le _, initial⟩
  obtain ⟨q, reached, atEnd, moved⟩ := routine.phases.head_finishes head
  exact ⟨q, ⟨reached, atEnd⟩, moved⟩

/-- Before the repeated instruction both split the count into words and the
bytes behind them. -/
theorem splits_count {p : Processor} (aligned : code[p.eip]? = some (.label .aligned))
    (loadsSegment : code[p.eip + 1]? = some (.movwFromDs .edx))
    (storesSegment : code[p.eip + 2]? = some (.movwToEs .edx))
    (copies : code[p.eip + 3]? = some (.movl .ecx .edx))
    (shifts : code[p.eip + 4]? = some (.shrl 2 .ecx))
    (masks : code[p.eip + 5]? = some (.andl 3 .edx)) (clears : code[p.eip + 6]? = some .cld) :
    Reaches code p
      { p with
        es := p.ds
        zf := p.ecx &&& 3 = 0
        df := false
        ecx := p.ecx >>> 2
        edx := p.ecx &&& 3
        eip := p.eip + 7 } := by
  have selector : (Processor.low p.edx p.ds).extractLsb' 0 16 = p.ds :=
    extract_low p.edx p.ds (by decide)
  have segments : Reaches code p
      { p with
        es := (Processor.low p.edx p.ds).extractLsb' 0 16
        edx := Processor.low p.edx p.ds
        eip := p.eip + 3 } := by
    refine Reaches.trans (Reaches.label aligned) ?_
    refine Reaches.trans (Reaches.line loadsSegment rfl) ?_
    exact Reaches.line storesSegment rfl
  rw [selector] at segments
  refine Reaches.trans segments ?_
  refine Reaches.trans (Reaches.line copies rfl) ?_
  refine Reaches.trans (Reaches.line shifts rfl) ?_
  refine Reaches.trans (Reaches.line masks rfl) ?_
  exact Reaches.line clears rfl

theorem mask_getLsbD (c : BitVec 32) (i : Nat) :
    (c &&& 0xFF).getLsbD i = (decide (i < 8) && c.getLsbD i) := by
  have mask : (0xFF : BitVec 32).getLsbD i = (decide (i < 32) && decide (i < 8)) := by
    show (BitVec.ofNat 32 (2 ^ 8 - 1)).getLsbD i = _
    rw [BitVec.getLsbD_ofNat, Nat.testBit_two_pow_sub_one]
  rw [BitVec.getLsbD_and, mask]
  grind

theorem fourTimes_byte (c : BitVec 32) {lane : Nat} (inside : lane < 4) :
    (fourTimes (c &&& 0xFF)).extractLsb' (8 * lane) 8 = c.setWidth 8 := by
  have masked := mask_getLsbD c
  generalize c &&& 0xFF = low at masked
  have lanes : lane = 0 ∨ lane = 1 ∨ lane = 2 ∨ lane = 3 := by omega
  ext i small
  rcases lanes with rfl | rfl | rfl | rfl <;> simp [fourTimes, masked, small] <;> grind

section Memset

variable {before : Bytes} {s c : BitVec 32} {moved : Nat} {p : Processor}

/-- The first bytes are filled. -/
structure Filled (before : Bytes) (s c : BitVec 32) (moved : Nat) (p : Processor) : Prop where
  eax : p.eax = fourTimes (c &&& 0xFF)
  edi : p.edi = s + BitVec.ofNat 32 moved
  memory : p.memory = transfer (fun _ => c.setWidth 8) before s moved

theorem Filled.byte (filled : Filled before s c moved p) (bounded : moved < 2 ^ 32) :
    p.edi + 1 = s + BitVec.ofNat 32 (moved + 1) ∧
      Function.update p.memory p.edi p.al =
        transfer (fun _ => c.setWidth 8) before s (moved + 1) := by
  have al : p.al = c.setWidth 8 := by
    rw [Processor.al, filled.eax]
    exact fourTimes_byte c (Nat.zero_lt_succ 3)
  rw [al, filled.edi, filled.memory]
  exact ⟨offset_add s moved 1, transfer_succ bounded⟩

theorem memset_ends (start : p.eip = 0) (none : p.ecx = 0) :
    Reaches memsetCode p { p with zf := true, eip := 25 } := by
  obtain ⟨eax, ecx, edx, esi, edi, ds, es, zf, df, eip, memory⟩ := p
  cases start
  exact Reaches.exits rfl rfl rfl none rfl rfl

theorem memset_headByte (start : p.eip = 0) (more : p.ecx ≠ 0) (unaligned : 3 &&& p.edi ≠ 0) :
    Reaches memsetCode p
      { p with
        zf := p.ecx - 1 = 0
        edi := p.edi + 1
        ecx := p.ecx - 1
        memory := Function.update p.memory p.edi p.al } := by
  obtain ⟨eax, ecx, edx, esi, edi, ds, es, zf, df, eip, memory⟩ := p
  cases start
  refine Reaches.trans (Reaches.continues rfl rfl rfl more) ?_
  refine Reaches.trans (Reaches.passes rfl rfl unaligned) ?_
  exact Reaches.of_steps 4 rfl

theorem memset_enters (start : p.eip = 0) (more : p.ecx ≠ 0) (aligned : 3 &&& p.edi = 0) :
    Reaches memsetCode p
      { p with
        es := p.ds
        zf := p.ecx &&& 3 = 0
        df := false
        ecx := p.ecx >>> 2
        edx := p.ecx &&& 3
        eip := 16 } := by
  obtain ⟨eax, ecx, edx, esi, edi, ds, es, zf, df, eip, memory⟩ := p
  cases start
  refine Reaches.trans (Reaches.continues rfl rfl rfl more) ?_
  refine Reaches.trans (Reaches.jumps rfl rfl aligned rfl) ?_
  exact splits_count rfl rfl rfl rfl rfl rfl rfl

theorem memset_leaves (atRep : p.eip = 16) (none : p.ecx = 0) :
    Reaches memsetCode p { p with eip := 17 } := by
  obtain ⟨eax, ecx, edx, esi, edi, ds, es, zf, df, eip, memory⟩ := p
  cases atRep
  exact Reaches.repeated (.inl rfl) none

theorem memset_tailByte (atBottom : p.eip = 17) (more : p.edx ≠ 0) :
    Reaches memsetCode p
      { p with
        zf := p.edx - 1 = 0
        edi := p.edi + 1
        edx := p.edx - 1
        memory := Function.update p.memory p.edi p.al } := by
  obtain ⟨eax, ecx, edx, esi, edi, ds, es, zf, df, eip, memory⟩ := p
  cases atBottom
  refine Reaches.trans (Reaches.continues rfl rfl rfl more) ?_
  exact Reaches.of_steps 4 rfl

theorem memset_finishes (atBottom : p.eip = 17) (none : p.edx = 0) :
    Reaches memsetCode p { p with zf := true, eip := 25 } := by
  obtain ⟨eax, ecx, edx, esi, edi, ds, es, zf, df, eip, memory⟩ := p
  cases atBottom
  exact Reaches.exits rfl rfl rfl none rfl rfl

theorem memset_routine (before : Bytes) (s c n : BitVec 32) :
    Routine memsetCode 16 17 n.toNat (Filled before s c) where
  ends start none filled :=
    ⟨_, memset_ends start none, rfl, filled.eax, filled.edi, filled.memory⟩
  headByte start more unaligned inside filled := by
    obtain ⟨edi, memory⟩ := filled.byte (Nat.lt_trans inside n.isLt)
    exact ⟨_, memset_headByte start more unaligned, start, rfl, filled.eax, edi, memory⟩
  enters start more aligned filled :=
    ⟨_, memset_enters start more aligned, rfl, rfl, rfl, rfl, filled.eax, filled.edi,
      filled.memory⟩
  word {moved p} atRep forwards more inside filled := by
    have bound := n.isLt
    have line : memsetCode[p.eip]? = some .repStosl := by
      rw [atRep]
      rfl
    have stride : p.stride = BitVec.ofNat 32 4 := by
      rw [Processor.stride, forwards]
      rfl
    have stored : storeWord p.memory p.edi p.eax =
        transfer (fun _ => c.setWidth 8) before s (moved + 4) := by
      rw [filled.memory, filled.edi, filled.eax]
      exact storeWord_transfer (by omega) fun lane small => fourTimes_byte c small
    have moves : p.edi + p.stride = s + BitVec.ofNat 32 (moved + 4) := by
      rw [filled.edi, stride, offset_add]
    exact ⟨_, Reaches.stosl line more, atRep, forwards, rfl, rfl, filled.eax, moves, stored⟩
  leaves atRep none filled :=
    ⟨_, memset_leaves atRep none, rfl, rfl, filled.eax, filled.edi, filled.memory⟩
  tailByte atBottom more inside filled := by
    obtain ⟨edi, memory⟩ := filled.byte (Nat.lt_trans inside n.isLt)
    exact ⟨_, memset_tailByte atBottom more, atBottom, rfl, filled.eax, edi, memory⟩
  finishes atBottom none filled :=
    ⟨_, memset_finishes atBottom none, rfl, filled.eax, filled.edi, filled.memory⟩

theorem memset_fills (p : Processor) (s c n : BitVec 32) :
    ∃ q, Returns memsetCode (memsetEntry p s c n) q ∧
      q.memory = transfer (fun _ => c.setWidth 8) p.memory s n.toNat := by
  have initial : Filled p.memory s c 0 (memsetEntry p s c n) :=
    ⟨rfl, (BitVec.add_zero s).symm, transfer_zero.symm⟩
  obtain ⟨q, returned, filled⟩ := (memset_routine p.memory s c n).moves rfl rfl initial
  exact ⟨q, returned, filled.memory⟩

end Memset

section Memcpy

variable {before : Bytes} {dest src n : BitVec 32} {moved : Nat} {p : Processor}

/-- No byte of the source is one of the destination. -/
def Apart (dest src n : BitVec 32) : Prop :=
  ∀ i < n.toNat, ∀ j < n.toNat, dest + BitVec.ofNat 32 i ≠ src + BitVec.ofNat 32 j

/-- The first bytes are copied. -/
structure Copied (before : Bytes) (dest src : BitVec 32) (moved : Nat) (p : Processor) : Prop where
  edi : p.edi = dest + BitVec.ofNat 32 moved
  esi : p.esi = src + BitVec.ofNat 32 moved
  memory : p.memory = transfer (fun offset => before (src + offset)) before dest moved

/-- What is still to be copied is as it was. -/
theorem Copied.source (copied : Copied before dest src moved p) (apart : Apart dest src n)
    {lane : Nat} (inside : moved + lane < n.toNat) :
    p.memory (p.esi + BitVec.ofNat 32 lane) = before (src + BitVec.ofNat 32 (moved + lane)) := by
  rw [copied.esi, copied.memory, offset_add]
  apply transfer_outside
  intro i below
  exact (apart i (by omega) _ inside).symm

theorem Copied.byte (copied : Copied before dest src moved p) (apart : Apart dest src n)
    (inside : moved < n.toNat) :
    p.edi + 1 = dest + BitVec.ofNat 32 (moved + 1) ∧
      p.esi + 1 = src + BitVec.ofNat 32 (moved + 1) ∧
      Function.update p.memory p.edi (p.memory p.esi) =
        transfer (fun offset => before (src + offset)) before dest (moved + 1) := by
  have loaded : p.memory (p.esi + BitVec.ofNat 32 0) =
      before (src + BitVec.ofNat 32 (moved + 0)) := copied.source apart inside
  rw [BitVec.add_zero, Nat.add_zero] at loaded
  rw [loaded, copied.edi, copied.esi, copied.memory]
  exact ⟨offset_add dest moved 1, offset_add src moved 1,
    transfer_succ (Nat.lt_trans inside n.isLt)⟩

/-- The lines that copy one byte. -/
theorem copies_byte (loads : code[p.eip]? = some (.movbFrom .esi))
    (stores : code[p.eip + 1]? = some (.movbTo .edi)) (counts : code[p.eip + 2]? = some (.addl 1 .edi))
    (countsSource : code[p.eip + 3]? = some (.addl 1 .esi)) :
    Reaches code p
      { p with
        eax := Processor.low p.eax (p.memory p.esi)
        zf := p.esi + 1 = 0
        edi := p.edi + 1
        esi := p.esi + 1
        eip := p.eip + 4
        memory := Function.update p.memory p.edi (p.memory p.esi) } := by
  have loaded : (Processor.low p.eax (p.memory p.esi)).extractLsb' 0 8 = p.memory p.esi :=
    extract_low p.eax (p.memory p.esi) (by decide)
  have moved : Reaches code p
      { p with
        eax := Processor.low p.eax (p.memory p.esi)
        eip := p.eip + 2
        memory := Function.update p.memory p.edi
          ((Processor.low p.eax (p.memory p.esi)).extractLsb' 0 8) } :=
    Reaches.trans (Reaches.line loads rfl) (Reaches.line stores rfl)
  rw [loaded] at moved
  refine Reaches.trans moved ?_
  refine Reaches.trans (Reaches.line counts rfl) ?_
  exact Reaches.line countsSource rfl

theorem memcpy_ends (start : p.eip = 0) (none : p.ecx = 0) :
    Reaches memcpyCode p { p with zf := true, eip := 29 } := by
  obtain ⟨eax, ecx, edx, esi, edi, ds, es, zf, df, eip, memory⟩ := p
  cases start
  exact Reaches.exits rfl rfl rfl none rfl rfl

theorem memcpy_headByte (start : p.eip = 0) (more : p.ecx ≠ 0) (unaligned : 3 &&& p.edi ≠ 0) :
    Reaches memcpyCode p
      { p with
        eax := Processor.low p.eax (p.memory p.esi)
        zf := p.ecx - 1 = 0
        edi := p.edi + 1
        esi := p.esi + 1
        ecx := p.ecx - 1
        memory := Function.update p.memory p.edi (p.memory p.esi) } := by
  obtain ⟨eax, ecx, edx, esi, edi, ds, es, zf, df, eip, memory⟩ := p
  cases start
  refine Reaches.trans (Reaches.continues rfl rfl rfl more) ?_
  refine Reaches.trans (Reaches.passes rfl rfl unaligned) ?_
  refine Reaches.trans (copies_byte rfl rfl rfl rfl) ?_
  exact Reaches.of_steps 2 rfl

theorem memcpy_enters (start : p.eip = 0) (more : p.ecx ≠ 0) (aligned : 3 &&& p.edi = 0) :
    Reaches memcpyCode p
      { p with
        es := p.ds
        zf := p.ecx &&& 3 = 0
        df := false
        ecx := p.ecx >>> 2
        edx := p.ecx &&& 3
        eip := 18 } := by
  obtain ⟨eax, ecx, edx, esi, edi, ds, es, zf, df, eip, memory⟩ := p
  cases start
  refine Reaches.trans (Reaches.continues rfl rfl rfl more) ?_
  refine Reaches.trans (Reaches.jumps rfl rfl aligned rfl) ?_
  exact splits_count rfl rfl rfl rfl rfl rfl rfl

theorem memcpy_leaves (atRep : p.eip = 18) (none : p.ecx = 0) :
    Reaches memcpyCode p { p with eip := 19 } := by
  obtain ⟨eax, ecx, edx, esi, edi, ds, es, zf, df, eip, memory⟩ := p
  cases atRep
  exact Reaches.repeated (.inr rfl) none

theorem memcpy_tailByte (atBottom : p.eip = 19) (more : p.edx ≠ 0) :
    Reaches memcpyCode p
      { p with
        eax := Processor.low p.eax (p.memory p.esi)
        zf := p.edx - 1 = 0
        edi := p.edi + 1
        esi := p.esi + 1
        edx := p.edx - 1
        memory := Function.update p.memory p.edi (p.memory p.esi) } := by
  obtain ⟨eax, ecx, edx, esi, edi, ds, es, zf, df, eip, memory⟩ := p
  cases atBottom
  refine Reaches.trans (Reaches.continues rfl rfl rfl more) ?_
  refine Reaches.trans (copies_byte rfl rfl rfl rfl) ?_
  exact Reaches.of_steps 2 rfl

theorem memcpy_finishes (atBottom : p.eip = 19) (none : p.edx = 0) :
    Reaches memcpyCode p { p with zf := true, eip := 29 } := by
  obtain ⟨eax, ecx, edx, esi, edi, ds, es, zf, df, eip, memory⟩ := p
  cases atBottom
  exact Reaches.exits rfl rfl rfl none rfl rfl

theorem memcpy_routine (before : Bytes) (apart : Apart dest src n) :
    Routine memcpyCode 18 19 n.toNat (Copied before dest src) where
  ends start none copied :=
    ⟨_, memcpy_ends start none, rfl, copied.edi, copied.esi, copied.memory⟩
  headByte start more unaligned inside copied := by
    obtain ⟨edi, esi, memory⟩ := copied.byte apart inside
    exact ⟨_, memcpy_headByte start more unaligned, start, rfl, edi, esi, memory⟩
  enters start more aligned copied :=
    ⟨_, memcpy_enters start more aligned, rfl, rfl, rfl, rfl, copied.edi, copied.esi,
      copied.memory⟩
  word {moved p} atRep forwards more inside copied := by
    have bound := n.isLt
    have line : memcpyCode[p.eip]? = some .repMovsl := by
      rw [atRep]
      rfl
    have stride : p.stride = BitVec.ofNat 32 4 := by
      rw [Processor.stride, forwards]
      rfl
    have bytes : ∀ lane < 4, (loadWord p.memory p.esi).extractLsb' (8 * lane) 8 =
        before (src + BitVec.ofNat 32 (moved + lane)) := by
      intro lane small
      rw [loadWord_byte p.memory p.esi small]
      exact copied.source apart (by omega)
    have stored : storeWord p.memory p.edi (loadWord p.memory p.esi) =
        transfer (fun offset => before (src + offset)) before dest (moved + 4) := by
      generalize loadWord p.memory p.esi = value at bytes
      rw [copied.memory, copied.edi]
      exact storeWord_transfer (by omega) bytes
    have movesDest : p.edi + p.stride = dest + BitVec.ofNat 32 (moved + 4) := by
      rw [copied.edi, stride, offset_add]
    have movesSource : p.esi + p.stride = src + BitVec.ofNat 32 (moved + 4) := by
      rw [copied.esi, stride, offset_add]
    exact ⟨_, Reaches.movsl line more, atRep, forwards, rfl, rfl, movesDest, movesSource, stored⟩
  leaves atRep none copied :=
    ⟨_, memcpy_leaves atRep none, rfl, rfl, copied.edi, copied.esi, copied.memory⟩
  tailByte atBottom more inside copied := by
    obtain ⟨edi, esi, memory⟩ := copied.byte apart inside
    exact ⟨_, memcpy_tailByte atBottom more, atBottom, rfl, edi, esi, memory⟩
  finishes atBottom none copied :=
    ⟨_, memcpy_finishes atBottom none, rfl, copied.edi, copied.esi, copied.memory⟩

theorem memcpy_copies (p : Processor) (apart : Apart dest src n) :
    ∃ q, Returns memcpyCode (memcpyEntry p dest src n) q ∧
      q.memory = transfer (fun offset => p.memory (src + offset)) p.memory dest n.toNat := by
  have initial : Copied p.memory dest src 0 (memcpyEntry p dest src n) :=
    ⟨(BitVec.add_zero dest).symm, (BitVec.add_zero src).symm, transfer_zero.symm⟩
  obtain ⟨q, returned, copied⟩ := (memcpy_routine p.memory apart).moves rfl rfl initial
  exact ⟨q, returned, copied.memory⟩

end Memcpy

/-- `memset` and `memcpy` return, and leave what a loop over the bytes would. -/
theorem memory_routines (p : Processor) :
    (∀ s c n : BitVec 32, ∃ q, Returns memsetCode (memsetEntry p s c n) q ∧
      (∀ i < n.toNat, q.memory (s + BitVec.ofNat 32 i) = BitVec.ofNat 8 (c.toNat % 256)) ∧
      ∀ address, (∀ i < n.toNat, address ≠ s + BitVec.ofNat 32 i) →
        q.memory address = p.memory address) ∧
      ∀ dest src n : BitVec 32, Apart dest src n →
        ∃ q, Returns memcpyCode (memcpyEntry p dest src n) q ∧
          (∀ i < n.toNat, q.memory (dest + BitVec.ofNat 32 i) =
            p.memory (src + BitVec.ofNat 32 i)) ∧
          ∀ address, (∀ i < n.toNat, address ≠ dest + BitVec.ofNat 32 i) →
            q.memory address = p.memory address := by
  constructor
  · intro s c n
    obtain ⟨q, returned, memory⟩ := memset_fills p s c n
    have low : c.setWidth 8 = BitVec.ofNat 8 (c.toNat % 256) := by
      apply BitVec.eq_of_toNat_eq
      rw [BitVec.toNat_setWidth, BitVec.toNat_ofNat]
      omega
    refine ⟨q, returned, fun i inside => ?_, fun address outside => ?_⟩
    · rw [memory, transfer_inside inside (Nat.le_of_lt n.isLt), low]
    · rw [memory, transfer_outside outside]
  · intro dest src n apart
    obtain ⟨q, returned, memory⟩ := memcpy_copies p apart
    refine ⟨q, returned, fun i inside => ?_, fun address outside => ?_⟩
    · rw [memory, transfer_inside inside (Nat.le_of_lt n.isLt)]
    · rw [memory, transfer_outside outside]

/-- A processor with every address in its own byte. -/
def countingProcessor : Processor where
  eax := 0
  ecx := 0
  edx := 0
  esi := 0
  edi := 0
  ds := 0x18
  es := 0x18
  zf := false
  df := true
  eip := 0
  memory address := address.setWidth 8

theorem countingProcessor_apart : Apart 4099 8194 11 := by
  intro i inside j behind same
  have addresses := congrArg BitVec.toNat same
  rw [BitVec.toNat_add, BitVec.toNat_add, BitVec.toNat_ofNat, BitVec.toNat_ofNat] at addresses
  have small : i < 11 ∧ j < 11 := ⟨inside, behind⟩
  change (4099 + i % 2 ^ 32) % 2 ^ 32 = (8194 + j % 2 ^ 32) % 2 ^ 32 at addresses
  omega

/-- One byte to the alignment, two words and two bytes. -/
theorem memory_routines_apart :
    ∃ q, Returns memcpyCode (memcpyEntry countingProcessor 4099 8194 11) q ∧
      q.memory 4109 = 12 ∧ q.memory 4110 = 14 := by
  obtain ⟨q, returned, inside, outside⟩ :=
    (memory_routines countingProcessor).2 4099 8194 11 countingProcessor_apart
  refine ⟨q, returned, inside 10 (by decide), outside 4110 fun i below same => ?_⟩
  have addresses := congrArg BitVec.toNat same
  rw [BitVec.toNat_add, BitVec.toNat_ofNat] at addresses
  have small : i < 11 := below
  change 4110 = (4099 + i % 2 ^ 32) % 2 ^ 32 at addresses
  omega

end Ece391
