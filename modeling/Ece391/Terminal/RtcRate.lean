import Ece391.Terminal.Output
import Ece391.Terminal.UserPointers

namespace Ece391

open Library Kernel

/-! # Setting the rate of the RTC -/

instance (address : Nat) : Decidable (InUserPage address) :=
  inferInstanceAs (Decidable (_ ∧ _))

instance (address : Nat) : Decidable (InKernelPages address) :=
  inferInstanceAs (Decidable (_ ∧ _ ∨ _ ∧ _))

instance (address : Nat) : Decidable (Present address) :=
  inferInstanceAs (Decidable (_ ∨ _))

/-- What a process sees from a pointer on. -/
def memoryAt (memory : Nat → Byte) (pointer : Nat) : UserMemory := fun i =>
  if Present (addressOf pointer i) then some (memory (addressOf pointer i)) else none

/-- Page 0 is absent, so no string goes all the way around. -/
theorem strlen_memoryAt_bound {memory : Nat → Byte} {pointer length : Nat}
    (fits : pointer < 4294967296) (measured : strlen (memoryAt memory pointer) = .done length) :
    length < 4294967295 := by
  obtain ⟨bound, nonzero, ended⟩ := strlen_eq_done.mp measured
  by_contra around
  have isLast : length = 4294967295 := by omega
  -- one of the two addresses 0 and 1 is met before the end
  obtain ⟨i, below, absent⟩ : ∃ i < 4294967295, addressOf pointer i = 0 ∨ addressOf pointer i = 1 := by
    by_cases near : pointer < 2
    · refine ⟨0, by decide, ?_⟩
      simp only [addressOf, wrap]
      omega
    · refine ⟨4294967296 - pointer, by omega, .inl ?_⟩
      simp only [addressOf, wrap]
      omega
  obtain ⟨byte, present, _⟩ := nonzero i (by omega)
  have missing : ¬ Present (addressOf pointer i) := by
    intro here
    unfold Present InKernelPages InUserPage USER_START at here
    omega
  rw [memoryAt, if_neg missing] at present
  cases present

section Registers

variable (regA : Byte)

/-- A mask distributes over the bits set. -/
theorem mask_or (bits mask : Byte) :
    (regA ||| bits) &&& mask = regA &&& mask ||| bits &&& mask := by
  apply UInt8.toBitVec_inj.mp
  simp only [UInt8.toBitVec_and, UInt8.toBitVec_or]
  exact BitVec.and_or_distrib_right

theorem divided_high : ((regA &&& 0xF0) ||| 12) &&& 0xF0 = regA &&& 0xF0 := by
  rw [mask_or, UInt8.and_assoc, UInt8.and_self]
  exact UInt8.or_zero

theorem divided_low : ((regA &&& 0xF0) ||| 12) &&& 0x0F = 12 := by
  have cleared : (0xF0 &&& 0x0F : Byte) = 0 := rfl
  rw [mask_or, UInt8.and_assoc, cleared, UInt8.and_zero]
  rfl

end Registers

variable {kernel : Kernel} {cur fd pointer freq : Nat} {memory : Nat → Byte}
  {cached : Nat → Bool}

/-- The frequencies of the RTC. -/
def RtcFrequency (freq : Nat) : Prop := ∃ k, 1 ≤ k ∧ k ≤ 10 ∧ freq = 2 ^ k

/-- The driver is set to `freq`, or refuses it. -/
def SetsRate (kernel : Kernel) (cached : Nat → Bool) (fd : Nat) (buf : UserMemory) (freq : Nat) :
    Prop :=
  ∃ value printed after, kernel.sysWrite cached fd buf 4 = .done (value, printed, after) ∧
    (RtcFrequency freq → after.rtcRegA &&& 0xF0 = kernel.rtcRegA &&& 0xF0 ∧
      32768 >>> ((after.rtcRegA &&& 0x0F).toNat - 1) = freq) ∧
    (¬ RtcFrequency freq → value = -1 ∧ after.rtcRegA = kernel.rtcRegA ∧
      after.rtcRegB = kernel.rtcRegB)

/-- The state that four bytes leave, whatever they are. -/
def fourWritten (kernel : Kernel) : Kernel :=
  { kernel with
    rtcRegA := (kernel.rtcRegA &&& 0xF0) ||| 12
    rtcRegB := kernel.rtcRegB ||| 0x40 }

theorem rtcWrite_four (kernel : Kernel) : kernel.rtcWrite 4 = (0, fourWritten kernel) := rfl

/-- An open descriptor of the RTC. -/
structure RtcOpen (kernel : Kernel) (cur fd : Nat) : Prop where
  low : 2 ≤ fd
  high : fd ≤ 7
  flags : ((kernel.pcb cur).fd fd).flags ≠ 0
  driver : ((kernel.pcb cur).fd fd).sysopsPtr = .rtcOps

theorem sysWrite_rtc (cached : Nat → Bool) (current : findProgramid kernel.cr3 = .done cur)
    (rtcOpen : RtcOpen kernel cur fd) (buf : UserMemory) :
    kernel.sysWrite cached fd buf 4 = do
      let length ← strlen buf
      return (int32 length, [], fourWritten kernel) := by
  have allowed : ¬ ((fd : Int) < 0 ∨ (fd : Int) > 7 ∨ (fd : Int) = 0 ∨
      ((kernel.pcb cur).fd (fd : Int).toNat).flags = 0) := by
    intro refused
    have low := rtcOpen.low
    have high := rtcOpen.high
    rcases refused with negative | beyond | zero | free
    · omega
    · omega
    · omega
    · exact rtcOpen.flags free
  have driver : ((kernel.pcb cur).fd (fd : Int).toNat).sysopsPtr = .rtcOps := rtcOpen.driver
  rw [sysWrite, current, Outcome.done_bind]
  dsimp only
  rw [if_neg allowed, driver, driverWrite, rtcWrite_four, Outcome.done_bind]
  exact if_pos rfl

/-- A write of four bytes sets the rate to the frequency they hold if and only if
this is 16. -/
theorem rtc_sets_rate_iff (current : findProgramid kernel.cr3 = .done cur)
    (rtcOpen : RtcOpen kernel cur fd) (fits : pointer < 4294967296)
    (inside : DestinationInside pointer 4)
    (stored : ∀ i < 4, memory (addressOf pointer i) = UInt8.ofNat (freq / 256 ^ i)) :
    SetsRate kernel cached fd (memoryAt memory pointer) freq ↔ freq = 16 := by
  have written := sysWrite_rtc cached current rtcOpen (memoryAt memory pointer)
  constructor
  · intro sets
    obtain ⟨value, printed, after, done, accepted, refused⟩ := sets
    rw [written] at done
    obtain ⟨length, measured, returned⟩ := Outcome.bind_eq_done.mp done
    cases returned
    by_cases known : RtcFrequency freq
    · obtain ⟨_, rate⟩ := accepted known
      dsimp only [fourWritten] at rate
      rw [divided_low] at rate
      exact rate.symm
    · obtain ⟨minusOne, _⟩ := refused known
      have bound := strlen_memoryAt_bound fits measured
      unfold int32 at minusOne
      split at minusOne
      · omega
      · omega
  · intro sixteen
    subst sixteen
    have loaded : ∀ i < 4, memoryAt memory pointer i = some (UInt8.ofNat (16 / 256 ^ i)) := by
      intro i below
      have present : Present (addressOf pointer i) := .inr (inside i (by omega))
      rw [memoryAt, if_pos present, stored i below]
    have measured : strlen (memoryAt memory pointer) = .done 1 := by
      refine strlen_eq_done.mpr ⟨by decide, fun j below => ?_, loaded 1 (by decide)⟩
      obtain rfl : j = 0 := by omega
      exact ⟨16, loaded 0 (by decide), by decide⟩
    rw [measured] at written
    have known : RtcFrequency 16 := ⟨4, by decide, by decide, rfl⟩
    refine ⟨_, _, _, written, fun _ => ⟨divided_high kernel.rtcRegA, ?_⟩, absurd known⟩
    dsimp only [fourWritten]
    rw [divided_low]
    rfl

/-- The four bytes of a small number on the stack of a program. -/
theorem storedWord_exists (freq : Nat) (small : freq < 256) :
    ∃ memory : Nat → Byte, DestinationInside 0x83FFFF0 4 ∧
      ∀ i < 4, memory (addressOf 0x83FFFF0 i) = UInt8.ofNat (freq / 256 ^ i) := by
  refine ⟨fun address => if address = 0x83FFFF0 then UInt8.ofNat freq else 0, ?_, ?_⟩
  · intro i below
    have near : i < 4 := by omega
    simp only [InUserPage, addressOf, wrap, USER_START, USER_END]
    omega
  · intro i near
    cases i with
    | zero => simp [addressOf, wrap]
    | succ i =>
        have above : addressOf 0x83FFFF0 (i + 1) ≠ 0x83FFFF0 := by
          simp only [addressOf, wrap]
          omega
        have nothing : freq / 256 ^ (i + 1) = 0 := by
          rw [pow_succ', ← Nat.div_div_eq_div_mul, Nat.div_eq_of_lt small, Nat.zero_div]
        dsimp only
        rw [if_neg above, nothing]
        rfl

theorem rtcOpen_exists : ∃ kernel : Kernel, findProgramid kernel.cr3 = .done 1 ∧
    RtcOpen kernel 1 2 := by
  let pcb := (zeroedMemory.pcb 1).setFd 2 ⟨fun _ => 0, 0, 0, 1, .rtcOps⟩
  exact ⟨{ zeroedMemory.setPcb 1 pcb with cr3 := .task1PageDirectory }, rfl,
    ⟨by decide, by decide, Nat.one_ne_zero, rfl⟩⟩

/-- The rate that fish and pingpong ask for. -/
theorem rtc_sets_rate_iff_fish :
    ∃ (kernel : Kernel) (memory : Nat → Byte), RtcOpen kernel 1 2 ∧
      (SetsRate kernel (fun _ => false) 2 (memoryAt memory 0x83FFFF0) 32 ↔ 32 = 16) := by
  obtain ⟨kernel, current, rtcOpen⟩ := rtcOpen_exists
  obtain ⟨memory, inside, stored⟩ := storedWord_exists 32 (by decide)
  exact ⟨kernel, memory, rtcOpen, rtc_sets_rate_iff current rtcOpen (by decide) inside stored⟩

theorem rtc_ignores_fish :
    ∃ (kernel : Kernel) (memory : Nat → Byte), findProgramid kernel.cr3 = .done 1 ∧
      RtcOpen kernel 1 2 ∧ DestinationInside 0x83FFFF0 4 ∧
      (∀ i < 4, memory (addressOf 0x83FFFF0 i) = UInt8.ofNat (32 / 256 ^ i)) ∧
      ¬ SetsRate kernel (fun _ => false) 2 (memoryAt memory 0x83FFFF0) 32 := by
  obtain ⟨kernel, current, rtcOpen⟩ := rtcOpen_exists
  obtain ⟨memory, inside, stored⟩ := storedWord_exists 32 (by decide)
  refine ⟨kernel, memory, current, rtcOpen, inside, stored, ?_⟩
  intro sets
  obtain ⟨value, printed, after, done, accepted, _⟩ := sets
  rw [sysWrite_rtc _ current rtcOpen] at done
  obtain ⟨length, _, returned⟩ := Outcome.bind_eq_done.mp done
  cases returned
  obtain ⟨_, rate⟩ := accepted ⟨5, by decide, by decide, rfl⟩
  dsimp only [fourWritten] at rate
  rw [divided_low] at rate
  exact absurd rate (by decide)

end Ece391
