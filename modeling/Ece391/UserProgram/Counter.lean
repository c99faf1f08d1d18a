import Ece391.Lib.Itoa
import Ece391.UserProgram.Hello

namespace Ece391

open Library Kernel

/-! # ece391counter.c -/

namespace Counter

def BUFSIZE : Nat := 1024

def enterTestNumber : CString :=
  ⟨bytesOf "Enter the Test Number: (0): 100, (1): 10000, (2): 100000\n", by decide +kernel⟩

def cantReadNumber : CString :=
  ⟨bytesOf "Can't read the number from keyboard.\n", by decide +kernel⟩

def wrongChoice : CString := ⟨bytesOf "Wrong Choice!\n", by decide +kernel⟩

def newline : CString := ⟨bytesOf "\n", by decide +kernel⟩

/-- The bound that a string of `length` bytes chooses; `none` is a wrong choice. -/
def maxOf (length : Nat) (first : Byte) : Option Nat :=
  if length > 2 ∨ length = 2 ∧ (first < 48 ∨ first > 50) then none
  else if first = 48 then some 100
  else if first = 49 then some 10000
  else if first = 50 then some 100000
  else some 0

/-- One round of the loop; a number has at most 32 digits. -/
def round (max : Nat) : Nat × (Nat → Byte) → UserProgram ((Nat × (Nat → Byte)) ⊕ Int)
  | (i, buf) =>
      if i < max then
        match ece391Itoa 33 (BitVec.ofNat 32 (i + 1)) buf 0 10 with
        | some buf => do
            ece391Fdputs 1 (arrayMemory buf BUFSIZE)
            ece391Fdputs 1 newline.memory
            return .inl (i + 1, buf)
        | none => .cut
      else return .inr 0

def main (fuel : Nat) (buf : Nat → Byte) : UserProgram Int := do
  ece391Fdputs 1 enterTestNumber.memory
  let (cnt, buf) ← ece391Read 0 buf (BUFSIZE - 1)
  if cnt = -1 then do
    ece391Fdputs 1 cantReadNumber.memory
    return 3
  else if 0 ≤ cnt ∧ cnt < BUFSIZE then
    let buf := Function.update buf cnt.toNat 0
    match ece391Strlen (arrayMemory buf BUFSIZE) with
    | .done length =>
        match maxOf length (buf 0) with
        | some max => Program.loop (round max) fuel (0, buf)
        | none => do
            ece391Fdputs 1 wrongChoice.memory
            return 0
    | _ => .cut
  else .cut

/-- The numbers from 1 on, one a line. -/
def numbers (max : Nat) : List Byte :=
  (List.range max).flatMap fun i => numeralText 10 (i + 1) ++ [10]

/-- What `counter` answers to a line, of which it sees what is before a NUL. -/
def answer (line : List Byte) : List Byte :=
  let string := line.takeWhile (· ≠ 0)
  match maxOf string.length (string.headD 0) with
  | some max => numbers max
  | none => wrongChoice.bytes

/-- A line that chooses nothing counts to 0. -/
example : answer [10] = [] := by decide +kernel

variable {image : Image} {behind : BehindTables} {view : ProcessView} {cur index i max : Nat}
  {pcbs : Nat → Pcb} {heard printed : List Byte} {buf : Nat → Byte}

theorem maxOf_le {length : Nat} {first : Byte} (chosen : maxOf length first = some max) :
    max ≤ 100000 := by
  simp only [maxOf] at chosen
  split at chosen
  · cases chosen
  · split at chosen
    · cases chosen
      decide
    · split at chosen
      · cases chosen
        decide
      · split at chosen
        · cases chosen
          decide
        · cases chosen
          decide

theorem round_counts (holding : Holding image behind cur pcbs index heard (printed ++ numbers i) view)
    (more : i < max) (small : max ≤ 100000) :
    Program.Meets (kernelContract image behind)
      (fun outcome next => ∃ buf, outcome = .inl (i + 1, buf) ∧
        Holding image behind cur pcbs index heard (printed ++ numbers (i + 1)) next)
      (round max (i, buf)) view := by
  have fits : (33 : Nat) < BUFSIZE := by decide
  obtain ⟨after, writes, written⟩ := ece391Itoa_writes (BitVec.ofNat 32 (i + 1)) 10
    (by decide) (by decide) (show 32 < 33 by decide) buf 0
  have value : (BitVec.ofNat 32 (i + 1)).toNat = i + 1 := by
    rw [BitVec.toNat_ofNat]
    exact Nat.mod_eq_of_lt (by omega)
  have digits : (numeralText 10 (BitVec.ofNat 32 (i + 1)).toNat).length ≤ 32 :=
    numeralText_length_le (by decide)
  rw [value] at written digits
  have room : (numeralText 10 (i + 1)).length < BUFSIZE := by omega
  have measured := strlen_array written.stored (numeralText_nonzero (by decide) (by decide)) room
    (by decide)
  simp only [round, if_pos more, writes]
  refine Program.meets_bind.mpr ((holding.puts measured (by omega)
    (array_bytes written.stored room)).mono fun _ shown held => ?_)
  refine Program.meets_bind.mpr ((held.putsMessage (by decide +kernel)).mono fun _ next last => ?_)
  refine ⟨after, rfl, ?_⟩
  rw [numbers, List.range_succ, List.flatMap_append, List.flatMap_singleton]
  have newlineBytes : newline.bytes = [10] := by decide +kernel
  rw [newlineBytes] at last
  simp only [numbers, List.append_assoc] at last ⊢
  exact last

theorem loop_counts (holding : Holding image behind cur pcbs index heard printed view)
    (small : max ≤ 100000) {fuel : Nat} (enough : max < fuel) :
    Program.Meets (kernelContract image behind)
      (fun value next => value = 0 ∧
        Holding image behind cur pcbs index heard (printed ++ numbers max) next)
      (Program.loop (round max) fuel (0, buf)) view := by
  have rounds : ∀ (start : Nat × (Nat → Byte)) (view : ProcessView),
      (start.1 ≤ max ∧
        Holding image behind cur pcbs index heard (printed ++ numbers start.1) view) →
      Program.Meets (kernelContract image behind)
        (fun outcome next => outcome.elim
          (fun again => (again.1 ≤ max ∧
              Holding image behind cur pcbs index heard (printed ++ numbers again.1) next) ∧
            max - again.1 < max - start.1)
          (fun value => value = 0 ∧
            Holding image behind cur pcbs index heard (printed ++ numbers max) next))
        (round max start) view := by
    intro start view counted
    obtain ⟨i, buf⟩ := start
    obtain ⟨within, holding⟩ := counted
    dsimp only at within holding ⊢
    by_cases more : i < max
    · refine (round_counts holding more small).mono fun outcome next kept => ?_
      obtain ⟨after, rfl, held⟩ := kept
      exact ⟨⟨more, held⟩, by omega⟩
    · obtain rfl : i = max := by omega
      simp only [round, if_neg more]
      exact ⟨rfl, holding⟩
  have initial : 0 ≤ max ∧
      Holding image behind cur pcbs index heard (printed ++ numbers 0) view := by
    refine ⟨Nat.zero_le _, ?_⟩
    rw [numbers, List.range_zero, List.flatMap_nil, List.append_nil]
    exact holding
  exact Program.Meets.loop_of_measure rounds initial (by omega)

theorem main_counts (holding : Holding image behind cur pcbs index heard printed view)
    (reads : ReadsKeyboard (pcbs cur) 0) {fuel : Nat} (enough : 100000 < fuel) :
    Program.Meets (kernelContract image behind)
      (fun value next => value = 0 ∧
        Hello.Answered image behind cur pcbs index heard printed
          (fun line => enterTestNumber.bytes ++ answer line) next)
      (main fuel buf) view := by
  refine Program.meets_bind.mpr ((holding.putsMessage (by decide +kernel)).mono
    fun _ asked held => ?_)
  refine Program.meets_bind.mpr ((held.readsLine reads buf).mono fun reply next answered => ?_)
  obtain ⟨text, short, rfl, after⟩ := answered
  have room : (text ++ [10]).length < BUFSIZE := Nat.lt_of_le_of_lt short (by decide)
  have noError : ¬ ((text ++ [10]).length : Int) = -1 := by omega
  dsimp only
  rw [if_neg noError, if_pos ⟨Int.natCast_nonneg _, Int.ofNat_lt.mpr room⟩, Int.toNat_natCast,
    delivered_ended]
  rw [delivered_strlen room (by decide) buf, stored_first (delivered_string (text ++ [10]) buf)]
  dsimp only
  cases chosen : maxOf ((text ++ [10]).takeWhile (· ≠ 0)).length
      (((text ++ [10]).takeWhile (· ≠ 0)).headD 0) with
  | some max =>
      have small := maxOf_le chosen
      refine (loop_counts after small (by omega)).mono fun value final counted => ?_
      refine ⟨counted.1, text, short, ?_⟩
      simp only [answer, chosen]
      rw [← List.append_assoc printed]
      exact counted.2
  | none =>
      refine Program.meets_bind.mpr ((after.putsMessage (by decide +kernel)).mono
        fun _ final shown => ?_)
      refine ⟨rfl, text, short, ?_⟩
      simp only [answer, chosen]
      rw [← List.append_assoc printed]
      exact shown

/-- `counter` reads a line and prints the canonical decimal numerals from 1 to the
number that the line chooses, each on its line. -/
theorem counter_counts {driver : TerminalDriver} {command : CString} {frame : CallFrame}
    {entry : Word} {kernel : Kernel} {fuel : Nat}
    (reachable : ConsoleReachable image behind driver) (short : ShortCommand command)
    (executed : driver.kernel.execute image (some command) frame = .done (.iret entry, kernel))
    (enough : 100000 < fuel) (buf : Nat → Byte) :
    ∃ slot, findProgramid kernel.cr3 = .done slot ∧
      Program.Completes (kernelContract image behind)
        (fun value final => value = 0 ∧
          (∃ text : List Byte, (text ++ [10]).length ≤ NUM_CHARS ∧ final.heard = text ++ [10] ∧
            final.printed = enterTestNumber.bytes ++ answer (text ++ [10])) ∧
          RunsAs image behind slot final.driver ∧ final.driver.kernel.pcb = kernel.pcb)
        (main fuel buf) ⟨{ driver with kernel }, [], []⟩ := by
  obtain ⟨slot, started⟩ := execute_started reachable short executed
  refine ⟨slot, started.running.current, ?_⟩
  refine completes_of_meets ((main_counts started.holding started.stdin enough).mono
    fun value final counted => ?_)
  obtain ⟨zero, text, bounded, holding⟩ := counted
  exact ⟨zero, ⟨text, bounded, holding.heard, holding.printed⟩, holding.running, holding.pcb⟩

theorem counter_counts_shell :
    ∃ driver entry kernel, ConsoleReachable shellImage zeroedTables driver ∧
      driver.kernel.execute shellImage (some shellCommand) zeroedFrame =
        .done (.iret entry, kernel) ∧
      ∃ slot, findProgramid kernel.cr3 = .done slot ∧
        Program.Completes (kernelContract shellImage zeroedTables)
          (fun value final => value = 0 ∧
            (∃ text : List Byte, (text ++ [10]).length ≤ NUM_CHARS ∧ final.heard = text ++ [10] ∧
              final.printed = enterTestNumber.bytes ++ answer (text ++ [10])) ∧
            RunsAs shellImage zeroedTables slot final.driver ∧
            final.driver.kernel.pcb = kernel.pcb)
          (main 100001 fun _ => 0) ⟨{ driver with kernel }, [], []⟩ := by
  have short : ShortCommand shellCommand := ⟨by decide, by decide⟩
  have name : commandName shellCommand = shellCommand := by decide
  obtain ⟨driver, entry, kernel, reachable, executed, _⟩ :=
    bootedShell_executes shellImage_valid zeroedTables name short
  exact ⟨driver, entry, kernel, reachable, executed,
    counter_counts reachable short executed (Nat.lt_succ_self _) fun _ => 0⟩

end Counter

end Ece391
