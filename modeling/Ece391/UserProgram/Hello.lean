import Ece391.Library.Block
import Ece391.UserProgram.Keyboard
import Ece391.UserProgram.Launch

namespace Ece391

open Library Kernel

/-! # ece391hello.c

A line that was typed is a string in the buffer of the program.
-/

/-- An array by itself: a load from behind it leaves the model. -/
def arrayMemory (buf : Nat → Byte) (size : Nat) : UserMemory := onStack buf size fun _ => none

namespace Hello

def BUFSIZE : Nat := 1024

def whatsYourName : CString := ⟨bytesOf "Hi, what's your name? ", by decide +kernel⟩

def cantReadName : CString := ⟨bytesOf "Can't read name from keyboard.\n", by decide +kernel⟩

def greeting : CString := ⟨bytesOf "Hello, ", by decide +kernel⟩

def main (buf : Nat → Byte) : UserProgram Int := do
  ece391Fdputs 1 whatsYourName.memory
  let (cnt, buf) ← ece391Read 0 buf (BUFSIZE - 1)
  if cnt = -1 then do
    ece391Fdputs 1 cantReadName.memory
    return 3
  else if 0 ≤ cnt ∧ cnt < BUFSIZE then do
    let buf := Function.update buf cnt.toNat 0
    ece391Fdputs 1 greeting.memory
    ece391Fdputs 1 (arrayMemory buf BUFSIZE)
    return 0
  else .cut

end Hello

variable {buf : Nat → Byte} {text line : List Byte} {size : Nat}

theorem stored_memory (stored : Stored buf 0 (text ++ [0])) (fits : text.length < size) (j : Nat)
    (within : j ≤ text.length) : arrayMemory buf size j = some ((text ++ [0]).getD j 0) := by
  have inside : j < (text ++ [0]).length := by
    rw [List.length_append, List.length_singleton]
    omega
  have char := (stored_iff 0).mp stored j inside
  rw [Nat.zero_add] at char
  have below : j < size := by omega
  simp only [arrayMemory, onStack, if_pos below, char, List.getD_eq_getElem?_getD]

theorem strlen_array (stored : Stored buf 0 (text ++ [0])) (nonzero : ∀ byte ∈ text, byte ≠ 0)
    (fits : text.length < size) (small : size ≤ 4294967296) :
    strlen (arrayMemory buf size) = .done text.length := by
  refine strlen_eq_done.mpr ⟨by omega, fun j below => ?_, ?_⟩
  · refine ⟨text[j], ?_, nonzero _ (List.getElem_mem below)⟩
    rw [stored_memory stored fits j (by omega), List.getD_eq_getElem?_getD,
      List.getElem?_append_left below, List.getElem?_eq_getElem below, Option.getD_some]
  · rw [stored_memory stored fits _ (Nat.le_refl _), List.getD_eq_getElem?_getD,
      List.getElem?_concat_length, Option.getD_some]

theorem array_bytes (stored : Stored buf 0 (text ++ [0])) (fits : text.length < size) :
    text.map some = (List.range text.length).map (arrayMemory buf size) := by
  apply List.ext_getElem
  · rw [List.length_map, List.length_map, List.length_range]
  · intro j left right
    rw [List.length_map] at left
    rw [List.getElem_map, List.getElem_map, List.getElem_range,
      stored_memory stored fits j (by omega), List.getD_eq_getElem?_getD,
      List.getElem?_append_left left, List.getElem?_eq_getElem left, Option.getD_some]

/-- A line is a string up to its first NUL. -/
theorem stored_takeWhile {start : Nat} (stored : Stored buf start (line ++ [0])) :
    Stored buf start (line.takeWhile (· ≠ 0) ++ [0]) := by
  induction line generalizing start with
  | nil => exact stored
  | cons byte rest ih =>
      obtain ⟨here, behind⟩ := stored
      by_cases zero : byte = 0
      · subst zero
        exact ⟨here, trivial⟩
      · have goesOn : (byte :: rest).takeWhile (· ≠ 0) = byte :: rest.takeWhile (· ≠ 0) :=
          List.takeWhile_cons_of_pos (decide_eq_true zero)
        rw [goesOn]
        exact ⟨here, ih behind⟩

theorem delivered_stored (line : List Byte) (buf : Nat → Byte) :
    Stored (delivered line buf) 0 (line ++ [0]) := by
  refine (stored_iff 0).mpr fun i inside => ?_
  rw [Nat.zero_add, delivered, List.getD_eq_getElem?_getD, List.getD_eq_getElem?_getD,
    List.getElem?_eq_getElem inside, Option.getD_some, Option.getD_some]

/-- The first character of the string in the buffer. -/
theorem stored_first {text : List Byte} (stored : Stored buf 0 (text ++ [0])) :
    buf 0 = text.headD 0 := by
  cases text with
  | nil => exact stored.1
  | cons byte rest => exact stored.1

/-- The program stores the NUL that `terminal_read` has stored. -/
theorem delivered_ended (line : List Byte) (buf : Nat → Byte) :
    Function.update (delivered line buf) line.length 0 = delivered line buf := by
  apply Function.update_eq_self_iff.mpr
  rw [delivered, List.getD_eq_getElem?_getD, List.getElem?_concat_length, Option.getD_some]

theorem takeWhile_nonzero : ∀ byte ∈ line.takeWhile (· ≠ 0), byte ≠ 0 := by
  intro byte member
  exact of_decide_eq_true
    (List.mem_takeWhile_imp (p := fun byte : Byte => decide (byte ≠ 0)) member)

theorem takeWhile_room {size : Nat} (room : line.length < size) :
    (line.takeWhile (· ≠ 0)).length < size :=
  Nat.lt_of_le_of_lt (List.takeWhile_prefix _).length_le room

/-- The string in a buffer into which a line was read. -/
theorem delivered_string (line : List Byte) (buf : Nat → Byte) :
    Stored (delivered line buf) 0 (line.takeWhile (· ≠ 0) ++ [0]) :=
  stored_takeWhile (delivered_stored line buf)

theorem delivered_strlen {size : Nat} (room : line.length < size) (bounded : size ≤ 4294967296)
    (buf : Nat → Byte) :
    ece391Strlen (arrayMemory (delivered line buf) size) = .done (line.takeWhile (· ≠ 0)).length :=
  strlen_array (delivered_string line buf) takeWhile_nonzero (takeWhile_room room) bounded

namespace Hello

variable {image : Image} {behind : BehindTables} {view : ProcessView} {cur index : Nat}
  {pcbs : Nat → Pcb} {heard printed : List Byte}

/-- What `hello` prints when it has read a line. -/
def output (line : List Byte) : List Byte :=
  whatsYourName.bytes ++ greeting.bytes ++ line.takeWhile (· ≠ 0)

/-- Like `Holding` after a line was read and answered. -/
def Answered (image : Image) (behind : BehindTables) (cur : Nat) (pcbs : Nat → Pcb) (index : Nat)
    (heard printed : List Byte) (output : List Byte → List Byte) (view : ProcessView) : Prop :=
  ∃ text : List Byte, (text ++ [10]).length ≤ NUM_CHARS ∧
    Holding image behind cur pcbs index (heard ++ (text ++ [10]))
      (printed ++ output (text ++ [10])) view

theorem main_greets (holding : Holding image behind cur pcbs index heard printed view)
    (reads : ReadsKeyboard (pcbs cur) 0) :
    Program.Meets (kernelContract image behind)
      (fun value next => value = 0 ∧
        Answered image behind cur pcbs index heard printed output next)
      (main buf) view := by
  refine Program.meets_bind.mpr ((holding.putsMessage (by decide +kernel)).mono
    fun _ asked held => ?_)
  refine Program.meets_bind.mpr ((held.readsLine reads buf).mono fun reply next answered => ?_)
  obtain ⟨text, short, rfl, after⟩ := answered
  have room : (text ++ [10]).length < BUFSIZE := Nat.lt_of_le_of_lt short (by decide)
  have noError : ¬ ((text ++ [10]).length : Int) = -1 := by omega
  dsimp only
  rw [if_neg noError, if_pos ⟨Int.natCast_nonneg _, Int.ofNat_lt.mpr room⟩, Int.toNat_natCast,
    delivered_ended]
  refine Program.meets_bind.mpr ((after.putsMessage (by decide +kernel)).mono
    fun _ greeted held => ?_)
  have fits : ((text ++ [10]).takeWhile (· ≠ 0)).length < BUFSIZE := takeWhile_room room
  refine Program.meets_bind.mpr ((held.puts (delivered_strlen room (by decide) buf) ?_
    (array_bytes (delivered_string (text ++ [10]) buf) fits)).mono fun _ final shown => ?_)
  · exact Nat.lt_trans fits (by decide)
  · refine ⟨rfl, text, short, ?_⟩
    simp only [output, List.append_assoc] at shown ⊢
    exact shown

/-- `hello` reads a line and prints it behind its greeting, up to its first NUL. -/
theorem hello_greets {driver : TerminalDriver} {command : CString} {frame : CallFrame}
    {entry : Word} {kernel : Kernel} (reachable : ConsoleReachable image behind driver)
    (short : ShortCommand command)
    (executed : driver.kernel.execute image (some command) frame = .done (.iret entry, kernel))
    (buf : Nat → Byte) :
    ∃ slot, findProgramid kernel.cr3 = .done slot ∧
      Program.Completes (kernelContract image behind)
        (fun value final => value = 0 ∧
          (∃ text : List Byte, (text ++ [10]).length ≤ NUM_CHARS ∧ final.heard = text ++ [10] ∧
            final.printed = output (text ++ [10])) ∧
          RunsAs image behind slot final.driver ∧ final.driver.kernel.pcb = kernel.pcb)
        (main buf) ⟨{ driver with kernel }, [], []⟩ := by
  obtain ⟨slot, started⟩ := execute_started reachable short executed
  refine ⟨slot, started.running.current, ?_⟩
  refine completes_of_meets ((main_greets started.holding started.stdin).mono
    fun value final greeted => ?_)
  obtain ⟨zero, text, bounded, holding⟩ := greeted
  exact ⟨zero, ⟨text, bounded, holding.heard, holding.printed⟩, holding.running, holding.pcb⟩

theorem hello_greets_shell :
    ∃ driver entry kernel, ConsoleReachable shellImage zeroedTables driver ∧
      driver.kernel.execute shellImage (some shellCommand) zeroedFrame =
        .done (.iret entry, kernel) ∧
      ∃ slot, findProgramid kernel.cr3 = .done slot ∧
        Program.Completes (kernelContract shellImage zeroedTables)
          (fun value final => value = 0 ∧
            (∃ text : List Byte, (text ++ [10]).length ≤ NUM_CHARS ∧ final.heard = text ++ [10] ∧
              final.printed = output (text ++ [10])) ∧
            RunsAs shellImage zeroedTables slot final.driver ∧
            final.driver.kernel.pcb = kernel.pcb)
          (main fun _ => 0) ⟨{ driver with kernel }, [], []⟩ := by
  have short : ShortCommand shellCommand := ⟨by decide, by decide⟩
  have name : commandName shellCommand = shellCommand := by decide
  obtain ⟨driver, entry, kernel, reachable, executed, _⟩ :=
    bootedShell_executes shellImage_valid zeroedTables name short
  exact ⟨driver, entry, kernel, reachable, executed,
    hello_greets reachable short executed fun _ => 0⟩

end Hello

end Ece391
