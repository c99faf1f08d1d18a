import Ece391.Library.Program
import Ece391.SystemCall.Arguments
import Ece391.SystemCall.Linkage
import Ece391.SystemCall.Session
import Ece391.Process.Listing
import Ece391.Terminal.Output

namespace Ece391

open Library Kernel

/-! # System calls as the user programs make them

A call carries the bytes at its pointers, and its reply what the kernel has
stored there.  Between two calls keys may be pressed; a key that asks for
another terminal is a step of the kernel, not of the program.
-/

/-- The stubs of ece391syscall.S, and the INT of ece391syserr.c with a number of its own. -/
inductive UserCall where
  | ece391Execute (command : CString)
  | ece391Read (fd : Int) (buf : Nat → Byte) (nbytes : Int)
  | ece391Write (fd : Int) (buf : UserMemory) (nbytes : Int)
  | ece391Open (filename : CString)
  | ece391Close (fd : Int)
  | ece391Getargs (buf : Nat → Byte) (nbytes : Int)
  | ece391Vidmap (screenStart : Nat) (buf : Nat → Byte)
  | callSys (num : Word)

/-- The value in EAX, and the buffer that the call was given to fill. -/
def UserCall.Reply : UserCall → Type
  | .ece391Read _ _ _ => Int × (Nat → Byte)
  | .ece391Getargs _ _ => Int × (Nat → Byte)
  | .ece391Vidmap _ _ => Int × (Nat → Byte)
  | _ => Int

abbrev UserProgram := Program UserCall UserCall.Reply

def ece391Execute (command : CString) : UserProgram Int := .ask (UserCall.ece391Execute command)

def ece391Read (fd : Int) (buf : Nat → Byte) (nbytes : Int) : UserProgram (Int × (Nat → Byte)) :=
  .ask (UserCall.ece391Read fd buf nbytes)

def ece391Write (fd : Int) (buf : UserMemory) (nbytes : Int) : UserProgram Int :=
  .ask (UserCall.ece391Write fd buf nbytes)

def ece391Open (filename : CString) : UserProgram Int := .ask (UserCall.ece391Open filename)

def ece391Close (fd : Int) : UserProgram Int := .ask (UserCall.ece391Close fd)

def ece391Getargs (buf : Nat → Byte) (nbytes : Int) : UserProgram (Int × (Nat → Byte)) :=
  .ask (UserCall.ece391Getargs buf nbytes)

def ece391Vidmap (screenStart : Nat) (buf : Nat → Byte) : UserProgram (Int × (Nat → Byte)) :=
  .ask (UserCall.ece391Vidmap screenStart buf)

def callSys (num : Word) : UserProgram Int := .ask (UserCall.callSys num)

def bytesOf (text : String) : List Byte := text.toList.map fun char => UInt8.ofNat char.toNat

/-- A string with its terminator; nothing is said of what lies behind it. -/
def CString.memory (string : CString) : UserMemory :=
  fun i => if i ≤ string.strlen then some (string.char i) else none

/-- An array of `size` bytes and what lies behind it on the stack. -/
def onStack (buf : Nat → Byte) (size : Nat) (above : UserMemory) : UserMemory :=
  fun i => if i < size then some (buf i) else above (i - size)

/-- `ece391_strlen` runs on to the next NUL like `strlen`. -/
def ece391Strlen (s : UserMemory) : Outcome Nat := strlenFrom s 4294967296 0

def ece391Fdputs (fd : Int) (s : UserMemory) : UserProgram Unit :=
  match ece391Strlen s with
  | .done length => do
      let _ ← ece391Write fd s (int32 length)
      return ()
  | _ => .cut

/-- Keys that ask for no other terminal. -/
def KeysPressed (behind : BehindTables) : TerminalDriver → TerminalDriver → Prop :=
  Relation.ReflTransGen fun driver handled =>
    ∃ scancode irq cached, driver.keyHandled behind scancode irq cached = .done (none, handled)

def ReadsKeyboard (pcb : Pcb) (fd : Int) : Prop :=
  ¬ (fd < 0 ∨ fd > 7 ∨ fd = 1 ∨ (pcb.fd fd.toNat).flags = 0) ∧
    (pcb.fd fd.toNat).sysopsPtr = .terminalOps

/-- What a call of the running process returns, what it takes from the keyboard and
what it prints.  A read of the keyboard waits while keys are pressed; writes are to the
terminal or change nothing. -/
inductive Serves (image : Image) (behind : BehindTables) : TerminalDriver →
    (call : UserCall) → call.Reply → List Byte → List Byte → TerminalDriver → Prop
  | sysOpen {driver : TerminalDriver} {filename : CString} {value : Int} {kernel : Kernel}
      (done : driver.kernel.sysOpen image filename = .done (value, kernel)) :
      Serves image behind driver (.ece391Open filename) value [] [] { driver with kernel }
  | sysClose {driver : TerminalDriver} {fd value : Int} {kernel : Kernel}
      (done : driver.kernel.sysClose fd = .done (value, kernel)) :
      Serves image behind driver (.ece391Close fd) value [] [] { driver with kernel }
  | sysRead {driver : TerminalDriver} {fd value nbytes : Int} {buf after : Nat → Byte}
      {kernel : Kernel}
      (done : driver.kernel.sysRead image fd (some buf) nbytes =
        .done (value, some after, kernel)) :
      Serves image behind driver (.ece391Read fd buf nbytes) (value, after) [] []
        { driver with kernel }
  | keyboard {driver entered : TerminalDriver} {cur : Nat} {fd value nbytes : Int}
      {buf after : Nat → Byte} {waiting kernel : Kernel}
      (current : findProgramid driver.kernel.cr3 = .done cur)
      (reads : ReadsKeyboard (driver.kernel.pcb cur) fd)
      (waits : driver.kernel.awaitLine = .done waiting)
      (typed : KeysPressed behind ⟨waiting, driver.keyboard⟩ entered)
      (taken : entered.kernel.takeLine buf = .done (value, after, kernel)) :
      Serves image behind driver (.ece391Read fd buf nbytes) (value, after)
        ((List.range value.toNat).map after) [] { entered with kernel }
  | sysWrite {driver : TerminalDriver} {value nbytes : Int} {buf : UserMemory}
      {cached : Nat → Bool} {printed : List Byte} {kernel : Kernel}
      (done : driver.kernel.sysWrite cached 1 buf nbytes = .done (value, printed, kernel)) :
      Serves image behind driver (.ece391Write 1 buf nbytes) value [] printed { driver with kernel }
  | sysGetargs {driver : TerminalDriver} {buf after : Nat → Byte} {nbytes value : Int}
      (done : driver.kernel.getargs buf nbytes = .done (value, after)) :
      Serves image behind driver (.ece391Getargs buf nbytes) (value, after) [] [] driver
  | refusedWrite {driver : TerminalDriver} {fd value nbytes : Int} {buf : UserMemory}
      {cached : Nat → Bool} (other : fd ≠ 1)
      (done : driver.kernel.sysWrite cached fd buf nbytes = .done (value, [], driver.kernel)) :
      Serves image behind driver (.ece391Write fd buf nbytes) value [] [] driver
  | vidmap {driver : TerminalDriver} {screenStart : Nat} {buf : Nat → Byte} :
      Serves image behind driver (.ece391Vidmap screenStart buf) (vidmap screenStart buf) [] []
        driver
  | callSys {driver : TerminalDriver} {num : Word} (unknown : syscallDispatch num = none) :
      Serves image behind driver (.callSys num) (-1 : Int) [] [] driver

/-- The machine while a process runs, what the process has read from the keyboard
and what it has printed. -/
structure ProcessView where
  driver : TerminalDriver
  heard : List Byte
  printed : List Byte

/-- Whatever was typed before a call, the kernel has to answer it. -/
def kernelContract (image : Image) (behind : BehindTables) :
    Contract ProcessView UserCall UserCall.Reply where
  answers view call reply next :=
    ∃ typed heard printed, KeysPressed behind view.driver typed ∧
      Serves image behind typed call reply heard printed next.driver ∧
      next.heard = view.heard ++ heard ∧ next.printed = view.printed ++ printed
  asks view call :=
    ∀ typed, KeysPressed behind view.driver typed →
      ∃ reply heard printed after, Serves image behind typed call reply heard printed after
  cutOff := False

variable {image : Image} {behind : BehindTables} {α : Type} {post : α → ProcessView → Prop}
  {program : UserProgram α} {view : ProcessView}

theorem kernelContract_answered (view : ProcessView) (call : UserCall)
    (asked : (kernelContract image behind).asks view call) :
    ∃ reply next, (kernelContract image behind).answers view call reply next := by
  obtain ⟨reply, heard, printed, after, served⟩ := asked view.driver .refl
  exact ⟨reply, ⟨after, view.heard ++ heard, view.printed ++ printed⟩, view.driver, heard, printed,
    .refl, served, rfl, rfl⟩

/-- With the kernel the program logic speaks about runs. -/
theorem completes_of_meets (meets : Program.Meets (kernelContract image behind) post program view) :
    Program.Completes (kernelContract image behind) post program view :=
  meets.completes id kernelContract_answered

end Ece391
