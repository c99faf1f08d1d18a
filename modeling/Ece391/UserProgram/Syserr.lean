import Ece391.UserProgram.Hello

namespace Ece391

open Library Kernel

/-! # ece391syserr.c

The tests that the repository has for the errors of system calls, and what they report of this
kernel.
-/

namespace Syserr

def NEG_FD : Int := -1073741823
def BIG_FD : Int := 1073741823
def BIG_NUM : Word := BitVec.ofInt 32 1073741823
def NEG_NUM : Word := BitVec.ofInt 32 (-1073741823)

def readFail : CString := ⟨bytesOf "read fail\n", by decide +kernel⟩
def writeFail : CString := ⟨bytesOf "write fail\n", by decide +kernel⟩
def closeFail : CString := ⟨bytesOf "close fail\n", by decide +kernel⟩
def errNegFdFail : CString := ⟨bytesOf "err_neg_fd: FAIL\n", by decide +kernel⟩
def errNegFdPass : CString := ⟨bytesOf "err_neg_fd: PASS\n", by decide +kernel⟩
def errBigFdFail : CString := ⟨bytesOf "err_big_fd: FAIL\n", by decide +kernel⟩
def errBigFdPass : CString := ⟨bytesOf "err_big_fd: PASS\n", by decide +kernel⟩
def errOpenLotsPass : CString := ⟨bytesOf "err_open_lots: PASS\n", by decide +kernel⟩
def errOpenLotsFail : CString := ⟨bytesOf "err_open_lots: FAIL\n", by decide +kernel⟩
def hellooFail : CString := ⟨bytesOf "'helloo' fail\n", by decide +kernel⟩
def shelFail : CString := ⟨bytesOf "'shel' fail\n", by decide +kernel⟩
def emptyStringFail : CString := ⟨bytesOf "empty string fail\n", by decide +kernel⟩
def errOpenFail : CString := ⟨bytesOf "err_open: FAIL\n", by decide +kernel⟩
def errOpenPass : CString := ⟨bytesOf "err_open: PASS\n", by decide +kernel⟩
def closeUnopenedFail : CString :=
  ⟨bytesOf "close unopened or invalid fd fail\n", by decide +kernel⟩
def readUnopenedFail : CString := ⟨bytesOf "read from unopened fd fail\n", by decide +kernel⟩
def writeUnopenedFail : CString := ⟨bytesOf "write to unopened fd fail\n", by decide +kernel⟩
def errUnopenedFail : CString := ⟨bytesOf "err_unopened: FAIL\n", by decide +kernel⟩
def errUnopenedPass : CString := ⟨bytesOf "err_unopened: PASS\n", by decide +kernel⟩
def nullPointerFail : CString := ⟨bytesOf "Null pointer fail\n", by decide +kernel⟩
def kernelPointerFail : CString := ⟨bytesOf "Kernel pointer fail fail\n", by decide +kernel⟩
def errVidmapFail : CString := ⟨bytesOf "err_vidmap: FAIL\n", by decide +kernel⟩
def errVidmapPass : CString := ⟨bytesOf "err_vidmap: PASS\n", by decide +kernel⟩
def writeStdinFail : CString := ⟨bytesOf "write to stdin fail\n", by decide +kernel⟩
def readStdoutFail : CString := ⟨bytesOf "read from stdout fail\n", by decide +kernel⟩
def errStdinOutFail : CString := ⟨bytesOf "err_stdin_out: FAIL\n", by decide +kernel⟩
def errStdinOutPass : CString := ⟨bytesOf "err_stdin_out: PASS\n", by decide +kernel⟩
def syscall0Fail : CString := ⟨bytesOf "syscall 0 fail\n", by decide +kernel⟩
def bigNumFail : CString := ⟨bytesOf "big num syscall fail\n", by decide +kernel⟩
def negNumFail : CString := ⟨bytesOf "neg num syscall fail\n", by decide +kernel⟩
def errSyscallNumFail : CString := ⟨bytesOf "err_syscall_num: FAIL\n", by decide +kernel⟩
def errSyscallNumPass : CString := ⟨bytesOf "err_syscall_num: PASS\n", by decide +kernel⟩
def chooseTest : CString :=
  ⟨bytesOf "Choose from tests 1-8. 0 to run all: ", by decide +kernel⟩
def cantReadTest : CString := ⟨bytesOf "Can't read test #\n", by decide +kernel⟩
def overallFail : CString := ⟨bytesOf "\nOverall Tests: FAIL\n", by decide +kernel⟩
def overallPass : CString := ⟨bytesOf "\nOverall Tests: PASS\n", by decide +kernel⟩
def invalidTest : CString :=
  ⟨bytesOf "Invalid test number. Choose from tests 1-8 or 0", by decide +kernel⟩

def helloo : CString := ⟨bytesOf "helloo", by decide +kernel⟩
def shel : CString := ⟨bytesOf "shel", by decide +kernel⟩

/-- A call that does not return -1 is reported. -/
def check (value : Int) (text : CString) (fail : Int) : UserProgram Int :=
  if -1 ≠ value then do
    ece391Fdputs 1 text.memory
    return 2
  else return fail

def verdict (fail : Int) (failed passed : CString) : UserProgram Int := do
  if fail ≠ 0 then ece391Fdputs 1 failed.memory
  else ece391Fdputs 1 passed.memory
  return fail

def errFd (fd : Int) (failed passed : CString) (buf : Nat → Byte) : UserProgram Int := do
  let (value, buf) ← ece391Read fd buf 31
  let fail ← check value readFail 0
  let value ← ece391Write fd (arrayMemory buf 32) 31
  let fail ← check value writeFail fail
  let value ← ece391Close fd
  let fail ← check value closeFail fail
  verdict fail failed passed

def errNegFd : (buf : Nat → Byte) → UserProgram Int := errFd NEG_FD errNegFdFail errNegFdPass

def errBigFd : (buf : Nat → Byte) → UserProgram Int := errFd BIG_FD errBigFdFail errBigFdPass

def openOnce (cnt : Int) (_ : Nat) : UserProgram Int := do
  let value ← ece391Open dot
  return if -1 = value then cnt + 1 else cnt

def closeOnce (_ : Unit) (i : Nat) : UserProgram Unit := do
  let _ ← ece391Close i
  return ()

def errOpenLots : UserProgram Int := do
  let cnt ← (List.range 7).foldlM openOnce 0
  (List.range' 2 6).foldlM closeOnce ()
  if cnt = 1 then do
    ece391Fdputs 1 errOpenLotsPass.memory
    return 0
  else do
    ece391Fdputs 1 errOpenLotsFail.memory
    return 2

def errOpen : UserProgram Int := do
  let value ← ece391Open helloo
  let fail ← check value hellooFail 0
  let value ← ece391Open shel
  let fail ← check value shelFail fail
  let value ← ece391Open .empty
  let fail ← check value emptyStringFail fail
  verdict fail errOpenFail errOpenPass

def tryClose (fail : Int) (i : Nat) : UserProgram Int := do
  let value ← ece391Close i
  check value closeUnopenedFail fail

def tryRead : Int × (Nat → Byte) → (i : Nat) → UserProgram (Int × (Nat → Byte))
  | (fail, buf), i => do
      let (value, buf) ← ece391Read i buf 31
      let fail ← check value readUnopenedFail fail
      return (fail, buf)

def tryWrite (buf : Nat → Byte) (fail : Int) (i : Nat) : UserProgram Int := do
  let value ← ece391Write i (arrayMemory buf 32) 31
  check value writeUnopenedFail fail

def errUnopened (buf : Nat → Byte) : UserProgram Int := do
  let fail ← (List.range 8).foldlM tryClose 0
  let (fail, buf) ← (List.range' 2 6).foldlM tryRead (fail, buf)
  let fail ← (List.range' 2 6).foldlM (tryWrite buf) fail
  verdict fail errUnopenedFail errUnopenedPass

/-- `memory` has the bytes from an address on. -/
def errVidmap (memory : Nat → Nat → Byte) : UserProgram Int := do
  let (value, _) ← ece391Vidmap 0 (memory 0)
  let fail ← check value nullPointerFail 0
  let (value, _) ← ece391Vidmap 0x400000 (memory 0x400000)
  let fail ← check value kernelPointerFail fail
  verdict fail errVidmapFail errVidmapPass

def errStdinOut (buf : Nat → Byte) : UserProgram Int := do
  let value ← ece391Write 0 (arrayMemory buf 32) 31
  let fail ← check value writeStdinFail 0
  let (value, _) ← ece391Read 1 buf 31
  let fail ← check value readStdoutFail fail
  verdict fail errStdinOutFail errStdinOutPass

def errSyscallNum : UserProgram Int := do
  let value ← callSys BIG_NUM
  let fail ← check value syscall0Fail 0
  let value ← callSys NEG_NUM
  let fail ← check value bigNumFail fail
  let value ← callSys 0
  let fail ← check value negNumFail fail
  verdict fail errSyscallNumFail errSyscallNumPass

def runAll (memory : Nat → Nat → Byte) (locals : Nat → Byte) : UserProgram Int := do
  let fail ← errNegFd locals
  let fail := fail + (← errBigFd locals)
  let fail := fail + (← errOpenLots)
  let fail := fail + (← errOpen)
  let fail := fail + (← errUnopened locals)
  let fail := fail + (← errVidmap memory)
  let fail := fail + (← errStdinOut locals)
  let fail := fail + (← errSyscallNum)
  if fail ≠ 0 then ece391Fdputs 1 overallFail.memory
  else ece391Fdputs 1 overallPass.memory
  return fail

def select (memory : Nat → Nat → Byte) (locals : Nat → Byte) (select : Int) : UserProgram Int :=
  match select with
  | 0 => runAll memory locals
  | 1 => errNegFd locals
  | 2 => errBigFd locals
  | 3 => errOpenLots
  | 4 => errOpen
  | 5 => errUnopened locals
  | 6 => errVidmap memory
  | 7 => errStdinOut locals
  | 8 => errSyscallNum
  | _ => do
      ece391Fdputs 1 invalidTest.memory
      return 0

/-- A line that does not fit `buf` leaves the model; `locals` is what the stack holds where the
buffers of the tests come to lie. -/
def main (memory : Nat → Nat → Byte) (locals buf : Nat → Byte) : UserProgram Int := do
  ece391Fdputs 1 chooseTest.memory
  let (cnt, buf) ← ece391Read 0 buf 127
  if cnt = -1 then do
    ece391Fdputs 1 cantReadTest.memory
    return 2
  else if cnt < 128 then select memory locals ((buf 0).toNat - 48)
  else .cut

/-- `stale` is that descriptor 7 was open when the program was started. -/
def openLotsReport (stale : Bool) : Int × List Byte :=
  if stale then (2, errOpenLotsFail.bytes) else (0, errOpenLotsPass.bytes)

def unopenedReport (stale : Bool) : Int × List Byte :=
  if stale then (2, closeUnopenedFail.bytes ++ errUnopenedFail.bytes)
  else (0, errUnopenedPass.bytes)

/-- The seven opens of `err_open_lots` are followed by closes, so that later tests find
descriptor 7 closed. -/
def allReport (stale : Bool) : Int × List Byte :=
  ((openLotsReport stale).1,
    errNegFdPass.bytes ++ errBigFdPass.bytes ++ (openLotsReport stale).2 ++ errOpenPass.bytes ++
      errUnopenedPass.bytes ++ errVidmapPass.bytes ++ errStdinOutPass.bytes ++
      errSyscallNumPass.bytes ++ (if stale then overallFail.bytes else overallPass.bytes))

def report (stale : Bool) : (select : Int) → Int × List Byte
  | 0 => allReport stale
  | 1 => (0, errNegFdPass.bytes)
  | 2 => (0, errBigFdPass.bytes)
  | 3 => openLotsReport stale
  | 4 => (0, errOpenPass.bytes)
  | 5 => unopenedReport stale
  | 6 => (0, errVidmapPass.bytes)
  | 7 => (0, errStdinOutPass.bytes)
  | 8 => (0, errSyscallNumPass.bytes)
  | _ => (0, invalidTest.bytes)

end Syserr

section Refusals

variable {image : Image} {behind : BehindTables} {view : ProcessView} {cur index : Nat}
  {pcbs : Nat → Pcb} {heard printed : List Byte} {fd nbytes : Int}

/-- A call that has one answer and changes nothing. -/
theorem Holding.unchanged {call : UserCall} {reply : call.Reply}
    (holding : Holding image behind cur pcbs index heard printed view)
    (served : ∀ driver : TerminalDriver, findProgramid driver.kernel.cr3 = .done cur →
      driver.kernel.pcb = pcbs → Serves image behind driver call reply [] [] driver)
    (only : ∀ (driver : TerminalDriver) other taken chars next,
      findProgramid driver.kernel.cr3 = .done cur → driver.kernel.pcb = pcbs →
      Serves image behind driver call other taken chars next →
      other = reply ∧ taken = [] ∧ chars = [] ∧ next = driver) :
    Program.Meets (kernelContract image behind)
      (fun answer next => answer = reply ∧ Holding image behind cur pcbs index heard printed next)
      (Program.ask call) view := by
  refine holding.serve ?_ ?_
  · intro driver held
    exact ⟨_, _, _, _, served driver held.running.current held.pcb⟩
  · intro driver other taken chars next held serves
    obtain ⟨rfl, rfl, rfl, rfl⟩ :=
      only driver other taken chars next held.running.current held.pcb serves
    exact ⟨rfl, holding.silent held.running held.pcb held.index⟩

theorem Holding.refusesRead (holding : Holding image behind cur pcbs index heard printed view)
    (refused : fd < 0 ∨ fd > 7 ∨ fd = 1 ∨ ((pcbs cur).fd fd.toNat).flags = 0) (buf : Nat → Byte) :
    Program.Meets (kernelContract image behind)
      (fun reply next => reply = (-1, buf) ∧
        Holding image behind cur pcbs index heard printed next)
      (ece391Read fd buf nbytes) view := by
  have done : ∀ driver : TerminalDriver, findProgramid driver.kernel.cr3 = .done cur →
      driver.kernel.pcb = pcbs → driver.kernel.sysRead image fd (some buf) nbytes =
        .done (-1, some buf, driver.kernel) := by
    intro driver current blocks
    rw [← blocks] at refused
    simp only [sysRead, current, Outcome.done_bind, if_pos refused, Outcome.pure_eq]
  refine holding.unchanged ?_ ?_
  · intro driver current blocks
    exact .sysRead (done driver current blocks)
  · intro driver other taken chars next current blocks serves
    cases serves with
    | sysRead read =>
        cases (done driver current blocks).symm.trans read
        exact ⟨rfl, rfl, rfl, rfl⟩
    | keyboard again reads _ _ _ =>
        obtain rfl := Outcome.done.inj (again.symm.trans current)
        rw [blocks] at reads
        exact absurd refused reads.1

theorem Holding.refusesWrite (holding : Holding image behind cur pcbs index heard printed view)
    (refused : fd < 0 ∨ fd > 7 ∨ fd = 0 ∨ ((pcbs cur).fd fd.toNat).flags = 0) (other : fd ≠ 1)
    (buf : UserMemory) :
    Program.Meets (kernelContract image behind)
      (fun value next => value = -1 ∧ Holding image behind cur pcbs index heard printed next)
      (ece391Write fd buf nbytes) view := by
  have done : ∀ (driver : TerminalDriver) cached, findProgramid driver.kernel.cr3 = .done cur →
      driver.kernel.pcb = pcbs → driver.kernel.sysWrite cached fd buf nbytes =
        .done (-1, [], driver.kernel) := by
    intro driver cached current blocks
    rw [← blocks] at refused
    simp only [sysWrite, current, Outcome.done_bind, if_pos refused, Outcome.pure_eq]
  refine holding.unchanged ?_ ?_
  · intro driver current blocks
    exact .refusedWrite other (done driver (fun _ => false) current blocks)
  · intro driver value taken chars next current blocks serves
    cases serves with
    | sysWrite _ => exact absurd rfl other
    | refusedWrite _ wrote =>
        cases (done driver _ current blocks).symm.trans wrote
        exact ⟨rfl, rfl, rfl, rfl⟩

theorem Holding.refusesClose (holding : Holding image behind cur pcbs index heard printed view)
    (refused : fd < 2 ∨ fd > 7 ∨ ((pcbs cur).fd fd.toNat).flags = 0) :
    Program.Meets (kernelContract image behind)
      (fun value next => value = -1 ∧ Holding image behind cur pcbs index heard printed next)
      (ece391Close fd) view := by
  have done : ∀ driver : TerminalDriver, findProgramid driver.kernel.cr3 = .done cur →
      driver.kernel.pcb = pcbs → driver.kernel.sysClose fd = .done (-1, driver.kernel) := by
    intro driver current blocks
    rw [← blocks] at refused
    exact sysClose_refused current refused
  refine holding.unchanged ?_ ?_
  · intro driver current blocks
    exact .sysClose (done driver current blocks)
  · intro driver value taken chars next current blocks serves
    cases serves with
    | sysClose closed =>
        cases (done driver current blocks).symm.trans closed
        exact ⟨rfl, rfl, rfl, rfl⟩

/-- An `open` of a name that is empty or nowhere, or with no free descriptor. -/
theorem Holding.refusesOpen {name : CString}
    (holding : Holding image behind cur pcbs index heard printed view)
    (refused : ∀ kernel : Kernel, findProgramid kernel.cr3 = .done cur → kernel.pcb = pcbs →
      kernel.sysOpen image name = .done (-1, kernel)) :
    Program.Meets (kernelContract image behind)
      (fun value next => value = -1 ∧ Holding image behind cur pcbs index heard printed next)
      (ece391Open name) view := by
  refine holding.unchanged ?_ ?_
  · intro driver current blocks
    exact .sysOpen (refused driver.kernel current blocks)
  · intro driver value taken chars next current blocks serves
    cases serves with
    | sysOpen opened =>
        cases (refused driver.kernel current blocks).symm.trans opened
        exact ⟨rfl, rfl, rfl, rfl⟩

theorem Holding.mapsVideo (holding : Holding image behind cur pcbs index heard printed view)
    (screenStart : Nat) (buf : Nat → Byte) :
    Program.Meets (kernelContract image behind)
      (fun reply next => reply = vidmap screenStart buf ∧
        Holding image behind cur pcbs index heard printed next)
      (ece391Vidmap screenStart buf) view := by
  refine holding.unchanged (fun _ _ _ => .vidmap) ?_
  intro driver other taken chars next _ _ serves
  cases serves with
  | vidmap => exact ⟨rfl, rfl, rfl, rfl⟩

theorem Holding.refusesNumber {num : Word}
    (holding : Holding image behind cur pcbs index heard printed view)
    (unknown : syscallDispatch num = none) :
    Program.Meets (kernelContract image behind)
      (fun value next => value = (-1 : Int) ∧
        Holding image behind cur pcbs index heard printed next)
      (callSys num) view := by
  refine holding.unchanged (fun _ _ _ => .callSys unknown) ?_
  intro driver other taken chars next _ _ serves
  cases serves with
  | callSys _ => exact ⟨rfl, rfl, rfl, rfl⟩

theorem Holding.closes {fd : Nat} (holding : Holding image behind cur pcbs index heard printed view)
    (low : 2 ≤ fd) (high : fd ≤ 7) (isOpen : ((pcbs cur).fd fd).flags ≠ 0) :
    Program.Meets (kernelContract image behind)
      (fun value next => value = 0 ∧ Holding image behind cur
        (Function.update pcbs cur ((pcbs cur).setFd fd (closed ((pcbs cur).fd fd)))) index heard
          printed next)
      (ece391Close fd) view := by
  have done : ∀ driver : TerminalDriver, findProgramid driver.kernel.cr3 = .done cur →
      driver.kernel.pcb = pcbs → driver.kernel.sysClose fd = .done (0, driver.kernel.setPcb cur
        ((driver.kernel.pcb cur).setFd fd (closed ((driver.kernel.pcb cur).fd fd)))) := by
    intro driver current blocks
    rw [← blocks] at isOpen
    exact sysClose_open current (by omega) (by omega) isOpen
  refine holding.serve ?_ ?_
  · intro driver held
    exact ⟨_, _, _, _, .sysClose (done driver held.running.current held.pcb)⟩
  · intro driver value taken chars next held serves
    have closes := done driver held.running.current held.pcb
    cases serves with
    | sysClose other =>
        cases closes.symm.trans other
        have stepped : driver.kernel.step image (.sysClose fd) = some (driver.kernel.setPcb cur
            ((driver.kernel.pcb cur).setFd fd (closed ((driver.kernel.pcb cur).fd fd)))) := by
          simp only [Kernel.step, closes, Outcome.toOption_done, Option.map_some]
        have starts : ShellStarts image driver.kernel (.sysClose fd) := trivial
        refine ⟨rfl, holding.silent (held.running.call_step starts stepped rfl) ?_ held.index⟩
        rw [← held.pcb]
        rfl

end Refusals

namespace Syserr

/-- What stays as it is: the control blocks of others, the index of the directory and what was
typed. -/
structure TestRun where
  image : Image
  behind : BehindTables
  cur : Nat
  start : Nat → Pcb
  index : Nat
  heard : List Byte

/-- The line that is read fits `buf`. -/
def Fits : (call : UserCall) → call.Reply → Prop
  | .ece391Read _ _ _, (cnt, _) => cnt < 128
  | _, _ => True

def testContract (image : Image) (behind : BehindTables) :
    Contract ProcessView UserCall UserCall.Reply := (kernelContract image behind).restricted Fits

abbrev TestRun.contract (run : TestRun) : Contract ProcessView UserCall UserCall.Reply :=
  testContract run.image run.behind

/-- `used` are the descriptors from 2 on that are open. -/
structure Testing (run : TestRun) (used : Nat → Prop) (printed : List Byte) (view : ProcessView) :
    Prop where
  holding : Holding run.image run.behind run.cur view.driver.kernel.pcb run.index run.heard printed
    view
  table : ∀ fd, 2 ≤ fd → fd ≤ 7 → (((view.driver.kernel.pcb run.cur).fd fd).flags ≠ 0 ↔ used fd)
  others : ∀ other, other ≠ run.cur → view.driver.kernel.pcb other = run.start other

/-- What a test comes to. -/
def Reports (run : TestRun) (used : Nat → Prop) (value : Int) (printed : List Byte) (result : Int)
    (view : ProcessView) : Prop := result = value ∧ Testing run used printed view

variable {run : TestRun} {used after : Nat → Prop} {printed : List Byte} {view next : ProcessView}
  {text failed passed : CString} {value fail fd : Int}

theorem Testing.congr (testing : Testing run used printed view)
    (same : ∀ fd, 2 ≤ fd → fd ≤ 7 → (used fd ↔ after fd)) : Testing run after printed view where
  holding := testing.holding
  table fd low high := (testing.table fd low high).trans (same fd low high)
  others := testing.others

theorem Testing.keeps {more : List Byte} (testing : Testing run used printed view)
    (held : Holding run.image run.behind run.cur view.driver.kernel.pcb run.index run.heard more
      next) : Testing run used more next where
  holding := by
    rw [held.pcb]
    exact held
  table := by
    rw [held.pcb]
    exact testing.table
  others := by
    rw [held.pcb]
    exact testing.others

/-- A descriptor of the process gets another content. -/
theorem Testing.sets {fd : Nat} {descriptor : FileDescriptor}
    (testing : Testing run used printed view)
    (held : Holding run.image run.behind run.cur
      (Function.update view.driver.kernel.pcb run.cur
        ((view.driver.kernel.pcb run.cur).setFd fd descriptor)) run.index run.heard printed next)
    (same : ∀ other, 2 ≤ other → other ≤ 7 → other ≠ fd → (after other ↔ used other))
    (own : after fd ↔ descriptor.flags ≠ 0) : Testing run after printed next where
  holding := by
    rw [held.pcb]
    exact held
  table := by
    intro other low high
    rw [held.pcb, Function.update_self]
    by_cases here : other = fd
    · rw [here, Pcb.setFd_self]
      exact own.symm
    · rw [Pcb.setFd_of_ne here, testing.table other low high]
      exact (same other low high here).symm
  others := by
    intro other different
    rw [held.pcb, Function.update_of_ne different]
    exact testing.others other different

theorem Testing.prints (testing : Testing run used printed view) (small : text.strlen < 2147483648) :
    Program.Meets run.contract
      (fun _ next => Holding run.image run.behind run.cur view.driver.kernel.pcb run.index run.heard
        (printed ++ text.bytes) next) (ece391Fdputs 1 text.memory) view := by
  have only : Program.AsksOnly (fun call => ∀ reply, Fits call reply)
      (ece391Fdputs 1 text.memory) := by
    have measured : ece391Strlen text.memory = .done text.strlen := strlen_memory text (by omega)
    simp only [ece391Fdputs, measured]
    exact ⟨fun _ => trivial, fun _ => trivial⟩
  exact (testing.holding.putsMessage small).restricted only kernelContract_answered

theorem Testing.puts (testing : Testing run used printed view) (small : text.strlen < 2147483648) :
    Program.Meets run.contract (fun _ next => Testing run used (printed ++ text.bytes) next)
      (ece391Fdputs 1 text.memory) view :=
  (testing.prints small).mono fun _ _ held => testing.keeps held

/-! ### Calls that are tested -/

/-- A call that is answered as it should be. -/
theorem Testing.asks {call : UserCall} {reply : call.Reply} (testing : Testing run used printed view)
    (fits : Fits call reply)
    (meets : Program.Meets (kernelContract run.image run.behind)
      (fun answer next => answer = reply ∧ Holding run.image run.behind run.cur
        view.driver.kernel.pcb run.index run.heard printed next) (Program.ask call) view) :
    Program.Meets run.contract (fun answer next => answer = reply ∧ Testing run used printed next)
      (Program.ask call) view := by
  refine (meets.expected kernelContract_answered fun answer next answered => ?_).mono
    fun answer next answered => ⟨answered.1, testing.keeps answered.2⟩
  rw [answered.1]
  exact fits

theorem Testing.reads (testing : Testing run used printed view)
    (refused : fd < 0 ∨ fd > 7 ∨ fd = 1 ∨ 2 ≤ fd ∧ ¬ used fd.toNat) (buf : Nat → Byte) :
    Program.Meets run.contract
      (fun reply next => reply = (-1, buf) ∧ Testing run used printed next)
      (ece391Read fd buf 31) view := by
  refine testing.asks (show (-1 : Int) < 128 by decide) (testing.holding.refusesRead ?_ buf)
  by_cases inside : fd ≤ 7
  · refine refused.imp_right (Or.imp_right (Or.imp_right fun closed => ?_))
    exact not_not.mp (mt (testing.table _ (by omega) (by omega)).mp closed.2)
  · exact .inr (.inl (by omega))

theorem Testing.writes (testing : Testing run used printed view)
    (refused : fd < 0 ∨ fd > 7 ∨ fd = 0 ∨ 2 ≤ fd ∧ ¬ used fd.toNat) (buf : UserMemory) :
    Program.Meets run.contract (fun value next => value = -1 ∧ Testing run used printed next)
      (ece391Write fd buf 31) view := by
  refine testing.asks trivial (testing.holding.refusesWrite ?_ (by omega) buf)
  by_cases inside : fd ≤ 7
  · refine refused.imp_right (Or.imp_right (Or.imp_right fun closed => ?_))
    exact not_not.mp (mt (testing.table _ (by omega) (by omega)).mp closed.2)
  · exact .inr (.inl (by omega))

theorem Testing.closes (testing : Testing run used printed view)
    (refused : fd < 2 ∨ fd > 7 ∨ ¬ used fd.toNat) :
    Program.Meets run.contract (fun value next => value = -1 ∧ Testing run used printed next)
      (ece391Close fd) view := by
  refine testing.asks trivial (testing.holding.refusesClose ?_)
  by_cases inside : 2 ≤ fd ∧ fd ≤ 7
  · refine refused.imp_right (Or.imp_right fun closed => ?_)
    exact not_not.mp (mt (testing.table _ (by omega) (by omega)).mp closed)
  · omega

theorem Testing.opens {name : CString} (testing : Testing run used printed view)
    (refused : name.char 0 = 0 ∨ readDentryByName run.image name = .done none) :
    Program.Meets run.contract (fun value next => value = -1 ∧ Testing run used printed next)
      (ece391Open name) view := by
  refine testing.asks trivial (testing.holding.refusesOpen fun kernel current _ => ?_)
  by_cases empty : name.char 0 = 0
  · rw [sysOpen, if_pos empty]
  · have absent := refused.resolve_left empty
    rw [sysOpen, if_neg empty, current, Outcome.done_bind, absent]
    rfl

theorem Testing.mapsVideo {screenStart : Nat} (testing : Testing run used printed view)
    (refused : screenStart = 0 ∨ screenStart = 0x400000) (buf : Nat → Byte) :
    Program.Meets run.contract (fun reply next => reply = (-1, buf) ∧ Testing run used printed next)
      (ece391Vidmap screenStart buf) view := by
  refine testing.asks trivial ?_
  have maps := testing.holding.mapsVideo screenStart buf
  rw [vidmap, if_pos refused] at maps
  exact maps

theorem Testing.numbers {num : Word} (testing : Testing run used printed view)
    (unknown : syscallDispatch num = none) :
    Program.Meets run.contract
      (fun value next => value = (-1 : Int) ∧ Testing run used printed next) (callSys num) view :=
  testing.asks trivial (testing.holding.refusesNumber unknown)

variable {α : Type} {post : α → ProcessView → Prop} {rest : Int → UserProgram α}
  {contract : Contract ProcessView UserCall UserCall.Reply} {stale : Bool} {image : Image}

theorem check_refused : check (-1) text fail = .done fail := if_neg fun other => other rfl

theorem meets_check (meets : Program.Meets contract post (rest fail) view) :
    Program.Meets contract post (check (-1) text fail >>= rest) view := by
  rw [check_refused]
  exact meets

theorem Testing.passes (testing : Testing run used printed view)
    (small : passed.strlen < 2147483648) :
    Program.Meets run.contract (Reports run used 0 (printed ++ passed.bytes))
      (verdict 0 failed passed) view :=
  Program.meets_bind.mpr ((testing.puts small).mono fun _ _ shown => ⟨rfl, shown⟩)

theorem errFd_passes (testing : Testing run used printed view) (outside : fd < 0 ∨ fd > 7)
    (small : passed.strlen < 2147483648) (buf : Nat → Byte) :
    Program.Meets run.contract (Reports run used 0 (printed ++ passed.bytes))
      (errFd fd failed passed buf) view := by
  refine Program.meets_bind.mpr ((testing.reads (by omega) buf).mono fun reply read answered => ?_)
  obtain ⟨rfl, testing⟩ := answered
  refine meets_check (Program.meets_bind.mpr ((testing.writes (by omega) _).mono
    fun value wrote answered => ?_))
  obtain ⟨rfl, testing⟩ := answered
  refine meets_check (Program.meets_bind.mpr ((testing.closes (by omega)).mono
    fun value closed answered => ?_))
  obtain ⟨rfl, testing⟩ := answered
  exact meets_check (testing.passes small)

theorem Testing.reportsFailure (testing : Testing run used printed view) (other : value ≠ -1)
    (small : text.strlen < 2147483648) :
    Program.Meets run.contract (Reports run used 2 (printed ++ text.bytes)) (check value text fail)
      view := by
  rw [check, if_pos other.symm]
  exact Program.meets_bind.mpr ((testing.puts small).mono fun _ _ shown => ⟨rfl, shown⟩)

/-- The image has the files that the tests speak of, and not the others. -/
structure Tested (image : Image) : Prop where
  dot : ∃ dentry, Openable image dot dentry
  helloo : readDentryByName image helloo = .done none
  shel : readDentryByName image shel = .done none

theorem errOpen_passes (tested : Tested run.image) (testing : Testing run used printed view) :
    Program.Meets run.contract (Reports run used 0 (printed ++ errOpenPass.bytes)) errOpen view := by
  refine Program.meets_bind.mpr ((testing.opens (.inr tested.helloo)).mono
    fun value first answered => ?_)
  obtain ⟨rfl, testing⟩ := answered
  refine meets_check (Program.meets_bind.mpr ((testing.opens (.inr tested.shel)).mono
    fun value second answered => ?_))
  obtain ⟨rfl, testing⟩ := answered
  refine meets_check (Program.meets_bind.mpr ((testing.opens (.inl rfl)).mono
    fun value third answered => ?_))
  obtain ⟨rfl, testing⟩ := answered
  exact meets_check (testing.passes (by decide +kernel))

theorem errVidmap_passes (testing : Testing run used printed view) (memory : Nat → Nat → Byte) :
    Program.Meets run.contract (Reports run used 0 (printed ++ errVidmapPass.bytes))
      (errVidmap memory) view := by
  refine Program.meets_bind.mpr ((testing.mapsVideo (.inl rfl) _).mono
    fun reply first answered => ?_)
  obtain ⟨rfl, testing⟩ := answered
  refine meets_check (Program.meets_bind.mpr ((testing.mapsVideo (.inr rfl) _).mono
    fun reply second answered => ?_))
  obtain ⟨rfl, testing⟩ := answered
  exact meets_check (testing.passes (by decide +kernel))

theorem errStdinOut_passes (testing : Testing run used printed view) (buf : Nat → Byte) :
    Program.Meets run.contract (Reports run used 0 (printed ++ errStdinOutPass.bytes))
      (errStdinOut buf) view := by
  refine Program.meets_bind.mpr ((testing.writes (by omega) _).mono fun value wrote answered => ?_)
  obtain ⟨rfl, testing⟩ := answered
  refine meets_check (Program.meets_bind.mpr ((testing.reads (by omega) buf).mono
    fun reply read answered => ?_))
  obtain ⟨rfl, testing⟩ := answered
  exact meets_check (testing.passes (by decide +kernel))

theorem errSyscallNum_passes (testing : Testing run used printed view) :
    Program.Meets run.contract (Reports run used 0 (printed ++ errSyscallNumPass.bytes))
      errSyscallNum view := by
  refine Program.meets_bind.mpr ((testing.numbers (by decide)).mono fun value big answered => ?_)
  obtain ⟨rfl, testing⟩ := answered
  refine meets_check (Program.meets_bind.mpr ((testing.numbers (by decide)).mono
    fun value negative answered => ?_))
  obtain ⟨rfl, testing⟩ := answered
  refine meets_check (Program.meets_bind.mpr ((testing.numbers (by decide)).mono
    fun value zero answered => ?_))
  obtain ⟨rfl, testing⟩ := answered
  exact meets_check (testing.passes (by decide +kernel))

/-! ### err_open_lots -/

/-- Behind `count` opens; `limit` is the first descriptor that was open before. -/
def Opened (limit count fd : Nat) : Prop := fd < 2 + count ∨ limit ≤ fd

theorem openOnce_opens {limit count : Nat} (tested : Tested run.image)
    (testing : Testing run (Opened limit count) printed view) (bound : limit ≤ 8) (item : Nat) :
    Program.Meets run.contract
      (fun cnt next => cnt = ((count + 1 + 2 - limit : Nat) : Int) ∧
        Testing run (Opened limit (count + 1)) printed next)
      (openOnce ((count + 2 - limit : Nat) : Int) item) view := by
  obtain ⟨dentry, openable⟩ := tested.dot
  by_cases room : 2 + count < limit
  · have free : freeDescriptor (view.driver.kernel.pcb run.cur) = some (2 + count) := by
      refine freeDescriptor_eq_some.mpr ⟨by omega, by omega, ?_, fun i low below => ?_⟩
      · refine not_not.mp (mt (testing.table _ (by omega) (by omega)).mp ?_)
        unfold Opened
        omega
      · exact (testing.table i low (by omega)).mpr (.inl below)
    have opens : Program.Meets run.contract _ (ece391Open dot) view :=
      (testing.holding.opens openable free).expected kernelContract_answered
        fun _ _ _ => (trivial : Fits (.ece391Open dot) _)
    refine Program.meets_bind.mpr (opens.mono fun value next opened => ?_)
    obtain ⟨rfl, held⟩ := opened
    rw [if_neg (by omega)]
    refine ⟨by omega, testing.sets held (fun other _ _ different => ?_) ?_⟩
    · unfold Opened
      omega
    · rw [describe_flags]
      exact iff_of_true (.inl (by omega)) (by decide)
  · have full : freeDescriptor (view.driver.kernel.pcb run.cur) = none := by
      refine freeDescriptor_eq_none.mpr fun i low high => (testing.table i low high).mpr ?_
      unfold Opened
      omega
    have refused : ∀ kernel : Kernel, findProgramid kernel.cr3 = .done run.cur →
        kernel.pcb = view.driver.kernel.pcb →
        kernel.sysOpen run.image dot = .done (-1, kernel) := by
      intro kernel current blocks
      rw [← blocks] at full
      exact sysOpen_full openable current full
    have answers : Program.Meets run.contract _ (ece391Open dot) view :=
      testing.asks trivial (testing.holding.refusesOpen refused)
    refine Program.meets_bind.mpr (answers.mono fun value next answered => ?_)
    obtain ⟨rfl, testing⟩ := answered
    rw [if_pos rfl]
    refine ⟨by omega, testing.congr fun fd low high => ?_⟩
    unfold Opened
    omega

theorem opens_all {limit count : Nat} {items : List Nat} (tested : Tested run.image)
    (testing : Testing run (Opened limit count) printed view) (bound : limit ≤ 8) :
    Program.Meets run.contract
      (fun cnt next => cnt = ((count + items.length + 2 - limit : Nat) : Int) ∧
        Testing run (Opened limit (count + items.length)) printed next)
      (items.foldlM openOnce ((count + 2 - limit : Nat) : Int)) view := by
  induction items generalizing count view with
  | nil => exact ⟨rfl, testing⟩
  | cons item rest ih =>
      have total : count + (item :: rest).length = count + 1 + rest.length := by
        rw [List.length_cons]
        omega
      rw [List.foldlM_cons, total]
      refine Program.meets_bind.mpr ((openOnce_opens tested testing bound item).mono
        fun cnt next opened => ?_)
      obtain ⟨rfl, opened⟩ := opened
      exact ih opened

theorem closeOnce_closes {fd : Nat} (testing : Testing run used printed view)
    (low : 2 ≤ fd) (high : fd ≤ 7) (isOpen : used fd)
    (left : ∀ other, other ≠ fd → (after other ↔ used other)) (gone : ¬ after fd) :
    Program.Meets run.contract (fun value next => value = 0 ∧ Testing run after printed next)
      (ece391Close fd) view := by
  have closes : Program.Meets run.contract _ (ece391Close fd) view :=
    (testing.holding.closes low high ((testing.table fd low high).mpr isOpen)).expected
      kernelContract_answered fun _ _ _ => (trivial : Fits (.ece391Close fd) _)
  refine closes.mono fun value next closed => ⟨closed.1, testing.sets closed.2 ?_ ?_⟩
  · exact fun other _ _ different => left other different
  · exact iff_of_false gone fun flags => flags rfl

theorem closes_all {items : List Nat} (distinct : items.Nodup)
    (range : ∀ fd ∈ items, 2 ≤ fd ∧ fd ≤ 7) (testing : Testing run (· ∈ items) printed view) :
    Program.Meets run.contract (fun _ next => Testing run (fun _ => False) printed next)
      (items.foldlM closeOnce ()) view := by
  induction items generalizing view with
  | nil => exact testing.congr fun fd _ _ => ⟨fun member => List.not_mem_nil member, False.elim⟩
  | cons fd rest ih =>
      obtain ⟨notIn, others⟩ := List.nodup_cons.mp distinct
      obtain ⟨low, high⟩ := range fd (List.mem_cons_self ..)
      have closes : Program.Meets run.contract
          (fun value next => value = 0 ∧ Testing run (· ∈ rest) printed next)
          (ece391Close fd) view := by
        refine closeOnce_closes testing low high (List.mem_cons_self ..) (fun other different => ?_)
          notIn
        exact ⟨List.mem_cons_of_mem _, fun member => (List.mem_cons.mp member).resolve_left different⟩
      rw [List.foldlM_cons]
      refine Program.meets_bind.mpr (Program.meets_bind.mpr (closes.mono fun value next closed => ?_))
      exact ih others (fun other member => range other (List.mem_cons_of_mem _ member)) closed.2

/-- What is open when the program starts. -/
def Stale (stale : Bool) (fd : Nat) : Prop := stale = true ∧ fd = 7

theorem errOpenLots_reports (tested : Tested run.image)
    (testing : Testing run (Stale stale) printed view) :
    Program.Meets run.contract
      (Reports run (fun _ => False) (openLotsReport stale).1 (printed ++ (openLotsReport stale).2))
      errOpenLots view := by
  obtain ⟨limit, isLimit, low, high⟩ : ∃ limit : Nat, limit = (if stale then 7 else 8) ∧
      7 ≤ limit ∧ limit ≤ 8 := ⟨_, rfl, by cases stale <;> decide⟩
  have begun : Testing run (Opened limit 0) printed view := by
    refine testing.congr fun fd above below => ?_
    rw [isLimit, Stale, Opened]
    cases stale <;> simp <;> omega
  have none : ((0 + 2 - limit : Nat) : Int) = 0 := by omega
  have opens : Program.Meets run.contract
      (fun cnt next => cnt = ((0 + (List.range 7).length + 2 - limit : Nat) : Int) ∧
        Testing run (Opened limit (0 + (List.range 7).length)) printed next)
      ((List.range 7).foldlM openOnce ((0 + 2 - limit : Nat) : Int)) view :=
    opens_all tested begun high
  rw [none, List.length_range] at opens
  refine Program.meets_bind.mpr (opens.mono fun cnt opened answered => ?_)
  obtain ⟨rfl, testing⟩ := answered
  have all : Testing run (· ∈ List.range' 2 6) printed opened := by
    refine testing.congr fun fd above below => ?_
    rw [Opened, List.mem_range'_1]
    omega
  have range : ∀ fd ∈ List.range' 2 6, 2 ≤ fd ∧ fd ≤ 7 := by decide
  refine Program.meets_bind.mpr ((closes_all (List.nodup_range' ..) range all).mono
    fun _ closed finished => ?_)
  have pass : errOpenLotsPass.strlen < 2147483648 := by decide +kernel
  have failure : errOpenLotsFail.strlen < 2147483648 := by decide +kernel
  subst isLimit
  cases stale with
  | false => exact Program.meets_bind.mpr ((finished.puts pass).mono fun _ _ shown => ⟨rfl, shown⟩)
  | true =>
      exact Program.meets_bind.mpr ((finished.puts failure).mono fun _ _ shown => ⟨rfl, shown⟩)

/-! ### err_unopened -/

/-- What closing descriptor 7 has come to. -/
def closedReport (closed : Bool) : Int × List Byte :=
  if closed then (2, closeUnopenedFail.bytes) else (0, [])

theorem tries_close {items : List Nat} (distinct : items.Nodup) (range : ∀ fd ∈ items, fd ≤ 7)
    (testing : Testing run (fun fd => Stale stale fd ∧ fd ∈ items)
      (printed ++ (closedReport (stale && 7 ∉ items)).2) view) :
    Program.Meets run.contract
      (Reports run (fun _ => False) (closedReport stale).1 (printed ++ (closedReport stale).2))
      (items.foldlM tryClose (closedReport (stale && 7 ∉ items)).1) view := by
  induction items generalizing view with
  | nil =>
      have whole : (stale && decide (7 ∉ ([] : List Nat))) = stale := by
        rw [decide_eq_true List.not_mem_nil, Bool.and_true]
      rw [whole] at testing
      rw [List.foldlM_nil, whole]
      exact ⟨rfl, testing.congr fun fd _ _ => ⟨fun member => List.not_mem_nil member.2, False.elim⟩⟩
  | cons fd rest ih =>
      obtain ⟨notIn, others⟩ := List.nodup_cons.mp distinct
      have later : ∀ fd ∈ rest, fd ≤ 7 := fun other member =>
        range other (List.mem_cons_of_mem _ member)
      rw [List.foldlM_cons]
      by_cases closes : Stale stale fd
      · obtain ⟨rfl, rfl⟩ := closes
        have before : (true && decide (7 ∉ 7 :: rest)) = false := by
          rw [decide_eq_false fun absent => absent (List.mem_cons_self ..), Bool.and_false]
        have behind : (true && decide (7 ∉ rest)) = true := by
          rw [decide_eq_true notIn, Bool.and_true]
        rw [before] at testing ⊢
        rw [behind] at ih
        have step : Program.Meets run.contract
            (Reports run (fun fd => Stale true fd ∧ fd ∈ rest) 2
              (printed ++ closeUnopenedFail.bytes)) (tryClose 0 7) view := by
          have closes : Program.Meets run.contract (fun value next => value = 0 ∧
              Testing run (fun fd => Stale true fd ∧ fd ∈ rest) (printed ++ []) next)
              (ece391Close (7 : Nat)) view := by
            refine closeOnce_closes testing (by decide) (by decide)
              ⟨⟨rfl, rfl⟩, List.mem_cons_self ..⟩ (fun other different => ?_) (mt And.right notIn)
            exact iff_of_false (fun both => different both.1.2) fun both => different both.1.2
          refine Program.meets_bind.mpr (closes.mono fun value closed answered => ?_)
          obtain ⟨rfl, finished⟩ := answered
          rw [List.append_nil] at finished
          exact finished.reportsFailure (by decide) (by decide +kernel)
        refine Program.meets_bind.mpr (step.mono fun fail closed failed => ?_)
        obtain ⟨rfl, finished⟩ := failed
        exact ih others later finished
      · have same : (stale && decide (7 ∉ fd :: rest)) = (stale && decide (7 ∉ rest)) := by
          cases stale with
          | false => rfl
          | true =>
              have different : 7 ≠ fd := fun same => closes ⟨rfl, same.symm⟩
              simp only [List.mem_cons, different, false_or]
        rw [same] at testing ⊢
        refine Program.meets_bind.mpr (Program.meets_bind.mpr ((testing.closes (.inr (.inr ?_))).mono
          fun value refused answered => ?_))
        · exact fun both => closes both.1
        · obtain ⟨rfl, finished⟩ := answered
          rw [check_refused]
          refine ih others later (finished.congr fun other _ _ => and_congr_right fun isStale => ?_)
          have different : other ≠ fd := fun same => closes (same ▸ isStale)
          exact ⟨fun member => (List.mem_cons.mp member).resolve_left different,
            List.mem_cons_of_mem _⟩

theorem tries_read (testing : Testing run (fun _ => False) printed view) (buf : Nat → Byte) :
    Program.Meets run.contract
      (fun result next => result = (fail, buf) ∧ Testing run (fun _ => False) printed next)
      ((List.range' 2 6).foldlM tryRead (fail, buf)) view := by
  refine Program.Meets.foldlM_same (fun fd member view testing => ?_) testing
  have low : (2 : Int) ≤ fd := Int.ofNat_le.mpr (List.mem_range'_1.mp member).1
  refine Program.meets_bind.mpr ((testing.reads (.inr (.inr (.inr ⟨low, id⟩))) buf).mono
    fun reply next answered => ?_)
  obtain ⟨rfl, finished⟩ := answered
  exact meets_check ⟨rfl, finished⟩

theorem tries_write (testing : Testing run (fun _ => False) printed view) (buf : Nat → Byte) :
    Program.Meets run.contract (Reports run (fun _ => False) fail printed)
      ((List.range' 2 6).foldlM (tryWrite buf) fail) view := by
  refine Program.Meets.foldlM_same (fun fd member view testing => ?_) testing
  have low : (2 : Int) ≤ fd := Int.ofNat_le.mpr (List.mem_range'_1.mp member).1
  refine Program.meets_bind.mpr ((testing.writes (.inr (.inr (.inr ⟨low, id⟩))) _).mono
    fun value next answered => ?_)
  obtain ⟨rfl, finished⟩ := answered
  rw [check_refused]
  exact ⟨rfl, finished⟩

theorem errUnopened_reports (testing : Testing run (Stale stale) printed view) (buf : Nat → Byte) :
    Program.Meets run.contract
      (Reports run (fun _ => False) (unopenedReport stale).1 (printed ++ (unopenedReport stale).2))
      (errUnopened buf) view := by
  have fresh : (stale && decide (7 ∉ List.range 8)) = false := by
    rw [decide_eq_false fun absent => absent (by decide), Bool.and_false]
  have begun : Testing run (fun fd => Stale stale fd ∧ fd ∈ List.range 8)
      (printed ++ (closedReport (stale && 7 ∉ List.range 8)).2) view := by
    rw [fresh, closedReport, if_neg (by decide), List.append_nil]
    refine testing.congr fun fd _ high => (and_iff_left ?_).symm
    exact List.mem_range.mpr (by omega)
  have closes := tries_close (List.nodup_range) (by decide) begun
  rw [fresh] at closes
  refine Program.meets_bind.mpr (closes.mono fun fail closed answered => ?_)
  obtain ⟨rfl, finished⟩ := answered
  refine Program.meets_bind.mpr ((tries_read finished buf).mono fun result read answered => ?_)
  obtain ⟨rfl, finished⟩ := answered
  refine Program.meets_bind.mpr ((tries_write finished buf).mono fun fail wrote answered => ?_)
  obtain ⟨rfl, finished⟩ := answered
  cases stale with
  | false =>
      rw [closedReport, if_neg (by decide), List.append_nil] at finished
      exact finished.passes (by decide +kernel)
  | true =>
      refine Program.meets_bind.mpr ((finished.puts (by decide +kernel)).mono fun _ next shown => ?_)
      rw [List.append_assoc] at shown
      exact ⟨rfl, shown⟩

theorem runAll_reports (tested : Tested run.image)
    (testing : Testing run (Stale stale) printed view) (memory : Nat → Nat → Byte)
    (locals : Nat → Byte) :
    Program.Meets run.contract
      (Reports run (fun _ => False) (allReport stale).1 (printed ++ (allReport stale).2))
      (runAll memory locals) view := by
  refine Program.meets_bind.mpr ((errFd_passes testing (.inl (by decide)) (by decide +kernel)
    locals).mono fun fail negative reported => ?_)
  obtain ⟨rfl, testing⟩ := reported
  refine Program.meets_bind.mpr ((errFd_passes testing (.inr (by decide)) (by decide +kernel)
    locals).mono fun fail big reported => ?_)
  obtain ⟨rfl, testing⟩ := reported
  refine Program.meets_bind.mpr ((errOpenLots_reports tested testing).mono
    fun fail lots reported => ?_)
  obtain ⟨rfl, testing⟩ := reported
  refine Program.meets_bind.mpr ((errOpen_passes tested testing).mono fun fail names reported => ?_)
  obtain ⟨rfl, testing⟩ := reported
  have none : Testing run (Stale false) _ names := testing.congr fun fd _ _ => by simp [Stale]
  refine Program.meets_bind.mpr ((errUnopened_reports none locals).mono
    fun fail unopened reported => ?_)
  obtain ⟨rfl, testing⟩ := reported
  refine Program.meets_bind.mpr ((errVidmap_passes testing memory).mono
    fun fail mapped reported => ?_)
  obtain ⟨rfl, testing⟩ := reported
  refine Program.meets_bind.mpr ((errStdinOut_passes testing locals).mono
    fun fail standard reported => ?_)
  obtain ⟨rfl, testing⟩ := reported
  refine Program.meets_bind.mpr ((errSyscallNum_passes testing).mono
    fun fail numbered reported => ?_)
  obtain ⟨rfl, testing⟩ := reported
  cases stale with
  | false =>
      refine Program.meets_bind.mpr ((testing.puts (by decide +kernel)).mono fun _ next shown => ?_)
      simp only [List.append_assoc] at shown
      refine ⟨rfl, ?_⟩
      simp only [allReport, List.append_assoc]
      exact shown
  | true =>
      refine Program.meets_bind.mpr ((testing.puts (by decide +kernel)).mono fun _ next shown => ?_)
      simp only [List.append_assoc] at shown
      refine ⟨rfl, ?_⟩
      simp only [allReport, List.append_assoc]
      exact shown

theorem select_reports (tested : Tested run.image)
    (testing : Testing run (Stale stale) printed view) (memory : Nat → Nat → Byte)
    (locals : Nat → Byte) (n : Int) :
    Program.Meets run.contract
      (fun value next => ∃ used,
        Reports run used (report stale n).1 (printed ++ (report stale n).2) value next)
      (select memory locals n) view := by
  unfold select
  split
  · exact (runAll_reports tested testing memory locals).mono fun _ _ reported => ⟨_, reported⟩
  · exact (errFd_passes testing (.inl (by decide)) (by decide +kernel) locals).mono
      fun _ _ reported => ⟨_, reported⟩
  · exact (errFd_passes testing (.inr (by decide)) (by decide +kernel) locals).mono
      fun _ _ reported => ⟨_, reported⟩
  · exact (errOpenLots_reports tested testing).mono fun _ _ reported => ⟨_, reported⟩
  · exact (errOpen_passes tested testing).mono fun _ _ reported => ⟨_, reported⟩
  · exact (errUnopened_reports testing locals).mono fun _ _ reported => ⟨_, reported⟩
  · exact (errVidmap_passes testing memory).mono fun _ _ reported => ⟨_, reported⟩
  · exact (errStdinOut_passes testing locals).mono fun _ _ reported => ⟨_, reported⟩
  · exact (errSyscallNum_passes testing).mono fun _ _ reported => ⟨_, reported⟩
  · have invalid : report stale n = (0, invalidTest.bytes) := by
      simp only [report]
    rw [invalid]
    refine Program.meets_bind.mpr ((testing.puts (by decide +kernel)).mono fun _ next shown => ?_)
    exact ⟨_, rfl, shown⟩

theorem Testing.readsLine (testing : Testing run used printed view)
    (keyboard : ReadsKeyboard (view.driver.kernel.pcb run.cur) 0) (buf : Nat → Byte) :
    Program.Meets run.contract
      (fun reply next => ∃ text : List Byte, (text ++ [10]).length < 128 ∧
        reply = (((text ++ [10]).length : Int), delivered (text ++ [10]) buf) ∧
        Testing { run with heard := run.heard ++ (text ++ [10]) } used printed next)
      (ece391Read 0 buf 127) view := by
  have lines : Program.Meets (kernelContract run.image run.behind) _ (ece391Read 0 buf 127) view :=
    testing.holding.readsLine keyboard buf
  have possible : ∃ reply next, (kernelContract run.image run.behind).answers view
      (.ece391Read 0 buf 127) reply next ∧ Fits (.ece391Read 0 buf 127) reply := by
    obtain ⟨taken, next, served⟩ := testing.holding.running.endsLine keyboard buf
    exact ⟨_, ⟨next, view.heard ++ taken, view.printed ++ []⟩,
      ⟨view.driver, taken, [], .refl, served, rfl, rfl⟩, show (1 : Int) < 128 by decide⟩
  refine (lines.expecting possible).mono fun reply next answered => ?_
  obtain ⟨⟨text, _, rfl, held⟩, fits⟩ := answered
  have short : ((text ++ [10]).length : Int) < 128 := fits
  refine ⟨text, by omega, rfl, ?_, ?_, ?_⟩
  · dsimp only
    rw [held.pcb]
    exact held
  · dsimp only
    rw [held.pcb]
    exact testing.table
  · dsimp only
    rw [held.pcb]
    exact testing.others

/-- What the program prints and returns when `line` was typed. -/
def Reported (stale : Bool) (line : List Byte) (value : Int) (printed : List Byte) : Prop :=
  value = (report stale ((line.headD 0).toNat - 48)).1 ∧
    printed = chooseTest.bytes ++ (report stale ((line.headD 0).toNat - 48)).2

/-- From every state that a run from boot reaches: with the files of the repository the tests of
`syserr` pass, but for `err_open_lots`, and `err_unopened` alone, when descriptor 7 of its control
block was left open. -/
theorem syserr_reports {behind : BehindTables} {driver : TerminalDriver} {command : CString}
    {frame : CallFrame} {entry : Word} {kernel : Kernel}
    (reachable : ConsoleReachable image behind driver) (tested : Tested image)
    (short : ShortCommand command)
    (executed : driver.kernel.execute image (some command) frame = .done (.iret entry, kernel))
    (memory : Nat → Nat → Byte) (locals buf : Nat → Byte) :
    ∃ slot, findProgramid kernel.cr3 = .done slot ∧
      Program.Completes (testContract image behind)
        (fun value final => (∃ text : List Byte, final.heard = text ++ [10] ∧
            Reported (((kernel.pcb slot).fd 7).flags ≠ 0) final.heard value final.printed) ∧
          RunsAs image behind slot final.driver ∧
          ∀ other, other ≠ slot → final.driver.kernel.pcb other = kernel.pcb other)
        (main memory locals buf) ⟨{ driver with kernel }, [], []⟩ := by
  obtain ⟨slot, started⟩ := execute_started reachable short executed
  refine ⟨slot, started.running.current, ?_⟩
  have begun : Testing ⟨image, behind, slot, kernel.pcb, kernel.currentDirIndex, []⟩
      (Stale (((kernel.pcb slot).fd 7).flags ≠ 0)) [] ⟨{ driver with kernel }, [], []⟩ := by
    refine ⟨started.holding, fun fd low high => ?_, fun _ _ => rfl⟩
    by_cases last : fd = 7
    · rw [Stale, decide_eq_true_eq, and_iff_left last, last]
    · exact iff_of_false (fun flags => flags (started.closed fd low (by omega)))
        fun isStale => last isStale.2
  have whole : ¬ (testContract image behind).cutOff := id
  refine Program.Meets.completes ?_ whole fun _ _ asked => asked.2
  refine Program.meets_bind.mpr ((begun.prints (by decide +kernel)).mono fun _ asked held => ?_)
  have keyboard : ReadsKeyboard (asked.driver.kernel.pcb slot) 0 := by
    rw [held.pcb]
    exact started.stdin
  refine Program.meets_bind.mpr (((begun.keeps held).readsLine keyboard buf).mono
    fun reply read answered => ?_)
  obtain ⟨text, fits, rfl, testing⟩ := answered
  have first : delivered (text ++ [10]) buf 0 = (text ++ [10]).headD 0 :=
    stored_first (delivered_stored (text ++ [10]) buf)
  dsimp only
  rw [if_neg (by omega), if_pos (by omega), first]
  refine (select_reports tested testing memory locals _).mono fun value final reported => ?_
  obtain ⟨used, returned, finished⟩ := reported
  refine ⟨⟨text, finished.holding.heard, ?_⟩, finished.holding.running, finished.others⟩
  rw [finished.holding.heard, finished.holding.printed]
  exact ⟨returned, rfl⟩

theorem listedImage_tested : Tested listedImage := by
  have absent : ∀ {name : CString}, name.strlen < CHAR_LENGTH →
      findEntry listedImage name.char NUM_DIR_ENTRIES 0 = none →
      readDentryByName listedImage name = .done none := by
    intro name short nowhere
    rw [readDentryByName_of_short short, nowhere]
    rfl
  refine ⟨⟨_, listedImage_dot⟩, absent ?_ ?_, absent ?_ ?_⟩ <;> decide +kernel

theorem syserr_reports_shell :
    ∃ driver entry kernel, ConsoleReachable listedImage zeroedTables driver ∧
      driver.kernel.execute listedImage (some shellCommand) zeroedFrame =
        .done (.iret entry, kernel) ∧
      ∃ slot, findProgramid kernel.cr3 = .done slot ∧
        Program.Completes (testContract listedImage zeroedTables)
          (fun value final => (∃ text : List Byte, final.heard = text ++ [10] ∧
              Reported (((kernel.pcb slot).fd 7).flags ≠ 0) final.heard value final.printed) ∧
            RunsAs listedImage zeroedTables slot final.driver ∧
            ∀ other, other ≠ slot → final.driver.kernel.pcb other = kernel.pcb other)
          (main (fun _ _ => 0) (fun _ => 0) fun _ => 0) ⟨{ driver with kernel }, [], []⟩ := by
  obtain ⟨driver, entry, kernel, reachable, executed, _⟩ :=
    bootedShell_executes listedImage_valid zeroedTables commandName_shellCommand shellCommand_short
  exact ⟨driver, entry, kernel, reachable, executed, syserr_reports reachable listedImage_tested
    shellCommand_short executed (fun _ _ => 0) (fun _ => 0) fun _ => 0⟩

end Syserr

end Ece391
