import Ece391.UserProgram.Hello
import Ece391.UserProgram.Processes
import Ece391.UserProgram.Shell

namespace Ece391

open Library Kernel

/-! # The shell and the programs it starts (ece391shell.c)

Here the kernel answers the shell: its lines come from the keyboard and its commands run the
programs in the files.
-/

/-- What a program does when it is started with a command: its result, what it reads from the
keyboard and what it prints. -/
abbrev Behaviour := CString → Int → List Byte → List Byte → Prop

section Commands

variable (image : Image) (behind : BehindTables) (programs : CString → UserProgram Int → Prop)
  (behaviour : Behaviour)

/-- The kernel finds no program for the command. -/
def NoProgram (command : CString) : Prop :=
  ∀ buf, checkExecutable image (commandName command) buf = .done none

/-- What `ece391_execute` makes of a command. -/
inductive Response : Behaviour
  | refused {command : CString} (nothing : NoProgram image command) : Response command (-1) [] []
  | ran {command : CString} {value : Int} {heard printed : List Byte}
      (behaves : behaviour command value heard printed) :
      Response command (value % 256) heard printed

/-- Every command names a program that is installed or none, and the programs behave. -/
structure Installed (depth : Nat) : Prop where
  known : ∀ command, ShortCommand command → NoProgram image command ∨
    (∃ dentry, ValidProgram image (commandName command) dentry) ∧
      ∃ main, programs (commandName command) main
  behaves : ∀ {command main slot driver}, programs (commandName command) main →
    Started image behind command slot driver → ∀ heard printed,
      Program.Meets (processContract image behind programs depth)
        (fun value ended => ∃ taken chars, behaviour command value taken chars ∧
          ended.heard = heard ++ taken ∧ ended.printed = printed ++ chars)
        main ⟨driver, heard, printed⟩

end Commands

namespace Shell

/-- The first rounds of the shell, which may never end. -/
def session (count : Nat) (buf : Nat → Byte) : UserProgram ((Nat → Byte) ⊕ Int) := do
  ece391Fdputs 1 starting391Shell.memory
  Program.rounds round count buf

theorem main_eq_session (fuel : Nat) (buf : Nat → Byte) :
    main fuel buf = (session fuel buf).bind (Sum.elim (fun _ => .cut) .done) := by
  change (ece391Fdputs 1 starting391Shell.memory).bind _ =
    ((ece391Fdputs 1 starting391Shell.memory).bind _).bind _
  rw [Program.bind_assoc]
  congr 1
  funext _
  exact Program.loop_eq_rounds

/-- What is printed behind the output of a command. -/
def remark (rval : Int) : List Byte := (message rval).elim [] CString.bytes

/-- What is typed and printed in some rounds. -/
inductive Dialogue (response : Behaviour) : Nat → List Byte → List Byte → Prop
  | start : Dialogue response 0 [] starting391Shell.bytes
  | blank {count : Nat} {heard printed text : List Byte}
      (before : Dialogue response count heard printed) (empty : CString.ofStored text = .empty) :
      Dialogue response (count + 1) (heard ++ (text ++ [10])) (printed ++ prompt.bytes)
  | command {count : Nat} {heard printed text taken chars : List Byte} {rval : Int}
      (before : Dialogue response count heard printed) (nonempty : CString.ofStored text ≠ .empty)
      (noExit : CString.ofStored text ≠ exit)
      (responds : response (.ofStored text) rval taken chars) :
      Dialogue response (count + 1) (heard ++ (text ++ [10]) ++ taken)
        (printed ++ prompt.bytes ++ chars ++ remark rval)

/-- A dialogue that the user ended. -/
def Dismissed (response : Behaviour) (value : Int) (heard printed : List Byte) : Prop :=
  value = 0 ∧ ∃ count before shown text, Dialogue response count before shown ∧
    CString.ofStored text = exit ∧ heard = before ++ (text ++ [10]) ∧
      printed = shown ++ prompt.bytes

/-- The shell reads commands that have room in the arrays of `execute`. -/
def ReadsShort : (call : UserCall) → call.Reply → Prop
  | .ece391Read _ _ _, (cnt, buf) => ShortCommand (entered cnt buf)
  | _, _ => True

/-- The kernel, and a user who enters short commands. -/
def sessionContract (image : Image) (behind : BehindTables)
    (programs : CString → UserProgram Int → Prop) (depth : Nat) :
    Contract ProcessView UserCall UserCall.Reply :=
  (processContract image behind programs (depth + 1)).restricted ReadsShort

variable {image : Image} {behind : BehindTables} {programs : CString → UserProgram Int → Prop}
  {behaviour : Behaviour} {depth cur slot : Nat} {openTasks : Nat → Int}
  {heard printed text : List Byte} {view : ProcessView}

/-- The shell runs and can start a program. -/
structure Conversing (image : Image) (behind : BehindTables) (cur slot : Nat)
    (heard printed : List Byte) (view : ProcessView) : Prop where
  running : RunsAs image behind cur view.driver
  keyboard : ReadsKeyboard (view.driver.kernel.pcb cur) 0
  found : (findSlot view.driver.kernel.openTasks).2 = some slot
  inside : slot ≤ 6
  heard : view.heard = heard
  printed : view.printed = printed

theorem Conversing.holding (conversing : Conversing image behind cur slot heard printed view) :
    Holding image behind cur view.driver.kernel.pcb view.driver.kernel.currentDirIndex heard printed
      view :=
  ⟨conversing.running, rfl, rfl, conversing.heard, conversing.printed⟩

/-- A call that leaves standard input alone. -/
theorem Conversing.next {next : ProcessView} {taken chars : List Byte}
    (conversing : Conversing image behind cur slot heard printed view)
    (running : RunsAs image behind cur next.driver)
    (same : SameProcesses cur view.driver.kernel next.driver.kernel)
    (stdin : (next.driver.kernel.pcb cur).fd 0 = (view.driver.kernel.pcb cur).fd 0)
    (input : next.heard = taken) (output : next.printed = chars) :
    Conversing image behind cur slot taken chars next where
  running := running
  keyboard := by
    obtain ⟨isOpen, isTerminal⟩ := conversing.keyboard
    have zero : (0 : Int).toNat = 0 := rfl
    rw [zero] at isOpen isTerminal
    rw [← stdin] at isOpen isTerminal
    exact ⟨isOpen, isTerminal⟩
  found := by
    rw [same.openTasks]
    exact conversing.found
  inside := conversing.inside
  heard := input
  printed := output

theorem meets_session {α : Type} {post : α → ProcessView → Prop} {program : UserProgram α}
    (only : Program.AsksOnly (fun call => ∀ reply, ReadsShort call reply) program)
    (meets : Program.Meets (kernelContract image behind) post program view) :
    Program.Meets (sessionContract image behind programs depth)
      (fun value final => post value final ∧ GoesOn image behind view final) program view :=
  (meets_processes (meets.keeps (@GoesOn.trans image behind) kernelContract_goesOn (GoesOn.refl view))
    (depth + 1)).restricted only (processContract_answered (depth + 1))

theorem Conversing.puts {text : CString}
    (conversing : Conversing image behind cur slot heard printed view)
    (small : text.strlen < 2147483648) :
    Program.Meets (sessionContract image behind programs depth)
      (fun _ next => Conversing image behind cur slot heard (printed ++ text.bytes) next)
      (ece391Fdputs 1 text.memory) view := by
  have only : Program.AsksOnly (fun call => ∀ reply, ReadsShort call reply)
      (ece391Fdputs 1 text.memory) := by
    have measured : ece391Strlen text.memory = .done text.strlen := strlen_memory text (by omega)
    simp only [ece391Fdputs, measured]
    exact ⟨fun _ => trivial, fun _ => trivial⟩
  refine (meets_session only (conversing.holding.putsMessage small)).mono fun _ next shown => ?_
  obtain ⟨held, goesOn⟩ := shown
  obtain ⟨running, same⟩ := goesOn cur conversing.running
  refine conversing.next running same ?_ held.heard held.printed
  rw [held.pcb]

theorem upTo_ofStored {memory : Nat → Byte} {start : Nat}
    (same : ∀ i (inside : i < text.length), memory (start + i) = text[i]) :
    CString.upTo memory text.length start = .ofStored text := by
  induction text generalizing start with
  | nil => rfl
  | cons byte rest ih =>
      have first : memory start = byte := same 0 (Nat.succ_pos _)
      have later : CString.upTo memory rest.length (start + 1) = .ofStored rest := by
        apply ih
        intro i inside
        rw [Nat.add_assoc, Nat.add_comm 1]
        exact same (i + 1) (Nat.succ_lt_succ inside)
      apply CString.ext_bytes
      by_cases zero : byte = 0
      · simp [CString.upTo, first, zero, CString.ofStored, CString.empty]
      · simp [CString.upTo, first, zero, CString.ofStored, CString.cons, later]

/-- What the shell takes for a command. -/
theorem entered_delivered (text : List Byte) (buf : Nat → Byte) :
    entered (text ++ [10]).length (delivered (text ++ [10]) buf) = .ofStored text := by
  have length : (text ++ [10]).length = text.length + 1 := by
    rw [List.length_append, List.length_singleton]
  have last : delivered (text ++ [10]) buf text.length = 10 := by
    rw [delivered, List.append_assoc, List.getD_eq_getElem?_getD, List.getElem?_append_right
      (Nat.le_refl _), Nat.sub_self]
    rfl
  have count : (((text ++ [10]).length : Int) - 1).toNat = text.length := by omega
  have newline : lineLength (text ++ [10]).length (delivered (text ++ [10]) buf) = text.length := by
    rw [lineLength, count, if_pos ⟨by omega, last⟩]
    omega
  rw [entered, newline, Int.toNat_natCast]
  apply upTo_ofStored
  intro i inside
  rw [Nat.zero_add, delivered, List.append_assoc, List.getD_eq_getElem?_getD,
    List.getElem?_append_left inside, List.getElem?_eq_getElem inside, Option.getD_some]

theorem shortCommand_empty : ShortCommand (.ofStored []) := ⟨by decide, by decide⟩

theorem Conversing.reads (conversing : Conversing image behind cur slot heard printed view)
    (buf : Nat → Byte) :
    Program.Meets (sessionContract image behind programs depth)
      (fun reply next => ∃ text : List Byte, (text ++ [10]).length < BUFSIZE ∧
        reply = (((text ++ [10]).length : Int), delivered (text ++ [10]) buf) ∧
        ShortCommand (.ofStored text) ∧
        Conversing image behind cur slot (heard ++ (text ++ [10])) printed next)
      (ece391Read 0 buf (BUFSIZE - 1)) view := by
  have lines : Program.Meets (kernelContract image behind) _ (ece391Read 0 buf (BUFSIZE - 1)) view :=
    conversing.holding.readsLine conversing.keyboard buf
  have deeper : Program.Meets (processContract image behind programs (depth + 1)) _
      (Program.ask (UserCall.ece391Read 0 buf (BUFSIZE - 1))) view := meets_processes
    (lines.keeps (@GoesOn.trans image behind) kernelContract_goesOn (GoesOn.refl view)) (depth + 1)
  have possible : ∃ reply next, (processContract image behind programs (depth + 1)).answers view
      (.ece391Read 0 buf (BUFSIZE - 1)) reply next ∧
        ReadsShort (.ece391Read 0 buf (BUFSIZE - 1)) reply := by
    obtain ⟨taken, next, served⟩ := conversing.running.endsLine conversing.keyboard buf
    refine ⟨_, ⟨next, view.heard ++ taken, view.printed ++ []⟩,
      .inl ⟨view.driver, taken, [], .refl, served, rfl, rfl⟩, ?_⟩
    have command : ShortCommand (entered ([] ++ [10] : List Byte).length
        (delivered ([] ++ [10]) buf)) := by
      rw [entered_delivered]
      exact shortCommand_empty
    exact command
  refine (deeper.expecting possible).mono fun reply next answered => ?_
  obtain ⟨⟨⟨text, fits, rfl, held⟩, goesOn⟩, command⟩ := answered
  have short : ShortCommand (entered (text ++ [10]).length (delivered (text ++ [10]) buf)) := command
  rw [entered_delivered] at short
  obtain ⟨running, same⟩ := goesOn cur conversing.running
  refine ⟨text, Nat.lt_of_le_of_lt fits (by decide), rfl, short, ?_⟩
  refine conversing.next running same ?_ held.heard held.printed
  rw [held.pcb]

theorem execute_refused {command : CString} {kernel : Kernel} (short : ShortCommand command)
    (nothing : NoProgram image command) (frame : CallFrame) :
    kernel.execute image (some command) frame = .done (.returns (-1), kernel) := by
  rw [execute_short short, nothing]
  rfl

theorem Conversing.executes {command : CString}
    (installed : Installed image behind programs behaviour depth)
    (conversing : Conversing image behind cur slot heard printed view)
    (short : ShortCommand command) :
    Program.Meets (sessionContract image behind programs depth)
      (fun reply next => ∃ taken chars, Response image behaviour command reply taken chars ∧
        Conversing image behind cur slot (heard ++ taken) (printed ++ chars) next)
      (ece391Execute command) view := by
  have only : Program.AsksOnly (fun call => ∀ reply, ReadsShort call reply)
      (ece391Execute command) := ⟨fun _ => trivial, fun _ => trivial⟩
  refine Program.Meets.restricted only (processContract_answered (depth + 1)) ?_
  rcases installed.known command short with nothing | ⟨valid, known⟩
  · refine Program.meets_spawned ?_ ?_ ?_ ?_
    · intro reply next answer
      obtain ⟨_, _, _, _, served, _⟩ := answer
      cases served
    · exact .inl ⟨_, _, .execute .refl (execute_refused short nothing zeroedFrame)⟩
    · intro reply next refused
      cases refused with
      | execute typing done =>
          cases (execute_refused short nothing _).symm.trans done
          refine ⟨[], [], .refused nothing, ?_⟩
          rw [List.append_nil, List.append_nil]
          refine conversing.next (conversing.running.typed typing)
            (conversing.running.typed_same typing) ?_ conversing.heard conversing.printed
          exact congrArg (fun pcb : Nat → Pcb => (pcb cur).fd 0) typing.same.pcb
    · intro frame main inside entered
      cases entered with
      | execute typing program done => cases (execute_refused short nothing _).symm.trans done
  · have startable : Startable image programs command slot view.driver.kernel :=
      ⟨short, valid, known, conversing.found, conversing.inside⟩
    have runs := conversing.running.executes startable
      fun main driver program started _ _ =>
        installed.behaves program started view.heard view.printed
    refine runs.mono fun reply next back => ?_
    obtain ⟨value, ended, ⟨taken, chars, behaves, input, output⟩, rfl, resumes⟩ := back
    refine ⟨taken, chars, .ran behaves, conversing.next resumes.running resumes.same ?_ ?_ ?_⟩
    · obtain ⟨cr3, frame, own⟩ := resumes.own
      rw [own]
      rfl
    · rw [resumes.heard, input, conversing.heard]
    · rw [resumes.printed, output, conversing.printed]

theorem Conversing.reports (conversing : Conversing image behind cur slot heard printed view)
    (rval : Int) :
    Program.Meets (sessionContract image behind programs depth)
      (fun _ next => Conversing image behind cur slot heard (printed ++ remark rval) next)
      (report rval) view := by
  rw [remark, report]
  cases found : message rval with
  | none =>
      rw [Option.elim_none, List.append_nil]
      exact conversing
  | some text => exact conversing.puts (message_small found)

/-- Some rounds were a dialogue and the shell goes on. -/
def Engaged (image : Image) (behind : BehindTables) (behaviour : Behaviour) (cur slot count : Nat)
    (view : ProcessView) : Prop :=
  ∃ heard printed, Dialogue (Response image behaviour) count heard printed ∧
    Conversing image behind cur slot heard printed view

/-- What has become of the shell after some of its rounds. -/
def Conversed (image : Image) (behaviour : Behaviour) (count : Nat) (outcome : (Nat → Byte) ⊕ Int)
    (final : ProcessView) : Prop :=
  outcome.elim
    (fun _ => Dialogue (Response image behaviour) count final.heard final.printed)
    (fun value => Dismissed (Response image behaviour) value final.heard final.printed)

theorem round_converses {count : Nat}
    (installed : Installed image behind programs behaviour depth)
    (engaged : Engaged image behind behaviour cur slot count view) (before : Nat → Byte) :
    Program.Meets (sessionContract image behind programs depth)
      (fun outcome next => outcome.elim
        (fun _ => Engaged image behind behaviour cur slot (count + 1) next)
        (fun value => Dismissed (Response image behaviour) value next.heard next.printed))
      (round before) view := by
  obtain ⟨heard, printed, dialogue, conversing⟩ := engaged
  refine Program.meets_bind.mpr ((conversing.puts (by decide +kernel)).mono
    fun _ prompted prompting => ?_)
  refine Program.meets_bind.mpr ((prompting.reads before).mono fun reply given answered => ?_)
  obtain ⟨text, fits, rfl, short, reading⟩ := answered
  have line : entered ((text ++ [10]).length : Int) (delivered (text ++ [10]) before) =
      .ofStored text := entered_delivered text before
  have given : ¬ ((text ++ [10]).length : Int) = -1 := by omega
  have inside : 0 ≤ lineLength ((text ++ [10]).length : Int) (delivered (text ++ [10]) before) ∧
      lineLength ((text ++ [10]).length : Int) (delivered (text ++ [10]) before) < BUFSIZE := by
    rw [List.length_append, List.length_singleton] at fits ⊢
    simp only [lineLength]
    split <;> omega
  dsimp only
  rw [if_neg given, if_pos inside]
  by_cases leaves : CString.ofStored text = exit
  · rw [if_pos ((strcmp_line inside).mpr (line.trans leaves))]
    exact ⟨rfl, count, heard, printed, text, dialogue, leaves, reading.heard, reading.printed⟩
  · rw [if_neg fun zero => leaves (line.symm.trans ((strcmp_line inside).mp zero))]
    by_cases empty : CString.ofStored text = .empty
    · rw [if_pos ((first_line inside).mpr (line.trans empty))]
      exact ⟨_, _, .blank dialogue empty, reading⟩
    · rw [if_neg fun zero => empty (line.symm.trans ((first_line inside).mp zero))]
      have stored : CString.upTo (Function.update (delivered (text ++ [10]) before)
          (lineLength ((text ++ [10]).length : Int) (delivered (text ++ [10]) before)).toNat 0)
          BUFSIZE 0 = .ofStored text := (upTo_update (by omega)).trans line
      rw [stored]
      refine Program.meets_bind.mpr ((reading.executes installed short).mono
        fun rval executed back => ?_)
      obtain ⟨taken, chars, responds, resumed⟩ := back
      refine Program.meets_bind.mpr ((resumed.reports rval).mono fun _ next reported => ?_)
      exact ⟨_, _, .command dialogue empty leaves responds, reported⟩

theorem sessionContract_answered (view : ProcessView) (call : UserCall)
    (asked : (sessionContract image behind programs depth).asks view call) :
    ∃ reply next, (sessionContract image behind programs depth).answers view call reply next :=
  asked.2

/-- The shell on the kernel: whatever programs are installed and whatever is typed, as long as
every command is short, the shell and its programs come through any number of rounds.  Either
all of them are a dialogue, in which each line is answered by its own command and none else,
or the user has entered `exit` and the shell returns 0. -/
theorem shell_converses {driver : TerminalDriver}
    (installed : Installed image behind programs behaviour depth)
    (running : RunsAs image behind cur driver) (stdin : ReadsKeyboard (driver.kernel.pcb cur) 0)
    (found : (findSlot driver.kernel.openTasks).2 = some slot) (inside : slot ≤ 6) (count : Nat)
    (buf : Nat → Byte) :
    Program.Completes (sessionContract image behind programs depth)
      (Conversed image behaviour count) (session count buf) ⟨driver, [], []⟩ := by
  have fresh : Conversing image behind cur slot [] [] ⟨driver, [], []⟩ :=
    ⟨running, stdin, found, inside, rfl, rfl⟩
  have whole : ¬ (processContract image behind programs (depth + 1)).cutOff :=
    processContract_whole (depth + 1)
  refine Program.Meets.completes (Program.meets_bind.mpr ?_) whole sessionContract_answered
  refine (fresh.puts (by decide +kernel)).mono fun _ begun greeted => ?_
  have engaged : Engaged image behind behaviour cur slot 0 begun := ⟨_, _, .start, greeted⟩
  have turns : ∀ (turn : Nat) (start : Nat → Byte) (view : ProcessView),
      Engaged image behind behaviour cur slot turn view →
      Program.Meets (sessionContract image behind programs depth)
        (fun outcome next => outcome.elim
          (fun _ => Engaged image behind behaviour cur slot (turn + 1) next)
          (fun value => Dismissed (Response image behaviour) value next.heard next.printed))
        (round start) view :=
    fun turn start view engaged => round_converses installed engaged start
  refine (Program.Meets.rounds turns engaged).mono fun outcome final conversed => ?_
  cases outcome with
  | inl again =>
      obtain ⟨heard, printed, dialogue, conversing⟩ := conversed
      rw [Nat.zero_add] at dialogue
      rw [← conversing.heard, ← conversing.printed] at dialogue
      exact dialogue
  | inr value => exact conversed

/-- Whatever a name finds there is the program. -/
theorem shellImage_programs {command : CString} (short : ShortCommand command) :
    NoProgram shellImage command ∨
      ∃ dentry, ValidProgram shellImage (commandName command) dentry := by
  have looked : readDentryByName shellImage (commandName command) = _ :=
    readDentryByName_of_short short.name
  cases found : findEntry shellImage (commandName command).char NUM_DIR_ENTRIES 0 with
  | none =>
      rw [found] at looked
      exact .inl (checkExecutable_absent looked)
  | some index =>
      rw [found] at looked
      have bound : index < NUM_DIR_ENTRIES := by
        have range := (findEntry_eq_some.mp found).2.1
        rwa [Nat.zero_add] at range
      have inodes : ∀ index < NUM_DIR_ENTRIES, (shellImage.dirEntry index).inodeNum = 0 := by
        decide +kernel
      have same : (shellImage.dirEntry index).inodeNum = (shellImage.dirEntry 0).inodeNum :=
        inodes index bound
      refine .inr ⟨_, looked, ?_, ?_, ?_, ?_⟩
      · rw [same]
        exact shellImage_valid.inode
      · rw [same]
        exact shellImage_valid.header
      · rw [same]
        exact shellImage_valid.fits
      · rw [same]
        exact shellImage_valid.magic

/-- The one program is `hello`. -/
def helloPrograms (_ : CString) (main : UserProgram Int) : Prop := main = Hello.main fun _ => 0

def helloBehaviour : Behaviour := fun _ value heard printed =>
  value = 0 ∧ ∃ text : List Byte, heard = text ++ [10] ∧ printed = Hello.output (text ++ [10])

theorem hello_installed (behind : BehindTables) :
    Installed shellImage behind helloPrograms helloBehaviour depth where
  known command short := (shellImage_programs short).imp_right fun valid => ⟨valid, _, rfl⟩
  behaves := by
    intro command main slot driver program started heard printed
    obtain rfl := program
    have holding : Holding shellImage behind slot driver.kernel.pcb driver.kernel.currentDirIndex
        heard printed ⟨driver, heard, printed⟩ := ⟨started.running, rfl, rfl, rfl, rfl⟩
    refine meets_processes ((Hello.main_greets holding started.stdin).mono
      fun value ended greeted => ?_) depth
    obtain ⟨zero, text, _, answered⟩ := greeted
    exact ⟨_, _, ⟨zero, text, rfl, rfl⟩, answered.heard, answered.printed⟩

/-- The shell that the first shell starts. -/
theorem shell_converses_hello :
    ∃ driver, RunsAs shellImage zeroedTables 2 driver ∧
      Program.Completes (sessionContract shellImage zeroedTables helloPrograms 0)
        (Conversed shellImage helloBehaviour 7) (session 7 fun _ => 0) ⟨driver, [], []⟩ := by
  obtain ⟨driver, reachable, nested, _⟩ := bootedShell_reachable shellImage_valid zeroedTables
  obtain ⟨entry, kernel, executed, _, deeper⟩ :=
    nested.launched shellImage_valid zeroedFrame (by decide)
  obtain ⟨slot, started⟩ := execute_started reachable shellCommand_short executed
  obtain rfl := Outcome.done.inj (started.running.current.symm.trans deeper.current)
  exact ⟨_, started.running, shell_converses (hello_installed zeroedTables) started.running
    started.stdin (deeper.findSlot (by decide)) (by decide) 7 fun _ => 0⟩

end Shell

end Ece391
