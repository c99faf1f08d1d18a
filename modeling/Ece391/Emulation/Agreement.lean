import Ece391.Emulation.Arguments
import Ece391.Process.Starting
import Ece391.SystemCall.Arguments

namespace Ece391

open Library Kernel Emulation

/-! # Arguments in the kernel and on Linux

The kernel keeps the first argument of a command, the emulation all of them.
-/

variable {image : Image} {kernel after : Kernel} {command : CString} {frame : CallFrame}
  {entry : Word} {buf : Nat → Byte} {nbytes : Int}

theorem launch_argument {fileName savedArgument : CString} {control : Control}
    (done : kernel.launch image fileName savedArgument entry frame = .done (control, after)) :
    ∃ slot dest, findProgramid after.cr3 = .done slot ∧
      (after.pcb slot).argument = strcpy dest savedArgument := by
  obtain ⟨cur, slot, shellEntry, cr3, userPage, _, _, _, directory, rfl⟩ := launch_inv done
  refine ⟨slot, (kernel.pcb slot).argument, directory, ?_⟩
  simp only [enterProgram, loadCr3, saveCaller, setUpPcb, claimSlot, scheduleLaunch,
    Function.update_self]
  by_cases kernelCall : cur = 0
  · simp only [kernelCall, ↓reduceIte, Function.update_self, initialPcb]
  · simp only [kernelCall, ↓reduceIte, Function.update_apply]
    split
    · rename_i same
      simp only [same, ↓reduceIte, initialPcb]
    · rfl

/-- What `getargs` does in the program that was started. -/
theorem execute_getargs (short : ShortCommand command)
    (started : kernel.execute image (some command) frame = .done (.iret entry, after)) :
    after.getargs buf nbytes =
      .done (if nbytes < (commandArgument command).strlen + 1 then (-1, buf)
        else (0, strcpy buf (commandArgument command))) := by
  rw [execute_short short] at started
  obtain ⟨checked, accepted, rest⟩ := Outcome.bind_eq_done.mp started
  cases checked with
  | none => cases rest
  | some entryPoint =>
      obtain ⟨slot, dest, current, argument⟩ := launch_argument rest
      have kept : stringAt (strcpy dest (commandArgument command)) ARGUMENT_LEN 0 =
          some (commandArgument command) := stringAt_strcpy short.argument
      rw [getargs, current, Outcome.done_bind, argument, kept]
      dsimp only
      split <;> rfl

/-- The call returns 0 with the string in its buffer. -/
def Delivers (nbytes : Int) (result : Int × (Nat → Byte)) (string : CString) : Prop :=
  result.1 = 0 ∧ stringAt result.2 nbytes.toNat 0 = some string

theorem Delivers.unique {result : Int × (Nat → Byte)} {left right : CString}
    (first : Delivers nbytes result left) (second : Delivers nbytes result right) : left = right :=
  Option.some.inj (first.2.symm.trans second.2)

def KernelDelivers (after : Kernel) (buf : Nat → Byte) (nbytes : Int) (string : CString) : Prop :=
  ∃ result, after.getargs buf nbytes = .done result ∧ Delivers nbytes result string

/-- `stack` is what the command buffer held before. -/
def EmulationDelivers (command : CString) (stack buf : Nat → Byte) (nbytes : Int)
    (string : CString) : Prop :=
  ∃ argv, ece391Execute command stack = .done (some argv) ∧
    Delivers nbytes (ece391Getargs argv buf nbytes) string

/-- The part of a command behind its name and the spaces after it. -/
def argumentPart (command : CString) : List Byte :=
  (command.bytes.dropWhile fun byte => ! isSpace byte).dropWhile isSpace

/-- A command with arguments, within the bounds of the kernel. -/
structure ArgumentCommand (command : CString) : Prop where
  noNewline : 10 ∉ command.bytes
  noLeadingSpace : command.bytes.head? ≠ some 32
  name : (command.bytes.takeWhile fun byte => ! isSpace byte).length ≤ 31
  length : (argumentPart command).length ≤ 127
  present : words isSpace (argumentPart command) ≠ []

section Parsing

variable {bytes : List Byte}

theorem skipSpaces_eq (bytes : List Byte) : skipSpaces bytes = bytes.dropWhile isSpace := by
  induction bytes with
  | nil => rfl
  | cons byte rest ih =>
      by_cases space : byte = 32
      · rw [skipSpaces, if_pos space, List.dropWhile_cons_of_pos (by simp [isSpace, space]), ih]
      · rw [skipSpaces, if_neg space, List.dropWhile_cons_of_neg (by simp [isSpace, space])]

theorem inWord_eq {byte : Byte} (notNewline : byte ≠ 10) : inWord byte = ! isSpace byte := by
  simp [inWord, isSpace, notNewline]

theorem takeWhile_inWord (noNewline : 10 ∉ bytes) :
    bytes.takeWhile inWord = bytes.takeWhile fun byte => ! isSpace byte := by
  induction bytes with
  | nil => rfl
  | cons byte rest ih =>
      rw [List.mem_cons, not_or] at noNewline
      rw [List.takeWhile_cons, List.takeWhile_cons, inWord_eq (Ne.symm noNewline.1), ih noNewline.2]

theorem dropWhile_inWord (noNewline : 10 ∉ bytes) :
    bytes.dropWhile inWord = bytes.dropWhile fun byte => ! isSpace byte := by
  induction bytes with
  | nil => rfl
  | cons byte rest ih =>
      rw [List.mem_cons, not_or] at noNewline
      rw [List.dropWhile_cons, List.dropWhile_cons, inWord_eq (Ne.symm noNewline.1), ih noNewline.2]

theorem ArgumentCommand.stripped (valid : ArgumentCommand command) :
    skipSpaces command.bytes = command.bytes := by
  have leading := valid.noLeadingSpace
  rw [skipSpaces_eq]
  cases bytes : command.bytes with
  | nil => rfl
  | cons byte rest =>
      rw [bytes, List.head?_cons] at leading
      have notSpace : byte ≠ 32 := fun space => leading (congrArg some space)
      rw [List.dropWhile_cons_of_neg (by simp [isSpace, notSpace])]

theorem ArgumentCommand.commandName (valid : ArgumentCommand command) :
    (commandName command).bytes = command.bytes.takeWhile fun byte => ! isSpace byte := by
  change (skipSpaces command.bytes).takeWhile inWord = _
  rw [valid.stripped]
  exact takeWhile_inWord valid.noNewline

theorem ArgumentCommand.commandArgument (valid : ArgumentCommand command) :
    (commandArgument command).bytes =
      (argumentPart command).takeWhile fun byte => ! isSpace byte := by
  have behind : 10 ∉ argumentPart command := by
    intro member
    exact valid.noNewline ((List.dropWhile_sublist _).mem ((List.dropWhile_sublist _).mem member))
  change (skipSpaces ((skipSpaces command.bytes).dropWhile inWord)).takeWhile inWord = _
  rw [valid.stripped, dropWhile_inWord valid.noNewline, skipSpaces_eq]
  exact takeWhile_inWord behind

/-- The kernel keeps the first word. -/
theorem ArgumentCommand.firstWord (valid : ArgumentCommand command) :
    (Ece391.commandArgument command).bytes = (words isSpace (argumentPart command)).headD [] := by
  rw [valid.commandArgument, argumentPart, words_head, words_dropWhile]

theorem ArgumentCommand.line (valid : ArgumentCommand command) : Line command.bytes := by
  intro byte member
  refine ⟨command.nonzero byte member, fun newline => valid.noNewline ?_⟩
  rwa [← newline]

theorem ArgumentCommand.argument_le (valid : ArgumentCommand command) :
    (Ece391.commandArgument command).strlen ≤ (argumentPart command).length := by
  rw [CString.strlen, valid.commandArgument]
  exact (List.takeWhile_sublist _).length_le

theorem ArgumentCommand.short (valid : ArgumentCommand command) : ShortCommand command := by
  constructor
  · rw [CString.strlen, valid.commandName]
    exact Nat.lt_succ_of_le valid.name
  · exact Nat.lt_succ_of_le (Nat.le_trans valid.argument_le valid.length)

end Parsing

theorem ArgumentCommand.kernelDelivers (valid : ArgumentCommand command)
    (started : kernel.execute image (some command) frame = .done (.iret entry, after))
    (large : ((argumentPart command).length : Int) < nbytes) :
    KernelDelivers after buf nbytes (Ece391.commandArgument command) := by
  have short := valid.argument_le
  refine ⟨(0, strcpy buf (Ece391.commandArgument command)), ?_, rfl, stringAt_strcpy ?_⟩
  · rw [execute_getargs valid.short started, if_neg (by omega)]
  · omega

theorem joined_nonzero (argv : List CString) :
    ∀ byte ∈ [32].intercalate (argv.map CString.bytes), byte ≠ 0 := by
  induction argv with
  | nil => simp
  | cons argument rest ih =>
      cases rest with
      | nil => simpa using argument.nonzero
      | cons second others =>
          intro byte member
          rw [List.map_cons, List.map_cons, List.intercalate_cons_cons, ← List.map_cons] at member
          simp only [List.mem_append, List.mem_singleton] at member
          rcases member with (inside | space) | behind
          · exact argument.nonzero byte inside
          · rw [space]
            decide
          · exact ih byte behind

/-- The emulation joins all words. -/
theorem ArgumentCommand.emulationDelivers (valid : ArgumentCommand command)
    (short : command.strlen ≤ 1023) (large : ((argumentPart command).length : Int) < nbytes)
    (stack buf : Nat → Byte) : ∃ string, EmulationDelivers command stack buf nbytes string ∧
      string.bytes = [32].intercalate (words isSpace (argumentPart command)) := by
  obtain ⟨program, argv, started, bytes⟩ := ece391Execute_eq short valid.line stack
  rw [← words_dropWhile] at bytes
  change argv.map CString.bytes = words isSpace (argumentPart command) at bytes
  have bound := joined_length_le 32 isSpace (argumentPart command)
  rw [← bytes] at bound ⊢
  obtain ⟨result, joined, _, stored⟩ := getargsLoop_joins buf 0
    (Int.lt_of_le_of_lt (Int.ofNat_le.mpr bound) large)
  let string : CString := ⟨[32].intercalate (argv.map CString.bytes), joined_nonzero argv⟩
  refine ⟨string, ⟨program :: argv, started, ?_⟩, rfl⟩
  rw [ece391Getargs, List.tail_cons, joined]
  refine ⟨rfl, stringAt_stored stored ?_⟩
  change ([32].intercalate (argv.map CString.bytes)).length < nbytes.toNat
  omega

theorem EmulationDelivers.unique {stack : Nat → Byte} {left right : CString}
    (first : EmulationDelivers command stack buf nbytes left)
    (second : EmulationDelivers command stack buf nbytes right) : left = right := by
  obtain ⟨argv, started, delivers⟩ := first
  obtain ⟨other, same, delivered⟩ := second
  cases started.symm.trans same
  exact delivers.unique delivered

theorem EmulationDelivers.short {stack : Nat → Byte} {string : CString}
    (delivers : EmulationDelivers command stack buf nbytes string) : command.strlen ≤ 1023 := by
  obtain ⟨argv, started, _⟩ := delivers
  by_contra long
  rw [ece391Execute, if_pos (Nat.lt_of_not_le long)] at started
  cases started

/-- `getargs` delivers the same string on both sides. -/
def ArgumentsAgree (after : Kernel) (command : CString) (stack buf : Nat → Byte) (nbytes : Int) :
    Prop :=
  ∃ string, KernelDelivers after buf nbytes string ∧
    EmulationDelivers command stack buf nbytes string

theorem KernelDelivers.unique {left right : CString} (first : KernelDelivers after buf nbytes left)
    (second : KernelDelivers after buf nbytes right) : left = right := by
  obtain ⟨result, returned, delivers⟩ := first
  obtain ⟨other, same, delivered⟩ := second
  cases returned.symm.trans same
  exact delivers.unique delivered

theorem ArgumentsAgree.joined {stack : Nat → Byte} (valid : ArgumentCommand command)
    (started : kernel.execute image (some command) frame = .done (.iret entry, after))
    (large : ((argumentPart command).length : Int) < nbytes)
    (agree : ArgumentsAgree after command stack buf nbytes) :
    (commandArgument command).bytes = [32].intercalate (words isSpace (argumentPart command)) := by
  obtain ⟨string, ofKernel, ofEmulation⟩ := agree
  obtain ⟨joined, delivers, bytes⟩ := valid.emulationDelivers ofEmulation.short large stack buf
  obtain rfl := ofKernel.unique (valid.kernelDelivers started large)
  obtain rfl := ofEmulation.unique delivers
  exact bytes

/-- The arguments agree if and only if there is one of them, in a command that
the emulation accepts. -/
theorem arguments_agree_iff (valid : ArgumentCommand command)
    (started : kernel.execute image (some command) frame = .done (.iret entry, after))
    (large : ((argumentPart command).length : Int) < nbytes) (stack buf : Nat → Byte) :
    ArgumentsAgree after command stack buf nbytes ↔
      (words isSpace (argumentPart command)).length = 1 ∧ command.strlen ≤ 1023 := by
  have first := valid.firstWord
  obtain ⟨word, others, split⟩ := List.exists_cons_of_ne_nil valid.present
  rw [split, List.headD_cons] at first
  constructor
  · intro agree
    have bytes := agree.joined valid started large
    obtain ⟨string, _, ofEmulation⟩ := agree
    refine ⟨?_, ofEmulation.short⟩
    rw [split] at bytes ⊢
    cases others with
    | nil => rfl
    | cons second remaining =>
        rw [first, List.intercalate_cons_cons] at bytes
        have lengths := congrArg List.length bytes
        simp only [List.length_append, List.length_singleton] at lengths
        omega
  · intro single
    obtain ⟨joined, delivers, bytes⟩ := valid.emulationDelivers single.2 large stack buf
    have alone : others = [] := by
      have count := single.1
      rw [split, List.length_cons] at count
      exact List.length_eq_zero_iff.mp (Nat.succ.inj count)
    rw [split, alone, List.intercalate_singleton] at bytes
    have same : commandArgument command = joined := CString.ext_bytes (first.trans bytes.symm)
    exact ⟨joined, same ▸ valid.kernelDelivers started large, delivers⟩

/-- The first shell executes a shell with arguments. -/
theorem shellArguments_start (valid : ArgumentCommand command)
    (named : commandName command = shellCommand) : ∃ first entry after,
      FirstShell shellImage first ∧
        first.execute shellImage (some command) zeroedFrame = .done (.iret entry, after) := by
  obtain ⟨first, started, launched⟩ := firstShell_exists shellImage_valid zeroedMemory zeroedFrame
  have nested := nested_first launched
  have shell : ValidProgram shellImage (commandName command) (shellImage.dirEntry 0) := by
    rw [named]
    exact shellImage_valid
  obtain ⟨entry, after, executed, _⟩ := execute_starts valid.short shell zeroedFrame nested.current
    (nested.findSlot (by decide)) (by decide)
  exact ⟨first, entry, after, started, executed⟩

/-- `shell a b` -/
def twoArguments : CString := ⟨[115, 104, 101, 108, 108, 32, 97, 32, 98], by simp⟩

theorem twoArguments_words : words isSpace (argumentPart twoArguments) = [[97], [98]] := by
  decide

theorem twoArguments_valid : ArgumentCommand twoArguments where
  noNewline := by decide
  noLeadingSpace := by decide
  name := by decide
  length := by decide
  present := by simp [twoArguments_words]

theorem arguments_agree_iff_twoArguments :
    ∃ first entry after, FirstShell shellImage first ∧
      first.execute shellImage (some twoArguments) zeroedFrame = .done (.iret entry, after) ∧
      (ArgumentsAgree after twoArguments (fun _ => 0) (fun _ => 0) 128 ↔
        (words isSpace (argumentPart twoArguments)).length = 1 ∧ twoArguments.strlen ≤ 1023) := by
  obtain ⟨first, entry, after, started, executed⟩ :=
    shellArguments_start twoArguments_valid (by decide)
  exact ⟨first, entry, after, started, executed,
    arguments_agree_iff twoArguments_valid executed (by decide) _ _⟩

/-- The kernel delivers `a`, the emulation `a b`. -/
theorem second_argument_lost :
    ∃ first entry after, FirstShell shellImage first ∧ ArgumentCommand twoArguments ∧
      first.execute shellImage (some twoArguments) zeroedFrame = .done (.iret entry, after) ∧
      ¬ ArgumentsAgree after twoArguments (fun _ => 0) (fun _ => 0) 128 := by
  obtain ⟨first, entry, after, started, executed⟩ :=
    shellArguments_start twoArguments_valid (by decide)
  refine ⟨first, entry, after, started, twoArguments_valid, executed, ?_⟩
  intro agree
  have bytes := agree.joined twoArguments_valid executed (by decide)
  rw [twoArguments_words] at bytes
  exact absurd bytes (by decide)

end Ece391
