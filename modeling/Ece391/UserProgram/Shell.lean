import Ece391.UserProgram.Service

namespace Ece391

open Library

/-! # ece391shell.c

The shell is judged by what it asks, whatever it is answered.
-/

/-- The loop of `ece391_strcmp` from index `i`; it ends at the latest at the
terminator of `s2`. -/
def ece391StrcmpFrom (s1 s2 : Nat → Byte) : (limit i : Nat) → Int
  | 0, _ => 0
  | limit + 1, i =>
      if s1 i = s2 i then
        if s1 i = 0 then 0 else ece391StrcmpFrom s1 s2 limit (i + 1)
      else (s1 i).toNat - (s2 i).toNat

def ece391Strcmp (s1 : Nat → Byte) (s2 : CString) : Int :=
  ece391StrcmpFrom s1 s2.char (s2.strlen + 1) 0

namespace Shell

def BUFSIZE : Nat := 1024

def starting391Shell : CString := ⟨bytesOf "Starting 391 Shell\n", by decide +kernel⟩

def prompt : CString := ⟨bytesOf "391OS> ", by decide +kernel⟩

def readFromKeyboardFailed : CString := ⟨bytesOf "read from keyboard failed\n", by decide +kernel⟩

def exit : CString := ⟨bytesOf "exit", by decide +kernel⟩

def noSuchCommand : CString := ⟨bytesOf "no such command\n", by decide +kernel⟩

def terminatedByException : CString :=
  ⟨bytesOf "program terminated by exception\n", by decide +kernel⟩

def terminatedAbnormally : CString := ⟨bytesOf "program terminated abnormally\n", by decide +kernel⟩

/-- The message for what `ece391_execute` returned. -/
def message (rval : Int) : Option CString :=
  if -1 = rval then some noSuchCommand
  else if 256 = rval then some terminatedByException
  else if 0 ≠ rval then some terminatedAbnormally
  else none

def report (rval : Int) : UserProgram Unit :=
  match message rval with
  | some text => ece391Fdputs 1 text.memory
  | none => return ()

/-- Without the newline. -/
def lineLength (cnt : Int) (buf : Nat → Byte) : Int :=
  if cnt > 0 ∧ buf (cnt - 1).toNat = 10 then cnt - 1 else cnt

/-- One round of the loop; a store outside `buf` leaves the model. -/
def round (buf : Nat → Byte) : UserProgram ((Nat → Byte) ⊕ Int) := do
  ece391Fdputs 1 prompt.memory
  let (cnt, buf) ← ece391Read 0 buf (BUFSIZE - 1)
  if cnt = -1 then do
    ece391Fdputs 1 readFromKeyboardFailed.memory
    return .inr 3
  else if 0 ≤ lineLength cnt buf ∧ lineLength cnt buf < BUFSIZE then
    let buf := Function.update buf (lineLength cnt buf).toNat 0
    if ece391Strcmp buf exit = 0 then return .inr 0
    else if buf 0 = 0 then return .inl buf
    else do
      let rval ← ece391Execute (.upTo buf BUFSIZE 0)
      report rval
      return .inl buf
  else .cut

def main (fuel : Nat) (buf : Nat → Byte) : UserProgram Int := do
  ece391Fdputs 1 starting391Shell.memory
  Program.loop round fuel buf

structure Exchange where
  call : UserCall
  reply : call.Reply

/-- The line that a read has brought, without its newline and up to a NUL. -/
def entered (cnt : Int) (buf : Nat → Byte) : CString := .upTo buf (lineLength cnt buf).toNat 0

/-- What a read returned. -/
def Exchange.read : Exchange → Option (Int × (Nat → Byte))
  | ⟨.ece391Read _ _ _, reply⟩ => some reply
  | _ => none

def lineOf (input : Int × (Nat → Byte)) : Option CString :=
  if input.1 = -1 then none else some (entered input.1 input.2)

def commandOf : UserCall → Option CString
  | .ece391Execute command => some command
  | _ => none

/-- What a write has shown. -/
def Exchange.text : Exchange → List Byte
  | ⟨.ece391Write _ buf nbytes, _⟩ => (List.range nbytes.toNat).filterMap buf
  | _ => []

/-- What is to be shown after an exchange. -/
def Exchange.response : Exchange → List Byte
  | ⟨.ece391Read _ _ _, (cnt, buf)⟩ =>
      if cnt = -1 then readFromKeyboardFailed.bytes
      else if entered cnt buf = .empty then prompt.bytes
      else []
  | ⟨.ece391Execute _, rval⟩ => ((message rval).elim [] CString.bytes) ++ prompt.bytes
  | _ => []

def inputs (log : List Exchange) : List (Int × (Nat → Byte)) := log.filterMap Exchange.read

def lines (log : List Exchange) : List CString := (inputs log).filterMap lineOf

def executed (log : List Exchange) : List CString := log.filterMap fun each => commandOf each.call

/-- The lines that are commands. -/
def commands (log : List Exchange) : List CString :=
  (lines log).filter fun line => line ≠ .empty ∧ line ≠ exit

def shown (log : List Exchange) : List Byte := log.flatMap Exchange.text

def responses (log : List Exchange) : List Byte :=
  starting391Shell.bytes ++ prompt.bytes ++ log.flatMap Exchange.response

/-- An environment that gives at most `limit` lines, each of which fits the
buffer, and answers everything else as it likes. -/
def Answers (limit : Nat) (log : List Exchange) (call : UserCall) (reply : call.Reply)
    (next : List Exchange) : Prop :=
  next = log ++ [⟨call, reply⟩] ∧ (inputs next).length ≤ limit ∧
    ∀ cnt buf, (Exchange.mk call reply).read = some (cnt, buf) → -1 ≤ cnt ∧ cnt < BUFSIZE

/-- So far every command was executed, in order and once, and every reply was
answered. -/
structure UpToDate (log : List Exchange) : Prop where
  executed : executed log = commands log
  shown : shown log = responses log

/-- What the shell may ask next. -/
def Asks (log : List Exchange) : UserCall → Prop
  | .ece391Read fd _ nbytes => fd = 0 ∧ nbytes = BUFSIZE - 1 ∧ UpToDate log
  | .ece391Execute command =>
      executed log ++ [command] = commands log ∧ shown log = responses log
  | .ece391Write fd _ _ => fd = 1 ∧ executed log = commands log
  | _ => False

def ReadFailed (log : List Exchange) : Prop := ∃ buf, (-1, buf) ∈ inputs log

/-- Why the shell has returned. -/
def Returned (value : Int) (log : List Exchange) : Prop :=
  UpToDate log ∧
    (value = 0 ∧ exit ∈ lines log ∧ ¬ ReadFailed log ∨
      value = 3 ∧ exit ∉ lines log ∧ ReadFailed log)

def contract (limit : Nat) : Contract (List Exchange) UserCall UserCall.Reply where
  answers := Answers limit
  asks := Asks
  cutOff := False

theorem ece391StrcmpFrom_eq_zero {s1 : Nat → Byte} {s2 : CString} {limit i : Nat}
    (reaches : s2.strlen < i + limit) (before : ∀ j < i, s1 j = s2.char j) (inside : i ≤ s2.strlen) :
    ece391StrcmpFrom s1 s2.char limit i = 0 ↔ ∀ j ≤ s2.strlen, s1 j = s2.char j := by
  induction limit generalizing i with
  | zero => omega
  | succ limit ih =>
      simp only [ece391StrcmpFrom]
      by_cases same : s1 i = s2.char i
      · rw [if_pos same]
        by_cases last : i = s2.strlen
        · have zero : s1 i = 0 := by
            rw [same, last]
            exact CString.char_of_ge (Nat.le_refl _)
          rw [if_pos zero]
          refine ⟨fun _ j within => ?_, fun _ => rfl⟩
          by_cases isLast : j = i
          · rw [isLast, same]
          · exact before j (by omega)
        · have nonzero : s1 i ≠ 0 := by
            rw [same]
            exact CString.char_ne_zero (by omega)
          rw [if_neg nonzero]
          apply ih (by omega) _ (by omega)
          intro j below
          by_cases isLast : j = i
          · rw [isLast, same]
          · exact before j (by omega)
      · rw [if_neg same]
        constructor
        · intro zero
          exact absurd (UInt8.toNat_inj.mp (by omega)) same
        · intro all
          exact absurd (all i inside) same

theorem ece391Strcmp_eq_zero {s1 : Nat → Byte} {s2 : CString} :
    ece391Strcmp s1 s2 = 0 ↔ ∀ j ≤ s2.strlen, s1 j = s2.char j :=
  ece391StrcmpFrom_eq_zero (by omega) (fun j below => absurd below (Nat.not_lt_zero j))
    (Nat.zero_le _)

/-- A line with a NUL behind it is a string of the buffer. -/
theorem upTo_update {buf : Nat → Byte} {count : Nat} (inside : count < BUFSIZE) :
    CString.upTo (Function.update buf count 0) BUFSIZE 0 = .upTo buf count 0 := by
  obtain ⟨length, bytes, terminated⟩ := field_upTo buf count 0
  refine upTo_eq_iff.mpr ⟨by omega, fun i below => ?_, fun _ => ?_⟩
  · rw [Function.update_of_ne (by omega)]
    exact bytes i below
  · rw [Nat.zero_add]
    by_cases full : (CString.upTo buf count 0).strlen = count
    · rw [full, Function.update_self]
    · rw [Function.update_of_ne full]
      have ended := terminated (by omega)
      rwa [Nat.zero_add] at ended

variable {cnt : Int} {buf : Nat → Byte} {string : CString}

/-- What the shell compares is the line that was entered. -/
theorem stored_line (inside : 0 ≤ lineLength cnt buf ∧ lineLength cnt buf < BUFSIZE) {j : Nat}
    (within : j ≤ (entered cnt buf).strlen) :
    Function.update buf (lineLength cnt buf).toNat 0 j = (entered cnt buf).char j := by
  have isString : CString.upTo (Function.update buf (lineLength cnt buf).toNat 0) BUFSIZE 0 =
      entered cnt buf := upTo_update (by omega)
  obtain ⟨_, bytes, terminated⟩ := upTo_eq_iff.mp isString
  have short : (entered cnt buf).strlen ≤ (lineLength cnt buf).toNat := (field_upTo _ _ _).length
  by_cases last : j = (entered cnt buf).strlen
  · have ended := terminated (by omega)
    rw [Nat.zero_add] at ended
    rw [last, ended, CString.char_of_ge (Nat.le_refl _)]
  · have char := bytes j (by omega)
    rwa [Nat.zero_add] at char

theorem strcmp_line (inside : 0 ≤ lineLength cnt buf ∧ lineLength cnt buf < BUFSIZE) :
    ece391Strcmp (Function.update buf (lineLength cnt buf).toNat 0) string = 0 ↔
      entered cnt buf = string := by
  rw [ece391Strcmp_eq_zero]
  constructor
  · intro same
    have longer : (entered cnt buf).strlen ≤ string.strlen := by
      by_contra beyond
      have char := stored_line inside (Nat.le_of_lt (Nat.lt_of_not_le beyond))
      rw [same _ (Nat.le_refl _), CString.char_of_ge (Nat.le_refl _)] at char
      exact CString.char_ne_zero (Nat.lt_of_not_le beyond) char.symm
    apply CString.eq_of_char
    intro j
    by_cases within : j ≤ (entered cnt buf).strlen
    · rw [← stored_line inside within, same j (by omega)]
    · have ended := stored_line inside (Nat.le_refl (entered cnt buf).strlen)
      rw [same _ longer, CString.char_of_ge (Nat.le_refl _)] at ended
      have short := CString.char_eq_zero_iff.mp ended
      rw [CString.char_of_ge (by omega), CString.char_of_ge (by omega)]
  · intro same j within
    rw [← same]
    exact stored_line inside (by rwa [same])

theorem first_line (inside : 0 ≤ lineLength cnt buf ∧ lineLength cnt buf < BUFSIZE) :
    Function.update buf (lineLength cnt buf).toNat 0 0 = 0 ↔ entered cnt buf = .empty := by
  rw [stored_line inside (Nat.zero_le _), CString.char_eq_zero_iff]
  constructor
  · intro short
    exact CString.ext_bytes (List.eq_nil_of_length_eq_zero (Nat.le_zero.mp short))
  · intro empty
    rw [empty]
    exact Nat.le_refl _

variable {log next : List Exchange} {exchange : Exchange} {limit : Nat} {text : CString}

theorem inputs_append : inputs (log ++ [exchange]) = inputs log ++ exchange.read.toList := by
  rw [inputs, List.filterMap_append]
  cases found : exchange.read <;> simp [inputs, found]

theorem executed_append :
    executed (log ++ [exchange]) = executed log ++ (commandOf exchange.call).toList := by
  rw [executed, List.filterMap_append]
  cases found : commandOf exchange.call <;> simp [executed, found]

theorem shown_append : shown (log ++ [exchange]) = shown log ++ exchange.text := by
  rw [shown, List.flatMap_append, List.flatMap_singleton]
  rfl

theorem responses_append :
    responses (log ++ [exchange]) = responses log ++ exchange.response := by
  rw [responses, List.flatMap_append, List.flatMap_singleton, ← List.append_assoc]
  rfl

theorem commands_congr (same : inputs next = inputs log) : commands next = commands log := by
  rw [commands, commands, lines, lines, same]

/-- The exchange of a message. -/
def said (text : CString) (reply : Int) : Exchange :=
  ⟨.ece391Write 1 text.memory (int32 text.strlen), reply⟩

theorem said_text (small : text.strlen < 2147483648) (reply : Int) :
    (said text reply).text = text.bytes := by
  have loaded : (List.range text.strlen).filterMap text.memory = text.bytes := by
    have mapped := congrArg (List.filterMap id) (map_some_bytes text)
    rw [List.filterMap_map, List.filterMap_map] at mapped
    simp only [Function.comp_def, id_eq, List.filterMap_some] at mapped
    exact mapped.symm
  simp only [said, Exchange.text]
  rw [int32_of_lt small, Int.toNat_natCast, loaded]

/-- The commands so far were executed; `due` is to be shown before the next one,
or before the next read. -/
structure Told (log : List Exchange) (due : List Byte) : Prop where
  executed : executed log = commands log
  shown : shown log ++ due = responses log

theorem Told.upToDate (told : Told log []) : UpToDate log :=
  ⟨told.executed, by rw [← told.shown, List.append_nil]⟩

theorem Told.said {due : List Byte} (told : Told log (text.bytes ++ due))
    (small : text.strlen < 2147483648) (reply : Int) :
    Told (log ++ [said text reply]) due ∧ inputs (log ++ [said text reply]) = inputs log := by
  have same : inputs (log ++ [Shell.said text reply]) = inputs log := by
    rw [inputs_append]
    exact List.append_nil _
  refine ⟨⟨?_, ?_⟩, same⟩
  · rw [commands_congr same, ← told.executed, executed_append]
    exact List.append_nil _
  · rw [responses_append, shown_append, said_text small, List.append_assoc, told.shown]
    exact (List.append_nil _).symm

theorem meets_puts {due : List Byte} (told : Told log (text.bytes ++ due))
    (small : text.strlen < 2147483648) :
    Program.Meets (contract limit) (fun _ next => Told next due ∧ inputs next = inputs log)
      (ece391Fdputs 1 text.memory) log := by
  have measured : ece391Strlen text.memory = .done text.strlen := strlen_memory text (by omega)
  simp only [ece391Fdputs, measured]
  refine ⟨⟨rfl, told.executed⟩, fun reply next answered => ?_⟩
  obtain ⟨rfl, _, _⟩ := answered
  exact told.said small reply

/-- The exchange of a command. -/
def ran (command : CString) (rval : Int) : Exchange := ⟨.ece391Execute command, rval⟩

theorem ran_told {command : CString} (executes : executed log ++ [command] = commands log)
    (whole : shown log = responses log) (rval : Int) :
    Told (log ++ [ran command rval]) ((message rval).elim [] CString.bytes ++ prompt.bytes) ∧
      inputs (log ++ [ran command rval]) = inputs log := by
  have same : inputs (log ++ [ran command rval]) = inputs log := by
    rw [inputs_append]
    exact List.append_nil _
  refine ⟨⟨?_, ?_⟩, same⟩
  · rw [commands_congr same, ← executes, executed_append]
    rfl
  · rw [responses_append, shown_append, whole]
    exact congrArg (· ++ _) (List.append_nil _)

theorem message_small {rval : Int} (remarked : message rval = some text) :
    text.strlen < 2147483648 := by
  simp only [message] at remarked
  split at remarked
  · cases remarked
    decide +kernel
  · split at remarked
    · cases remarked
      decide +kernel
    · split at remarked
      · cases remarked
        decide +kernel
      · cases remarked

theorem meets_report {rval : Int}
    (told : Told log ((message rval).elim [] CString.bytes ++ prompt.bytes)) :
    Program.Meets (contract limit) (fun _ next => Told next prompt.bytes ∧ inputs next = inputs log)
      (report rval) log := by
  simp only [report]
  cases found : message rval with
  | none =>
      rw [found] at told
      exact ⟨told, rfl⟩
  | some text =>
      rw [found] at told
      exact meets_puts told (message_small found)

/-- The shell is about to prompt. -/
structure Waiting (log : List Exchange) : Prop where
  told : Told log prompt.bytes
  noExit : exit ∉ lines log
  noFailure : ¬ ReadFailed log

/-- What a round comes to. -/
def Turned (limit : Nat) (log : List Exchange) (outcome : (Nat → Byte) ⊕ Int)
    (next : List Exchange) : Prop :=
  outcome.elim
    (fun _ => Waiting next ∧ limit - (inputs next).length < limit - (inputs log).length)
    (Returned · next)

/-- The exchange of a read. -/
def gave (before : Nat → Byte) (cnt : Int) (buf : Nat → Byte) : Exchange :=
  ⟨.ece391Read 0 before (BUFSIZE - 1), (cnt, buf)⟩

section Gave

variable {before : Nat → Byte}

theorem gave_inputs : inputs (log ++ [gave before cnt buf]) = inputs log ++ [(cnt, buf)] :=
  inputs_append

theorem gave_executed : executed (log ++ [gave before cnt buf]) = executed log := by
  rw [executed_append]
  exact List.append_nil _

theorem gave_shown : shown (log ++ [gave before cnt buf]) = shown log := by
  rw [shown_append]
  exact List.append_nil _

theorem gave_lines (given : cnt ≠ -1) :
    lines (log ++ [gave before cnt buf]) = lines log ++ [entered cnt buf] := by
  rw [lines, gave_inputs, List.filterMap_append]
  simp only [List.filterMap_cons, lineOf, if_neg given, List.filterMap_nil]
  rfl

theorem gave_failed : ReadFailed (log ++ [gave before cnt buf]) ↔ ReadFailed log ∨ cnt = -1 := by
  simp only [ReadFailed, gave_inputs, List.mem_append, List.mem_singleton, Prod.mk.injEq, exists_or]
  refine or_congr Iff.rfl ⟨fun same => ?_, fun failed => ⟨buf, failed.symm, rfl⟩⟩
  obtain ⟨_, failed, _⟩ := same
  exact failed.symm

/-- A line that is no command asks for nothing but its response. -/
theorem gave_told (told : Told log []) (given : cnt ≠ -1)
    (other : entered cnt buf = .empty ∨ entered cnt buf = exit) :
    Told (log ++ [gave before cnt buf])
      (if entered cnt buf = .empty then prompt.bytes else []) where
  executed := by
    have ignored : ¬ (entered cnt buf ≠ .empty ∧ entered cnt buf ≠ exit) := by
      intro command
      exact other.elim command.1 command.2
    rw [gave_executed, commands, gave_lines given, List.filter_append, List.filter_cons_of_neg
      (by simpa using ignored), List.filter_nil, List.append_nil, told.executed]
    rfl
  shown := by
    rw [gave_shown, responses_append, ← told.shown, List.append_nil]
    simp only [gave, Exchange.response, if_neg given]

/-- A line that is a command is executed next. -/
theorem gave_command (told : Told log []) (given : cnt ≠ -1) (nonempty : entered cnt buf ≠ .empty)
    (noExit : entered cnt buf ≠ exit) :
    executed (log ++ [gave before cnt buf]) ++ [entered cnt buf] =
        commands (log ++ [gave before cnt buf]) ∧
      shown (log ++ [gave before cnt buf]) = responses (log ++ [gave before cnt buf]) := by
  have command : entered cnt buf ≠ .empty ∧ entered cnt buf ≠ exit := ⟨nonempty, noExit⟩
  refine ⟨?_, ?_⟩
  · rw [gave_executed, commands, gave_lines given, List.filter_append, List.filter_cons_of_pos
      (by simpa using command), List.filter_nil, told.executed]
    rfl
  · rw [gave_shown, responses_append, ← told.shown, List.append_nil]
    simp only [gave, Exchange.response, if_neg given, if_neg nonempty, List.append_nil]

theorem gave_failure (told : Told log []) (failed : cnt = -1) :
    Told (log ++ [gave before cnt buf]) (readFromKeyboardFailed.bytes ++ []) ∧
      lines (log ++ [gave before cnt buf]) = lines log := by
  have same : lines (log ++ [gave before cnt buf]) = lines log := by
    rw [lines, gave_inputs, List.filterMap_append]
    simp only [List.filterMap_cons, lineOf, if_pos failed, List.filterMap_nil, List.append_nil]
    rfl
  refine ⟨⟨?_, ?_⟩, same⟩
  · rw [gave_executed, commands, same, told.executed]
    rfl
  · rw [gave_shown, responses_append, ← told.shown, List.append_nil]
    simp only [gave, Exchange.response, if_pos failed, List.append_nil]

end Gave

theorem meets_round (waiting : Waiting log) (before : Nat → Byte) :
    Program.Meets (contract limit) (Turned limit log) (round before) log := by
  obtain ⟨told, noExit, noFailure⟩ := waiting
  have prompting : Told log (prompt.bytes ++ []) := by
    rw [List.append_nil]
    exact told
  refine Program.meets_bind.mpr ((meets_puts prompting (by decide +kernel)).mono
    fun _ prompted ready => ?_)
  obtain ⟨ready, same⟩ := ready
  refine Program.meets_bind.mpr (Program.meets_ask.mpr ⟨⟨rfl, rfl, ready.upToDate⟩, ?_⟩)
  intro reply given answered
  obtain ⟨cnt, buf⟩ := reply
  obtain ⟨isNext, few, fits⟩ := answered
  have isGave : given = prompted ++ [gave before cnt buf] := isNext
  subst isGave
  have bounds := fits cnt buf rfl
  have sameLines : lines prompted = lines log := by
    rw [lines, lines, same]
  have sameFailure : ReadFailed prompted ↔ ReadFailed log := by
    rw [ReadFailed, ReadFailed, same]
  dsimp only
  by_cases failed : cnt = -1
  · rw [if_pos failed]
    obtain ⟨due, unchanged⟩ :
        Told (prompted ++ [gave before cnt buf]) (readFromKeyboardFailed.bytes ++ []) ∧
          lines (prompted ++ [gave before cnt buf]) = lines prompted := gave_failure ready failed
    refine Program.meets_bind.mpr ((meets_puts due (by decide +kernel)).mono
      fun _ next finished => ?_)
    obtain ⟨finished, sameInputs⟩ := finished
    refine ⟨finished.upToDate, .inr ⟨rfl, ?_, ?_⟩⟩
    · rw [lines, sameInputs]
      rw [← sameLines, ← unchanged] at noExit
      exact noExit
    · rw [ReadFailed, sameInputs]
      exact gave_failed.mpr (.inr failed)
  · have inside : 0 ≤ lineLength cnt buf ∧ lineLength cnt buf < BUFSIZE := by
      simp only [lineLength]
      split <;> omega
    have noFailureNow : ¬ ReadFailed (prompted ++ [gave before cnt buf]) := by
      rw [gave_failed, sameFailure]
      exact not_or.mpr ⟨noFailure, failed⟩
    have count : (inputs (prompted ++ [gave before cnt buf])).length = (inputs log).length + 1 := by
      rw [gave_inputs, List.length_append, same]
      rfl
    rw [if_neg failed, if_pos inside]
    by_cases leaves : entered cnt buf = exit
    · rw [if_pos ((strcmp_line inside).mpr leaves)]
      have finished : Told (prompted ++ [gave before cnt buf])
          (if entered cnt buf = .empty then prompt.bytes else []) :=
        gave_told ready failed (.inr leaves)
      have notEmpty : ¬ entered cnt buf = .empty := by
        rw [leaves]
        decide +kernel
      rw [if_neg notEmpty] at finished
      refine ⟨finished.upToDate, .inl ⟨rfl, ?_, noFailureNow⟩⟩
      rw [gave_lines failed, leaves]
      exact List.mem_append_right _ (List.mem_singleton_self _)
    · have noExitNow : exit ∉ lines (prompted ++ [gave before cnt buf]) := by
        rw [gave_lines failed, sameLines]
        intro member
        rcases List.mem_append.mp member with earlier | now
        · exact noExit earlier
        · exact leaves (List.mem_singleton.mp now).symm
      rw [if_neg fun zero => leaves ((strcmp_line inside).mp zero)]
      by_cases empty : entered cnt buf = .empty
      · rw [if_pos ((first_line inside).mpr empty)]
        have again : Told (prompted ++ [gave before cnt buf])
            (if entered cnt buf = .empty then prompt.bytes else []) :=
          gave_told ready failed (.inl empty)
        rw [if_pos empty] at again
        exact ⟨⟨again, noExitNow, noFailureNow⟩, by omega⟩
      · rw [if_neg fun zero => empty ((first_line inside).mp zero)]
        obtain ⟨executes, whole⟩ :
            executed (prompted ++ [gave before cnt buf]) ++ [entered cnt buf] =
                commands (prompted ++ [gave before cnt buf]) ∧
              shown (prompted ++ [gave before cnt buf]) =
                responses (prompted ++ [gave before cnt buf]) :=
          gave_command ready failed empty leaves
        have stored : CString.upTo (Function.update buf (lineLength cnt buf).toNat 0) BUFSIZE 0 =
            entered cnt buf := upTo_update (by omega)
        rw [stored]
        refine Program.meets_bind.mpr (Program.meets_ask.mpr ⟨⟨executes, whole⟩, ?_⟩)
        intro rval executedOnce answer
        obtain ⟨isRan, _, _⟩ := answer
        have isRun : executedOnce = prompted ++ [gave before cnt buf] ++ [ran (entered cnt buf) rval] :=
          isRan
        subst isRun
        obtain ⟨due, unchanged⟩ := ran_told executes whole rval
        refine Program.meets_bind.mpr ((meets_report due).mono fun _ next reported => ?_)
        obtain ⟨reported, sameInputs⟩ := reported
        have asBefore := sameInputs.trans unchanged
        refine ⟨⟨reported, ?_, ?_⟩, ?_⟩
        · rw [lines, asBefore]
          exact noExitNow
        · rw [ReadFailed, asBefore]
          exact noFailureNow
        · rw [asBefore]
          omega

/-- Whatever the shell is answered: it executes the lines it reads, in order and
once each, but for empty ones and `exit`; before every read and every command it
has shown the banner, a prompt for each line and the message of each failed
command; and it returns 0 after `exit` and 3 after a read that failed, and not
otherwise. -/
theorem shell_executes_lines (limit : Nat) (buf : Nat → Byte) :
    Program.Meets (contract limit) Returned (main (limit + 1) buf) [] := by
  have silent : Told [] (starting391Shell.bytes ++ prompt.bytes) := ⟨rfl, by decide +kernel⟩
  refine Program.meets_bind.mpr ((meets_puts silent (by decide +kernel)).mono
    fun _ started ready => ?_)
  obtain ⟨told, untouched⟩ := ready
  have waiting : Waiting started := by
    refine ⟨told, ?_, ?_⟩
    · rw [lines, untouched]
      exact List.not_mem_nil
    · rw [ReadFailed, untouched]
      exact fun failed => List.not_mem_nil failed.choose_spec
  have rounds : ∀ (before : Nat → Byte) (log : List Exchange), Waiting log →
      Program.Meets (contract limit) (fun outcome next => outcome.elim
        (fun _ => Waiting next ∧ limit - (inputs next).length < limit - (inputs log).length)
        (Returned · next)) (round before) log :=
    fun before log waiting => meets_round waiting before
  exact Program.Meets.loop_of_measure rounds waiting (by omega)

end Shell

end Ece391
