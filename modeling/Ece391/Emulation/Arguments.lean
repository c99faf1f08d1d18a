import Ece391.Lib
import Ece391.Library.Block
import Ece391.Library.Words

namespace Ece391

open Library

/-! # Program arguments on Linux (ece391emulate.c) -/

namespace Emulation

/-- `uint8_t buf[1026]` -/
def BUF_LENGTH : Nat := 1026

/-- `char* args[1024]` -/
def ARGS_LENGTH : Nat := 1024

/-- `ece391_strcpy` to `dest + offset`. -/
def strcpyAt (dest : Nat → Byte) (offset : Nat) (src : CString) : Nat → Byte :=
  fun i => if offset ≤ i ∧ i ≤ offset + src.strlen then src.char (i - offset) else dest i

/-- `while (goesOn (*scan)) scan++;` -/
def scanWhile (goesOn : Byte → Bool) (buf : Nat → Byte) : (room scan : Nat) → Outcome Nat
  | 0, _ => .outOfBounds
  | room + 1, scan =>
      if goesOn (buf scan) then scanWhile goesOn buf room (scan + 1) else .done scan

def inToken (byte : Byte) : Bool := byte ≠ 0 ∧ byte ≠ 32 ∧ byte ≠ 10

def isSpace (byte : Byte) : Bool := byte = 32

/-- The loop over the arguments, with `slots` entries of `args` left.  The
strings are ended in place, `args` collects where they start. -/
def parseArgs : (slots : Nat) → (buf : Nat → Byte) → (scan : Nat) → (args : List Nat) →
    Outcome (List Nat × (Nat → Byte))
  | 0, _, _, _ => .outOfBounds
  | slots + 1, buf, scan, args => do
      let start ← scanWhile isSpace buf (BUF_LENGTH - scan) scan
      if buf start = 0 ∨ buf start = 10 then return (args, Function.update buf start 0)
      else do
        let stop ← scanWhile inToken buf (BUF_LENGTH - start) start
        if buf stop ≠ 0 then
          parseArgs slots (Function.update buf stop 0) (stop + 1) (args ++ [start])
        else parseArgs slots buf stop (args ++ [start])

/-- What `execv` finds at the pointers it is given. -/
def readArgs (buf : Nat → Byte) : List Nat → Outcome (List CString)
  | [] => .done []
  | pointer :: rest =>
      match stringAt buf (BUF_LENGTH - pointer) pointer with
      | none => .outOfBounds
      | some argument => do return argument :: (← readArgs buf rest)

/-- `buf` behind the copy of the command. -/
def commandBuf (buf : Nat → Byte) (command : CString) : Nat → Byte :=
  strcpyAt (Function.update (Function.update buf 0 46) 1 47) 2 command

/-- The name is ended where it stops, its pointer is `args[0]`. -/
def splitCommand (buf : Nat → Byte) : Outcome (List Nat × (Nat → Byte)) := do
  let scan ← scanWhile inToken buf (BUF_LENGTH - 2) 2
  if buf scan = 0 then return ([0], buf)
  else parseArgs (ARGS_LENGTH - 1) (Function.update buf scan 0) (scan + 1) [0]

/-- The argument vector of the process that is started, `none` where -1 is
returned without one.  `buf` is what the array held before. -/
def ece391Execute (command : CString) (buf : Nat → Byte) : Outcome (Option (List CString)) :=
  if 1023 < command.strlen then .done none
  else do
    let (args, buf) ← splitCommand (commandBuf buf command)
    let argv ← readArgs buf args
    return some argv

/-- The end of `ece391_getargs`, behind its loop. -/
def endArgs (buf : Nat → Byte) (offset : Nat) (nbytes : Int) : Int × (Nat → Byte) :=
  if nbytes < 1 then (-1, buf) else (0, Function.update buf offset 0)

/-- The loop of `ece391_getargs` over the rest of `argv`, at `buf + offset`. -/
def getargsLoop : List CString → (Nat → Byte) → Nat → Int → Int × (Nat → Byte)
  | [], buf, offset, nbytes => endArgs buf offset nbytes
  | argument :: rest, buf, offset, nbytes =>
      if nbytes < argument.strlen then (-1, buf)
      else
        let buf := strcpyAt buf offset argument
        let offset := offset + argument.strlen
        let nbytes := nbytes - argument.strlen
        if rest.isEmpty then endArgs buf offset nbytes
        else if nbytes < 1 then (-1, buf)
        else getargsLoop rest (Function.update buf offset 32) (offset + 1) (nbytes - 1)

def ece391Getargs (argv : List CString) (buf : Nat → Byte) (nbytes : Int) : Int × (Nat → Byte) :=
  getargsLoop argv.tail buf 0 nbytes

variable {buf : Nat → Byte} {scan room slots offset : Nat} {args : List Nat}

theorem scanWhile_stays {goesOn : Byte → Bool} (stops : goesOn (buf scan) = false)
    (nonempty : 0 < room) : scanWhile goesOn buf room scan = .done scan := by
  cases room with
  | zero => exact absurd nonempty (Nat.lt_irrefl 0)
  | succ room => rw [scanWhile, if_neg (by simp [stops])]

theorem scanWhile_eq {goesOn : Byte → Bool} {bytes : List Byte} {stop : Byte}
    (stored : Stored buf scan (bytes ++ [stop])) (inside : ∀ byte ∈ bytes, goesOn byte = true)
    (stops : goesOn stop = false) (fits : bytes.length < room) :
    scanWhile goesOn buf room scan = .done (scan + bytes.length) := by
  induction bytes generalizing scan room with
  | nil =>
      have here : buf scan = stop := stored.1
      exact scanWhile_stays (here ▸ stops) fits
  | cons byte rest ih =>
      obtain ⟨room, rfl⟩ : ∃ below, room = below + 1 := ⟨room - 1, by simp at fits; omega⟩
      have here : buf scan = byte := stored.1
      have goes := inside byte (List.mem_cons_self ..)
      have remaining := ih stored.2 (fun other member => inside other (List.mem_cons_of_mem _ member))
        (Nat.lt_of_succ_lt_succ fits)
      rw [scanWhile, here, if_pos goes, remaining, List.length_cons]
      congr 1
      omega

/-- Nothing is left to scan. -/
theorem parseArgs_end (ended : buf scan = 0) (inside : scan < BUF_LENGTH) :
    parseArgs (slots + 1) buf scan args = .done (args, buf) := by
  have start : scanWhile isSpace buf (BUF_LENGTH - scan) scan = .done scan :=
    scanWhile_stays (by rw [ended]; rfl) (by omega)
  rw [parseArgs, start]
  simp only [Outcome.done_bind, Outcome.pure_eq]
  rw [if_pos (.inl ended), Function.update_eq_self_iff.mpr ended.symm]

theorem parseArgs_space (space : buf scan = 32) (inside : scan < BUF_LENGTH) :
    parseArgs slots buf scan args = parseArgs slots buf (scan + 1) args := by
  cases slots with
  | zero => rfl
  | succ slots =>
      obtain ⟨room, full⟩ : ∃ room, BUF_LENGTH - scan = room + 1 :=
        ⟨BUF_LENGTH - scan - 1, by omega⟩
      have next : BUF_LENGTH - (scan + 1) = room := by omega
      have goes : isSpace 32 = true := rfl
      rw [parseArgs, parseArgs, full, next, scanWhile, space, if_pos goes]

/-- One argument is taken and ended where it stops. -/
theorem parseArgs_token {word : List Byte} {stop : Byte} (stored : Stored buf scan (word ++ [stop]))
    (nonempty : word ≠ []) (inside : ∀ byte ∈ word, inToken byte = true)
    (stops : inToken stop = false) (fits : scan + word.length < BUF_LENGTH) :
    parseArgs (slots + 1) buf scan args =
      if stop ≠ 0 then
        parseArgs slots (Function.update buf (scan + word.length) 0) (scan + word.length + 1)
          (args ++ [scan])
      else parseArgs slots buf (scan + word.length) (args ++ [scan]) := by
  obtain ⟨first, rest, rfl⟩ := List.exists_cons_of_ne_nil nonempty
  have here : buf scan = first := stored.1
  have behind : buf (scan + (first :: rest).length) = stop := (stored_append.mp stored).2.1
  have token := inside first (List.mem_cons_self ..)
  simp only [inToken, decide_eq_true_eq] at token
  obtain ⟨notEnd, notSpace, notNewline⟩ := token
  have start : scanWhile isSpace buf (BUF_LENGTH - scan) scan = .done scan :=
    scanWhile_stays (by simp [isSpace, here, notSpace]) (by omega)
  have length : scanWhile inToken buf (BUF_LENGTH - scan) scan =
      .done (scan + (first :: rest).length) :=
    scanWhile_eq stored inside stops (by omega)
  have goesOn : ¬ (buf scan = 0 ∨ buf scan = 10) := by
    rw [here]
    exact not_or.mpr ⟨notEnd, notNewline⟩
  rw [parseArgs, start]
  simp only [Outcome.done_bind, Outcome.pure_eq]
  rw [if_neg goesOn, length]
  simp only [Outcome.done_bind]
  rw [behind]

/-- The string at a pointer into `buf`. -/
def Points (buf : Nat → Byte) (pointer : Nat) (bytes : List Byte) : Prop :=
  Stored buf pointer (bytes ++ [0]) ∧ pointer + bytes.length < BUF_LENGTH

/-- Bytes of one command line. -/
def Line (bytes : List Byte) : Prop := ∀ byte ∈ bytes, byte ≠ 0 ∧ byte ≠ 10

theorem Line.token {word : List Byte} (line : Line word)
    (inside : ∀ byte ∈ word, isSpace byte = false) : ∀ byte ∈ word, inToken byte = true := by
  intro byte member
  obtain ⟨nonzero, notNewline⟩ := line byte member
  have notSpace : byte ≠ 32 := by simpa [isSpace] using inside byte member
  simp [inToken, nonzero, notSpace, notNewline]

theorem Line.append {left right : List Byte} :
    Line (left ++ right) ↔ Line left ∧ Line right :=
  List.forall_mem_append

/-- The pointers found are those of the words, and nothing in front is changed. -/
theorem parseArgs_words {line : List Byte} (args : List Nat) (stored : Stored buf scan (line ++ [0]))
    (isLine : Line line) (fits : scan + line.length < BUF_LENGTH)
    (enough : (words isSpace line).length < slots) :
    ∃ pointers after, parseArgs slots buf scan args = .done (args ++ pointers, after) ∧
      (∀ i < scan, after i = buf i) ∧ List.Forall₂ (Points after) pointers (words isSpace line) := by
  obtain ⟨slots, rfl⟩ : ∃ below, slots = below + 1 := ⟨slots - 1, by omega⟩
  induction line using words_induction isSpace generalizing slots buf scan args with
  | empty =>
      refine ⟨[], buf, ?_, fun _ _ => rfl, ?_⟩
      · rw [List.append_nil]
        exact parseArgs_end stored.1 fits
      · rw [words_nil]
        exact .nil
  | skip separator rest isSeparator ih =>
      rw [words_separator isSeparator] at enough ⊢
      rw [List.length_cons] at fits
      have space : buf scan = 32 := by
        rw [stored.1]
        simpa [isSpace] using isSeparator
      obtain ⟨pointers, after, parsed, kept, pointing⟩ := ih args stored.2
        (fun byte member => isLine byte (List.mem_cons_of_mem _ member)) (by omega) slots enough
      rw [← parseArgs_space space (by omega)] at parsed
      exact ⟨pointers, after, parsed, fun i below => kept i (by omega), pointing⟩
  | last word nonempty inside =>
      rw [words_single nonempty inside] at enough ⊢
      obtain ⟨slots, rfl⟩ : ∃ below, slots = below + 1 := ⟨slots - 1, by simp at enough; omega⟩
      have ended : buf (scan + word.length) = 0 := (stored_append.mp stored).2.1
      refine ⟨[scan], buf, ?_, fun _ _ => rfl, .cons ⟨stored, fits⟩ .nil⟩
      rw [parseArgs_token stored nonempty (isLine.token inside) rfl fits, if_neg (by simp)]
      exact parseArgs_end ended fits
  | next word separator rest nonempty inside isSeparator ih =>
      rw [words_append nonempty inside isSeparator] at enough ⊢
      rw [List.length_append, List.length_cons] at fits
      obtain ⟨slots, rfl⟩ : ∃ below, slots = below + 1 :=
        ⟨slots - 1, by rw [List.length_cons] at enough; omega⟩
      obtain ⟨lineWord, lineRest⟩ := Line.append.mp isLine
      have isSpace32 : separator = 32 := by simpa [isSpace] using isSeparator
      subst isSpace32
      rw [List.append_assoc] at stored
      obtain ⟨storedWord, storedRest⟩ := stored_append.mp stored
      have storedToken : Stored buf scan (word ++ [32]) :=
        stored_append.mpr ⟨storedWord, storedRest.1, trivial⟩
      let ended := Function.update buf (scan + word.length) 0
      have storedBehind : Stored ended (scan + word.length + 1) (rest ++ [0]) :=
        storedRest.2.congr fun i low _ => Function.update_of_ne (by omega) _ _
      obtain ⟨pointers, after, parsed, kept, pointing⟩ := ih (args ++ [scan]) storedBehind
        (fun byte member => lineRest byte (List.mem_cons_of_mem _ member)) (by omega) slots
        (by rw [List.length_cons] at enough; omega)
      refine ⟨scan :: pointers, after, ?_, ?_, .cons ⟨?_, by omega⟩ pointing⟩
      · rw [parseArgs_token storedToken nonempty (lineWord.token inside) rfl (by omega),
          if_pos (by decide), parsed, List.append_assoc, List.singleton_append]
      · intro i below
        rw [kept i (by omega)]
        exact Function.update_of_ne (by omega) _ _
      · refine stored_append.mpr ⟨storedWord.congr fun i _ high => ?_, ?_, trivial⟩
        · rw [kept i (by omega)]
          exact Function.update_of_ne (by omega) _ _
        · rw [kept _ (by omega)]
          exact Function.update_self ..

theorem stringAt_stored {string : CString} {limit start : Nat}
    (stored : Stored buf start (string.bytes ++ [0])) (fits : string.strlen < limit) :
    stringAt buf limit start = some string := by
  obtain ⟨body, ended, _⟩ := stored_append.mp stored
  apply stringAt_eq_some _ fits
  intro i inside
  by_cases within : i < string.bytes.length
  · exact (stored_iff 0).mp body i within
  · obtain rfl : i = string.strlen := Nat.le_antisymm inside (Nat.le_of_not_lt within)
    rw [CString.char_of_ge (Nat.le_refl _)]
    exact ended

theorem readArgs_eq {pointers : List Nat} {words : List (List Byte)}
    (pointing : List.Forall₂ (Points buf) pointers words) (lines : ∀ word ∈ words, Line word) :
    ∃ argv, readArgs buf pointers = .done argv ∧ argv.map CString.bytes = words := by
  induction pointing with
  | nil => exact ⟨[], rfl, rfl⟩
  | @cons pointer word pointers words points others ih =>
      obtain ⟨argv, read, bytes⟩ := ih fun other member => lines other (List.mem_cons_of_mem _ member)
      have line := lines word (List.mem_cons_self ..)
      let argument : CString := ⟨word, fun byte member => (line byte member).1⟩
      have found : stringAt buf (BUF_LENGTH - pointer) pointer = some argument := by
        apply stringAt_stored points.1
        have fits := points.2
        show word.length < BUF_LENGTH - pointer
        omega
      refine ⟨argument :: argv, ?_, ?_⟩
      · rw [readArgs, found]
        simp only [read, Outcome.done_bind, Outcome.pure_eq]
      · rw [List.map_cons, bytes]

theorem words_lines {line : List Byte} (isLine : Line line) :
    ∀ word ∈ words isSpace line, Line word := by
  induction line using words_induction isSpace with
  | empty => simp [words_nil]
  | skip separator rest isSeparator ih =>
      rw [words_separator isSeparator]
      exact ih fun byte member => isLine byte (List.mem_cons_of_mem _ member)
  | last word nonempty inside =>
      rw [words_single nonempty inside]
      simpa using isLine
  | next word separator rest nonempty inside isSeparator ih =>
      obtain ⟨lineWord, lineRest⟩ := Line.append.mp isLine
      rw [words_append nonempty inside isSeparator]
      intro other member
      rcases List.mem_cons.mp member with same | behind
      · rw [same]
        exact lineWord
      · exact ih (fun byte member => lineRest byte (List.mem_cons_of_mem _ member)) other behind

theorem strcpyAt_stored (dest : Nat → Byte) (offset : Nat) (src : CString) :
    Stored (strcpyAt dest offset src) offset (src.bytes ++ [0]) := by
  have copied : Stored (fun i => strcpyAt dest offset src (offset + i)) 0 (src.bytes ++ [0]) := by
    refine src.stored.congr fun i _ inside => ?_
    have within : i ≤ src.strlen := by
      rw [List.length_append, List.length_singleton, Nat.zero_add] at inside
      exact Nat.le_of_lt_succ inside
    rw [strcpyAt, if_pos ⟨Nat.le_add_right _ _, by omega⟩, Nat.add_sub_cancel_left]
  exact stored_shift.mp copied

theorem strcpyAt_before {dest : Nat → Byte} {offset i : Nat} {src : CString} (before : i < offset) :
    strcpyAt dest offset src i = dest i := by
  rw [strcpyAt, if_neg (by omega)]

theorem commandBuf_stored (buf : Nat → Byte) (command : CString) :
    Stored (commandBuf buf command) 0 ([46, 47] ++ (command.bytes ++ [0])) := by
  refine ⟨?_, ?_, strcpyAt_stored _ 2 command⟩
  · rw [commandBuf, strcpyAt_before (by decide)]
    rfl
  · rw [commandBuf, strcpyAt_before (by decide)]
    rfl

theorem scanName {name : List Byte} {stop : Byte} (stored : Stored buf 2 (name ++ [stop]))
    (tokens : ∀ byte ∈ name, inToken byte = true) (stops : inToken stop = false)
    (short : name.length ≤ 1023) :
    scanWhile inToken buf (BUF_LENGTH - 2) 2 = .done (2 + name.length) := by
  apply scanWhile_eq stored tokens stops
  simp only [BUF_LENGTH]
  omega

/-- A name with nothing behind it. -/
theorem splitCommand_alone {name : List Byte} (stored : Stored buf 2 (name ++ [0]))
    (tokens : ∀ byte ∈ name, inToken byte = true) (short : name.length ≤ 1023) :
    splitCommand buf = .done ([0], buf) := by
  have ended : buf (2 + name.length) = 0 := (stored_append.mp stored).2.1
  rw [splitCommand, scanName stored tokens rfl short]
  simp only [Outcome.done_bind, Outcome.pure_eq]
  exact if_pos ended

/-- A name with a space behind it is ended there. -/
theorem splitCommand_followed {name rest : List Byte}
    (stored : Stored buf 2 (name ++ 32 :: (rest ++ [0])))
    (tokens : ∀ byte ∈ name, inToken byte = true) (line : Line rest)
    (short : name.length + (rest.length + 1) ≤ 1023) :
    ∃ pointers after, splitCommand buf = .done (0 :: pointers, after) ∧
      (∀ i < 2 + name.length, after i = buf i) ∧ after (2 + name.length) = 0 ∧
      List.Forall₂ (Points after) pointers (words isSpace rest) := by
  obtain ⟨storedName, here, storedOthers⟩ := stored_append.mp stored
  have storedToken : Stored buf 2 (name ++ [32]) := stored_append.mpr ⟨storedName, here, trivial⟩
  let ended := Function.update buf (2 + name.length) 0
  have storedRest : Stored ended (2 + name.length + 1) (rest ++ [0]) :=
    storedOthers.congr fun i low _ => Function.update_of_ne (by omega) _ _
  have few : (words isSpace rest).length < ARGS_LENGTH - 1 := by
    have bound := words_length_le isSpace rest
    simp only [ARGS_LENGTH]
    omega
  have fits : 2 + name.length + 1 + rest.length < BUF_LENGTH := by
    simp only [BUF_LENGTH]
    omega
  obtain ⟨pointers, after, parsed, same, pointing⟩ := parseArgs_words [0] storedRest line fits few
  refine ⟨pointers, after, ?_, fun i below => ?_, ?_, pointing⟩
  · rw [splitCommand, scanName storedToken tokens rfl (by omega)]
    simp only [Outcome.done_bind]
    rw [if_neg (by rw [here]; decide)]
    exact parsed
  · rw [same i (by omega)]
    exact Function.update_of_ne (Nat.ne_of_lt below) _ _
  · rw [same _ (by omega)]
    exact Function.update_self ..

/-- The first pointer is that of the name with `./` in front, the others are
those of the words behind it. -/
theorem splitCommand_words {bytes : List Byte} (stored : Stored buf 0 ([46, 47] ++ (bytes ++ [0])))
    (line : Line bytes) (short : bytes.length ≤ 1023) :
    ∃ name pointers after, splitCommand buf = .done (0 :: pointers, after) ∧ Line name ∧
      Points after 0 ([46, 47] ++ name) ∧ List.Forall₂ (Points after) pointers
        (words isSpace (bytes.dropWhile fun byte => ! isSpace byte)) := by
  have parts := List.takeWhile_append_dropWhile (p := fun byte => ! isSpace byte) (l := bytes)
  have stops := List.head?_dropWhile_not (fun byte => ! isSpace byte) bytes
  have inside : ∀ byte ∈ bytes.takeWhile (fun byte => ! isSpace byte), isSpace byte = false := by
    intro byte member
    simpa using List.mem_takeWhile_imp member
  generalize bytes.takeWhile (fun byte => ! isSpace byte) = name at parts inside
  generalize bytes.dropWhile (fun byte => ! isSpace byte) = behind at parts stops ⊢
  subst parts
  rw [List.length_append] at short
  rw [List.append_assoc] at stored
  obtain ⟨lineName, lineBehind⟩ := Line.append.mp line
  have tokens := lineName.token inside
  obtain ⟨dots, storedCommand⟩ := stored_append.mp stored
  have room : 0 + ([46, 47] ++ name).length < BUF_LENGTH := by
    simp only [BUF_LENGTH]
    simp only [List.length_append, List.length_cons, List.length_nil]
    omega
  cases behind with
  | nil =>
      refine ⟨name, [], buf, splitCommand_alone storedCommand tokens short, lineName,
        ⟨?_, room⟩, ?_⟩
      · rw [List.append_assoc]
        exact stored_append.mpr ⟨dots, storedCommand⟩
      · rw [words_nil]
        exact .nil
  | cons separator rest =>
      have isSpace32 : separator = 32 := by simpa [isSpace] using stops
      subst isSpace32
      rw [List.length_cons] at short
      obtain ⟨pointers, after, split, before, terminator, pointing⟩ :=
        splitCommand_followed storedCommand tokens
          (fun byte member => lineBehind byte (List.mem_cons_of_mem _ member)) short
      have storedName := (stored_append.mp storedCommand).1
      refine ⟨name, pointers, after, split, lineName, ⟨?_, room⟩, ?_⟩
      · rw [List.append_assoc]
        refine stored_append.mpr ⟨dots.congr fun i _ high => before i ?_, ?_⟩
        · exact Nat.lt_of_lt_of_le high (by simp)
        · exact stored_append.mpr
            ⟨storedName.congr fun i _ high => before i high, terminator, trivial⟩
      · rw [words_separator rfl]
        exact pointing

/-- The first argument is the name, the others are the words behind it. -/
theorem ece391Execute_eq {command : CString} (short : command.strlen ≤ 1023)
    (line : Line command.bytes) (buf : Nat → Byte) :
    ∃ program argv, ece391Execute command buf = .done (some (program :: argv)) ∧
      argv.map CString.bytes =
        words isSpace (command.bytes.dropWhile fun byte => ! isSpace byte) := by
  obtain ⟨name, pointers, after, split, lineName, program, pointing⟩ :=
    splitCommand_words (commandBuf_stored buf command) line short
  have behind : Line (command.bytes.dropWhile fun byte => ! isSpace byte) :=
    fun byte member => line byte ((List.dropWhile_sublist _).mem member)
  have dots : Line [46, 47] := by simp [Line]
  obtain ⟨argv, read, bytes⟩ := readArgs_eq (.cons program pointing) fun word member => by
    rcases List.mem_cons.mp member with first | behindName
    · rw [first]
      exact Line.append.mpr ⟨dots, lineName⟩
    · exact words_lines behind word behindName
  cases argv with
  | nil => cases bytes
  | cons program argv =>
      refine ⟨program, argv, ?_, List.tail_eq_of_cons_eq bytes⟩
      rw [ece391Execute, if_neg (by omega), split]
      simp only [Outcome.done_bind, read, Outcome.pure_eq]

theorem endArgs_ends {nbytes : Int} (room : 0 < nbytes) :
    endArgs buf offset nbytes = (0, Function.update buf offset 0) := by
  rw [endArgs, if_neg (by omega)]

/-- An argument copied, with another byte in place of its terminator. -/
theorem copied_stored (argument : CString) (byte : Byte) :
    Stored (Function.update (strcpyAt buf offset argument) (offset + argument.strlen) byte) offset
      (argument.bytes ++ [byte]) := by
  obtain ⟨body, _⟩ := stored_append.mp (strcpyAt_stored buf offset argument)
  refine stored_append.mpr ⟨body.congr fun i _ high => ?_, ?_, trivial⟩
  · exact Function.update_of_ne (Nat.ne_of_lt high) _ _
  · exact Function.update_self ..

theorem copied_before {i : Nat} (argument : CString) (byte : Byte) (before : i < offset) :
    Function.update (strcpyAt buf offset argument) (offset + argument.strlen) byte i = buf i := by
  rw [Function.update_of_ne (by omega), strcpyAt_before before]

/-- The arguments are joined with one space between two of them. -/
theorem getargsLoop_joins {argv : List CString} {nbytes : Int} (buf : Nat → Byte) (offset : Nat)
    (room : (([32].intercalate (argv.map CString.bytes)).length : Int) < nbytes) :
    ∃ after, getargsLoop argv buf offset nbytes = (0, after) ∧ (∀ i < offset, after i = buf i) ∧
      Stored after offset ([32].intercalate (argv.map CString.bytes) ++ [0]) := by
  induction argv generalizing buf offset nbytes with
  | nil =>
      refine ⟨_, endArgs_ends ?_, fun i below => Function.update_of_ne (by omega) _ _, ?_, trivial⟩
      · simpa using room
      · exact Function.update_self ..
  | cons argument rest ih =>
      have length : argument.strlen = argument.bytes.length := rfl
      cases rest with
      | nil =>
          rw [List.map_singleton, List.intercalate_singleton] at room ⊢
          have fits : ¬ nbytes < argument.strlen := by omega
          have more : 0 < nbytes - argument.strlen := by omega
          refine ⟨Function.update (strcpyAt buf offset argument) (offset + argument.strlen) 0, ?_,
            fun i below => copied_before argument 0 below, copied_stored argument 0⟩
          rw [getargsLoop, if_neg fits]
          exact endArgs_ends more
      | cons second others =>
          rw [List.map_cons, List.map_cons, List.intercalate_cons_cons] at room ⊢
          rw [List.length_append, List.length_append, List.length_singleton] at room
          rw [← List.map_cons] at room ⊢
          have fits : ¬ nbytes < argument.strlen := by omega
          have more : ¬ nbytes - argument.strlen < 1 := by omega
          have remaining : (([32].intercalate ((second :: others).map CString.bytes)).length : Int) <
              nbytes - argument.strlen - 1 := by omega
          let spaced := Function.update (strcpyAt buf offset argument) (offset + argument.strlen) 32
          obtain ⟨after, joined, same, stored⟩ : ∃ after,
              getargsLoop (second :: others) spaced (offset + argument.strlen + 1)
                (nbytes - argument.strlen - 1) = (0, after) ∧
              (∀ i < offset + argument.strlen + 1, after i = spaced i) ∧
              Stored after (offset + argument.strlen + 1)
                ([32].intercalate ((second :: others).map CString.bytes) ++ [0]) :=
            ih spaced _ remaining
          refine ⟨after, ?_, fun i below => ?_, ?_⟩
          · rw [getargsLoop, if_neg fits]
            simp only [List.isEmpty_cons, Bool.false_eq_true, if_false]
            rw [if_neg more]
            exact joined
          · rw [same i (by omega)]
            exact copied_before argument 32 below
          · rw [List.append_assoc]
            refine stored_append.mpr ⟨(copied_stored argument 32).congr fun i _ high => same i ?_, ?_⟩
            · rw [List.length_append, List.length_singleton] at high
              omega
            · rw [List.length_append, List.length_singleton, ← length, ← Nat.add_assoc]
              exact stored

end Emulation

end Ece391
