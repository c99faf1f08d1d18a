import Ece391.Process.Starting
import Ece391.SystemCall.Arguments

namespace Ece391

open Kernel

/-! # Parsing a command, store by store

The loops test the length only after the store, and against the size of the
array without its terminator.
-/

/-- One token loop: the indices it stores at, the terminator's included, and the
rest of the command, or `none` where it stored more than `limit` bytes. -/
def tokenLoop (limit : Nat) : List Byte → (stored : Nat) → List Nat × Option (List Byte)
  | [], stored => ([stored], some [])
  | byte :: rest, stored =>
      if byte = 10 ∨ byte = 32 then ([stored], some (byte :: rest))
      else if stored + 1 > limit then ([stored], none)
      else
        let (stores, remaining) := tokenLoop limit rest (stored + 1)
        (stored :: stores, remaining)

inductive ParseEnding where
  | finished
  /-- "invalid command", and -1 is returned. -/
  | returns
  /-- "invalid command", and the loop that no interrupt leaves. -/
  | spins
deriving DecidableEq

/-- The stores of the parsing part of `execute` to its two arrays. -/
structure Parsing where
  fileName : List Nat
  savedArgument : List Nat
  ending : ParseEnding

def parsing (command : CString) : Parsing :=
  let (fileName, rest) := tokenLoop 32 (skipSpaces command.bytes) 0
  match rest with
  | none => ⟨fileName, [], .returns⟩
  | some rest =>
      let (savedArgument, rest) := tokenLoop 128 (skipSpaces rest) 0
      ⟨fileName, savedArgument, if rest.isSome then .finished else .spins⟩

/-- Every store lies inside its array. -/
structure Parsing.Inside (stores : Parsing) : Prop where
  fileName : ∀ i ∈ stores.fileName, i < 32
  savedArgument : ∀ i ∈ stores.savedArgument, i < 128

/-- Parsing keeps to its arrays and ends, the argument fits the control block,
and what does not fit is refused. -/
structure ParsesSafely (command : CString) : Prop where
  inside : (parsing command).Inside
  ends : (parsing command).ending ≠ .spins
  argument : (parsing command).ending = .finished →
    ∀ i ∈ strcpyStores (commandArgument command), i < ARGUMENT_LEN
  refuses : 32 ≤ (commandName command).strlen ∨ 128 ≤ (commandArgument command).strlen →
    ∀ (image : Image) (frame : CallFrame) (kernel : Kernel),
      kernel.execute image (some command) frame = .done (.returns (-1), kernel)

variable {limit size stored : Nat} {bytes : List Byte} {command : CString}

theorem inWord_of_stops {byte : Byte} (stops : byte = 10 ∨ byte = 32) : inWord byte = false := by
  simp only [inWord, decide_eq_false_iff_not]
  exact fun both => stops.elim both.1 both.2

theorem inWord_of_not_stops {byte : Byte} (stops : ¬ (byte = 10 ∨ byte = 32)) :
    inWord byte = true := by
  simp only [inWord, decide_eq_true_eq]
  exact not_or.mp stops

/-- A word within the limit is stored with its terminator behind it. -/
theorem tokenLoop_short (room : stored + (bytes.takeWhile inWord).length ≤ limit) :
    tokenLoop limit bytes stored =
      (List.range' stored ((bytes.takeWhile inWord).length + 1), some (bytes.dropWhile inWord)) := by
  induction bytes generalizing stored with
  | nil => rfl
  | cons byte rest ih =>
      by_cases stops : byte = 10 ∨ byte = 32
      · have outside := inWord_of_stops stops
        simp only [tokenLoop, if_pos stops, List.takeWhile_cons, List.dropWhile_cons, outside,
          Bool.false_eq_true, if_false, List.length_nil]
        rfl
      · have inside := inWord_of_not_stops stops
        simp only [List.takeWhile_cons, List.dropWhile_cons, inside, if_true,
          List.length_cons] at room ⊢
        have more : ¬ stored + 1 > limit := by omega
        have behind : stored + 1 + (rest.takeWhile inWord).length ≤ limit := by omega
        simp only [tokenLoop, if_neg stops, if_neg more, ih behind]
        rfl

/-- A word that reaches the limit makes the loop store at the limit. -/
theorem tokenLoop_reaches (start : stored ≤ limit)
    (long : limit ≤ stored + (bytes.takeWhile inWord).length) :
    limit ∈ (tokenLoop limit bytes stored).1 := by
  induction bytes generalizing stored with
  | nil =>
      have last : limit = stored := by
        simp only [List.takeWhile_nil, List.length_nil] at long
        omega
      simp [tokenLoop, last]
  | cons byte rest ih =>
      by_cases stops : byte = 10 ∨ byte = 32
      · have outside := inWord_of_stops stops
        simp only [List.takeWhile_cons, outside, Bool.false_eq_true, if_false,
          List.length_nil] at long
        have last : limit = stored := by omega
        simp [tokenLoop, stops, last]
      · have inside := inWord_of_not_stops stops
        simp only [List.takeWhile_cons, inside, if_true, List.length_cons] at long
        by_cases full : stored + 1 > limit
        · have last : limit = stored := by omega
          simp [tokenLoop, stops, last]
        · simp only [tokenLoop, if_neg stops, if_neg full]
          exact List.mem_cons_of_mem _ (ih (by omega) (by omega))

/-- `copyWord` is the token loop that stops at the first store outside its
array. -/
theorem copyWord_eq_tokenLoop {word : List Byte} :
    copyWord size limit bytes word =
      if ∀ i ∈ (tokenLoop limit bytes word.length).1, i < size then
        .done ((tokenLoop limit bytes word.length).2.map fun rest =>
          (word ++ bytes.takeWhile inWord, rest))
      else .outOfBounds := by
  induction bytes generalizing word with
  | nil => simp [copyWord, tokenLoop]
  | cons byte rest ih =>
      by_cases stops : byte = 10 ∨ byte = 32
      · have outside := inWord_of_stops stops
        simp [copyWord, tokenLoop, stops, outside]
      · have inside := inWord_of_not_stops stops
        by_cases fits : word.length < size
        · by_cases full : word.length + 1 > limit
          · simp only [copyWord, tokenLoop, if_neg stops, if_pos fits, if_pos full]
            simp [fits]
          · have next := @ih (word ++ [byte])
            rw [List.length_append, List.length_singleton] at next
            simp only [copyWord, tokenLoop, if_neg stops, if_neg full, next,
              List.takeWhile_cons, inside, if_true, List.append_assoc, List.singleton_append,
              List.mem_cons, forall_eq_or_imp, fits, true_and]
        · have stores : word.length ∈ (tokenLoop limit (byte :: rest) word.length).1 := by
            simp only [tokenLoop]
            rw [if_neg stops]
            split
            · exact List.mem_singleton_self _
            · exact List.mem_cons_self
          have overruns : ¬ ∀ i ∈ (tokenLoop limit (byte :: rest) word.length).1, i < size :=
            fun all => fits (all _ stores)
          rw [if_neg overruns]
          simp only [copyWord, if_neg stops, if_neg fits]

theorem parsing_short (short : ShortCommand command) :
    parsing command =
      ⟨List.range' 0 ((commandName command).strlen + 1),
        List.range' 0 ((commandArgument command).strlen + 1), .finished⟩ := by
  have name : tokenLoop 32 (skipSpaces command.bytes) 0 = _ :=
    tokenLoop_short (by rw [Nat.zero_add]; exact Nat.le_of_lt short.name)
  have argument : tokenLoop 128 (skipSpaces ((skipSpaces command.bytes).dropWhile inWord)) 0 = _ :=
    tokenLoop_short (by rw [Nat.zero_add]; exact Nat.le_of_lt short.argument)
  simp only [parsing, name, argument, Option.isSome_some, if_true]
  rfl

theorem parsing_fileName (command : CString) :
    (parsing command).fileName = (tokenLoop 32 (skipSpaces command.bytes) 0).1 := by
  simp only [parsing]
  split <;> rfl

theorem Parsing.Inside.short (inside : (parsing command).Inside) : ShortCommand command := by
  have name : (commandName command).strlen < 32 := by
    by_contra long
    have stores : 32 ∈ (tokenLoop 32 (skipSpaces command.bytes) 0).1 :=
      tokenLoop_reaches (Nat.zero_le _) (by rw [Nat.zero_add]; exact Nat.le_of_not_lt long)
    exact absurd (inside.fileName 32 (parsing_fileName command ▸ stores)) (by decide)
  refine ⟨name, ?_⟩
  by_contra long
  have first : tokenLoop 32 (skipSpaces command.bytes) 0 = _ :=
    tokenLoop_short (by rw [Nat.zero_add]; exact Nat.le_of_lt name)
  have stores : 128 ∈
      (tokenLoop 128 (skipSpaces ((skipSpaces command.bytes).dropWhile inWord)) 0).1 :=
    tokenLoop_reaches (Nat.zero_le _) (by rw [Nat.zero_add]; exact Nat.le_of_not_lt long)
  have member : 128 ∈ (parsing command).savedArgument := by
    simp only [parsing, first]
    exact stores
  exact absurd (inside.savedArgument 128 member) (by decide)

theorem parsing_inside_iff : (parsing command).Inside ↔ ShortCommand command := by
  constructor
  · exact Parsing.Inside.short
  · intro short
    rw [parsing_short short]
    constructor
    · intro i member
      have below := (List.mem_range'_1.mp member).2
      have name := short.name
      omega
    · intro i member
      have below := (List.mem_range'_1.mp member).2
      have argument := short.argument
      omega

/-- A word that does not fit its array ends the copy in a store outside. -/
theorem copyWord_long (long : size ≤ (bytes.takeWhile inWord).length) :
    copyWord size size bytes [] = .outOfBounds := by
  have stores : size ∈ (tokenLoop size bytes 0).1 :=
    tokenLoop_reaches (Nat.zero_le _) (by rwa [Nat.zero_add])
  have overruns : ¬ ∀ i ∈ (tokenLoop size bytes ([] : List Byte).length).1, i < size :=
    fun all => Nat.lt_irrefl size (all size stores)
  rw [copyWord_eq_tokenLoop, if_neg overruns]

/-- `parseCommand` ends in a store outside an array exactly where a store of the
code lies outside. -/
theorem parseCommand_outOfBounds_iff :
    parseCommand command = .outOfBounds ↔ ¬ (parsing command).Inside := by
  rw [parsing_inside_iff]
  constructor
  · intro overruns short
    rw [parseCommand_short short.name short.argument] at overruns
    cases overruns
  · intro long
    simp only [parseCommand]
    by_cases name : (commandName command).strlen < 32
    · have first : copyWord 32 32 (skipSpaces command.bytes) [] = .done (some ([] ++ _, _)) :=
        copyWord_eq (by rw [List.length_nil, Nat.zero_add]; exact name)
      have second : copyWord 128 128
          (skipSpaces ((skipSpaces command.bytes).dropWhile inWord)) [] = .outOfBounds :=
        copyWord_long (Nat.le_of_not_lt fun argument => long ⟨name, argument⟩)
      simp only [first, Outcome.done_bind, second, Outcome.outOfBounds_bind]
    · have first : copyWord 32 32 (skipSpaces command.bytes) [] = .outOfBounds :=
        copyWord_long (Nat.le_of_not_lt name)
      rw [first]
      rfl

/-- Parsing is bounded and ends, and refuses what does not fit, exactly for the
commands whose name and argument fit with their terminators. -/
theorem command_parsing_iff {command : CString} :
    ParsesSafely command ↔
      (commandName command).strlen < 32 ∧ (commandArgument command).strlen < 128 := by
  constructor
  · intro safe
    have short := parsing_inside_iff.mp safe.inside
    exact ⟨short.name, short.argument⟩
  · intro fits
    have short : ShortCommand command := ⟨fits.1, fits.2⟩
    refine ⟨parsing_inside_iff.mpr short, ?_, fun _ => ?_, fun long => ?_⟩
    · rw [parsing_short short]
      intro spins
      cases spins
    · exact strcpyStores_inside.mpr short.argument
    · omega

/-- A name of 32 bytes. -/
def longCommand : CString where
  bytes := List.replicate 32 97
  nonzero byte member := by
    rw [List.eq_of_mem_replicate member]
    decide

/-- The terminator of the name is stored behind the array. -/
theorem long_command_overruns :
    32 ∈ (parsing longCommand).fileName ∧ ¬ ParsesSafely longCommand := by
  have stores : 32 ∈ (parsing longCommand).fileName := by decide
  exact ⟨stores, fun safe => absurd (safe.inside.fileName 32 stores) (by decide)⟩

end Ece391
