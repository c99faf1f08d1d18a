import Ece391.Lib.Itoa

namespace Ece391

open Library

/-! # printf (lib.c) -/

/-- What a call finds: its format with the memory behind the terminator, the
words behind the format on the stack, the strings that words point to, and what
the array of a conversion holds before, by the index of its specifier. -/
structure PrintfCall where
  format : CString
  behind : Nat → Byte
  args : Nat → Word
  strings : Word → CString
  convBuf : Nat → Nat → Byte

/-- `format[i]` -/
def PrintfCall.byte (call : PrintfCall) (i : Nat) : Byte :=
  if i ≤ call.format.strlen then call.format.char i else call.behind i

/-- `buf` and `esp` as distances from where they start, the indices of the
format that were examined, and the bytes given to `putc`. -/
structure Printf where
  buf : Nat
  esp : Nat
  examined : List Nat
  output : List Byte
deriving DecidableEq

namespace Printf

/-- `buf = format` -/
def start : Printf := { buf := 0, esp := 0, examined := [], output := [] }

/-- `*buf` -/
def examine (state : Printf) : Printf := { state with examined := state.examined ++ [state.buf] }

/-- `buf++` -/
def advance (state : Printf) : Printf := { state with buf := state.buf + 1 }

def put (state : Printf) (bytes : List Byte) : Printf :=
  { state with output := state.output ++ bytes }

/-- Output for an argument, and `esp++`. -/
def putArgument (state : Printf) (bytes : List Byte) : Printf :=
  { state.put bytes with esp := state.esp + 1 }

end Printf

/-- The loop of `puts` over the string at `s + start`, from `index` on. -/
def putsLoop (s : Nat → Byte) (start : Nat) : (fuel index : Nat) → Option (List Byte)
  | 0, _ => none
  | fuel + 1, index =>
      if s (start + index) = 0 then some []
      else (putsLoop s start fuel (index + 1)).map fun rest => s (start + index) :: rest

def puts (fuel : Nat) (s : Nat → Byte) (start : Nat) : Option (List Byte) :=
  putsLoop s start fuel 0

/-- `while(i < 8) { conv_buf[i] = '0'; i++; }` -/
def zeroLoop : (fuel i : Nat) → (convBuf : Nat → Byte) → Option (Nat → Byte)
  | 0, _, _ => none
  | fuel + 1, i, convBuf =>
      if i < 8 then zeroLoop fuel (i + 1) (Function.update convBuf i 48) else some convBuf

/-- `case 'x'` -/
def printHexadecimal (fuel : Nat) (alternate : Bool) (value : Word) (convBuf : Nat → Byte) :
    Option (List Byte) :=
  if alternate = false then do
    let convBuf ← itoa fuel value convBuf 0 16
    puts fuel convBuf 0
  else do
    let convBuf ← itoa fuel value convBuf 8 16
    let startingIndex ← strlenLoop convBuf 8 fuel 0
    let convBuf ← zeroLoop fuel startingIndex convBuf
    puts fuel convBuf startingIndex

/-- `case 'u'` -/
def printUnsigned (fuel : Nat) (value : Word) (convBuf : Nat → Byte) : Option (List Byte) := do
  let convBuf ← itoa fuel value convBuf 0 10
  puts fuel convBuf 0

/-- `case 'd'`.  The negation wraps, so that the smallest value stays. -/
def printSigned (fuel : Nat) (value : Word) (convBuf : Nat → Byte) : Option (List Byte) := do
  let convBuf ←
    if value.toInt < 0 then itoa fuel (-value) (Function.update convBuf 0 45) 1 10
    else itoa fuel value convBuf 0 10
  puts fuel convBuf 0

/-- What is printed at `format_char_switch`. -/
def formatCharSwitch (call : PrintfCall) : (fuel : Nat) → (alternate : Bool) → Printf →
    Option Printf
  | 0, _, _ => none
  | fuel + 1, alternate, state =>
      let value := call.args state.esp
      let convBuf := call.convBuf state.buf
      let specifier := call.byte state.buf
      let state := state.examine
      if specifier = 37 then some (state.put [37])
      else if specifier = 35 then formatCharSwitch call fuel true state.advance
      else if specifier = 120 then
        (printHexadecimal fuel alternate value convBuf).map state.putArgument
      else if specifier = 117 then (printUnsigned fuel value convBuf).map state.putArgument
      else if specifier = 100 then (printSigned fuel value convBuf).map state.putArgument
      else if specifier = 99 then some (state.putArgument [UInt8.ofNat value.toNat])
      else if specifier = 115 then
        (puts fuel (call.strings value).char 0).map state.putArgument
      else some state

/-- `while(*buf != '\0')` -/
def printfLoop (call : PrintfCall) : (fuel : Nat) → Printf → Option Printf
  | 0, _ => none
  | fuel + 1, state =>
      let byte := call.byte state.buf
      let state := state.examine
      if byte = 0 then some state
      else if byte = 37 then
        (formatCharSwitch call fuel false state.advance).bind fun state =>
          printfLoop call fuel state.advance
      else printfLoop call fuel (state.put [byte]).advance

/-- `buf` of the result is the value returned. -/
def printf (call : PrintfCall) (fuel : Nat) : Option Printf :=
  printfLoop call fuel .start

/-- A character of the format that is printed as it is, or a conversion, with
whether there is a `#` in front of its specifier. -/
inductive Piece where
  | literal (byte : Byte)
  | conversion (alternate : Bool) (specifier : Byte)
deriving DecidableEq, Repr

/-- The pieces of a format.  Behind a `%` the first argument says whether there
was a `#`. -/
def pieces : (conversion : Option Bool) → List Byte → List Piece
  | _, [] => []
  | none, byte :: rest =>
      if byte = 37 then pieces (some false) rest else .literal byte :: pieces none rest
  | some alternate, byte :: rest =>
      if byte = 35 then pieces (some true) rest
      else .conversion alternate byte :: pieces none rest

/-- The format is over behind a `%` and any number of `#`. -/
def endsInside : (inside : Bool) → List Byte → Bool
  | inside, [] => inside
  | false, byte :: rest => endsInside (byte = 37) rest
  | true, byte :: rest => endsInside (byte = 35) rest

/-- A number of 8 hexadecimal digits. -/
def paddedText (value : Nat) : List Byte :=
  List.replicate (8 - (numeralText 16 value).length) 48 ++ numeralText 16 value

def signedText (value : Int) : List Byte :=
  if value < 0 then 45 :: numeralText 10 value.natAbs else numeralText 10 value.natAbs

/-- What a conversion prints of its argument, nothing for one that does not
exist. -/
def expansion (call : PrintfCall) (alternate : Bool) (specifier : Byte) (value : Word) : List Byte :=
  if specifier = 37 then [37]
  else if specifier = 120 then
    if alternate then paddedText value.toNat else numeralText 16 value.toNat
  else if specifier = 117 then numeralText 10 value.toNat
  else if specifier = 100 then signedText value.toInt
  else if specifier = 99 then [UInt8.ofNat value.toNat]
  else if specifier = 115 then (call.strings value).bytes
  else []

def takesArgument (specifier : Byte) : Bool :=
  specifier = 120 ∨ specifier = 117 ∨ specifier = 100 ∨ specifier = 99 ∨ specifier = 115

/-- The pieces with the arguments from `esp` on. -/
def expand (call : PrintfCall) : List Piece → (esp : Nat) → List Byte
  | [], _ => []
  | .literal byte :: rest, esp => byte :: expand call rest esp
  | .conversion alternate specifier :: rest, esp =>
      expansion call alternate specifier (call.args esp) ++
        expand call rest (if takesArgument specifier then esp + 1 else esp)

variable {call : PrintfCall} {fuel : Nat} {alternate : Bool} {state final : Printf}
  {s convBuf : Nat → Byte} {start : Nat} {text : List Byte} {value : Word}

theorem putsLoop_eq (index : Nat) (stored : Stored s (start + index) (text ++ [0]))
    (nonzero : ∀ byte ∈ text, byte ≠ 0) (enough : text.length < fuel) :
    putsLoop s start fuel index = some text := by
  induction text generalizing fuel index with
  | nil =>
      obtain ⟨fuel, rfl⟩ : ∃ less, fuel = less + 1 := ⟨fuel - 1, by simp at enough; omega⟩
      exact if_pos stored.1
  | cons byte rest ih =>
      obtain ⟨fuel, rfl⟩ : ∃ less, fuel = less + 1 := ⟨fuel - 1, by omega⟩
      have here : s (start + index) = byte := stored.1
      have goesOn : s (start + index) ≠ 0 := here ▸ nonzero byte (List.mem_cons_self ..)
      have remaining := ih (index + 1) stored.2
        (fun other member => nonzero other (List.mem_cons_of_mem _ member))
        (Nat.lt_of_succ_lt_succ enough)
      rw [putsLoop, if_neg goesOn, remaining, Option.map_some, here]

theorem puts_stored (stored : Stored s start (text ++ [0])) (nonzero : ∀ byte ∈ text, byte ≠ 0)
    (enough : text.length < fuel) : puts fuel s start = some text :=
  putsLoop_eq 0 stored nonzero enough

theorem puts_string {string : CString} (enough : string.strlen < fuel) :
    puts fuel string.char 0 = some string.bytes :=
  puts_stored string.stored string.nonzero enough

theorem zeroLoop_eq (i : Nat) (convBuf : Nat → Byte) (inside : i ≤ 8) (enough : 8 < i + fuel) :
    ∃ after, zeroLoop fuel i convBuf = some after ∧
      Stored after i (List.replicate (8 - i) 48) ∧ ∀ j, j < i ∨ 8 ≤ j → after j = convBuf j := by
  induction fuel generalizing i convBuf with
  | zero => omega
  | succ fuel ih =>
      rw [zeroLoop]
      by_cases more : i < 8
      · obtain ⟨after, looped, stored, elsewhere⟩ :=
          ih (i + 1) (Function.update convBuf i 48) more (by omega)
        have count : 8 - i = 8 - (i + 1) + 1 := by omega
        refine ⟨after, ?_, ?_, fun j outside => ?_⟩
        · rw [if_pos more]
          exact looped
        · rw [count, List.replicate_succ]
          refine ⟨?_, stored⟩
          rw [elsewhere i (by omega), Function.update_self]
        · rw [elsewhere j (by omega), Function.update_of_ne (by omega)]
      · obtain rfl : i = 8 := by omega
        exact ⟨convBuf, if_neg more, trivial, fun _ _ => rfl⟩

theorem printUnsigned_eq (enough : 32 < fuel) :
    printUnsigned fuel value convBuf = some (numeralText 10 value.toNat) := by
  obtain ⟨after, written, result⟩ :=
    itoa_writes value 10 (by decide) (by decide) enough convBuf 0
  have short : (numeralText 10 value.toNat).length ≤ 32 := numeralText_length_le (by decide)
  rw [printUnsigned, written]
  exact puts_stored result.stored (numeralText_nonzero (by decide) (by decide)) (by omega)

theorem signed_eq_sub (negative : value.toInt < 0) : (-value).toNat = value.toInt.natAbs := by
  have bound := value.isLt
  rw [BitVec.toInt_eq_toNat_cond] at negative ⊢
  rw [BitVec.toNat_neg]
  split at negative <;> omega

theorem signed_eq_self (nonnegative : ¬ value.toInt < 0) : value.toNat = value.toInt.natAbs := by
  have bound := value.isLt
  rw [BitVec.toInt_eq_toNat_cond] at nonnegative ⊢
  split at nonnegative <;> omega

theorem printSigned_eq (enough : 33 < fuel) :
    printSigned fuel value convBuf = some (signedText value.toInt) := by
  rw [printSigned, signedText]
  by_cases negative : value.toInt < 0
  · obtain ⟨after, written, result⟩ := itoa_writes (-value) 10 (by decide)
      (by decide) (Nat.lt_of_succ_lt enough) (Function.update convBuf 0 45) 1
    have short : (numeralText 10 (-value).toNat).length ≤ 32 := numeralText_length_le (by decide)
    have sign : after 0 = 45 := by
      rw [result.elsewhere 0 (.inl Nat.one_pos), Function.update_self]
    rw [if_pos negative, if_pos negative, written, ← signed_eq_sub negative]
    have nonzero : ∀ byte ∈ 45 :: numeralText 10 (-value).toNat, byte ≠ 0 :=
      List.forall_mem_cons.mpr ⟨by decide, numeralText_nonzero (by decide) (by decide)⟩
    have stored : Stored after 0 (45 :: numeralText 10 (-value).toNat ++ [0]) :=
      ⟨sign, result.stored⟩
    exact puts_stored stored nonzero (by rw [List.length_cons]; omega)
  · obtain ⟨after, written, result⟩ := itoa_writes value 10 (by decide)
      (by decide) (Nat.lt_of_succ_lt enough) convBuf 0
    have short : (numeralText 10 value.toNat).length ≤ 32 := numeralText_length_le (by decide)
    rw [if_neg negative, if_neg negative, written, ← signed_eq_self negative]
    exact puts_stored result.stored (numeralText_nonzero (by decide) (by decide)) (by omega)

theorem hexadecimal_length_le : (numeralText 16 value.toNat).length ≤ 8 := by
  rw [numeralText, List.length_map]
  exact numeral_length_le (by decide) (by decide) value.isLt

/-- The digits at `conv_buf + 8` with zeros in front, so that there are 8. -/
theorem padded_stored {digits filled : Nat → Byte} (short : text.length ≤ 8)
    (stored : Stored digits 8 (text ++ [0]))
    (zeros : Stored filled text.length (List.replicate (8 - text.length) 48))
    (elsewhere : ∀ j, j < text.length ∨ 8 ≤ j → filled j = digits j) :
    Stored filled text.length (List.replicate (8 - text.length) 48 ++ text ++ [0]) := by
  have width : text.length + (List.replicate (8 - text.length) (48 : Byte)).length = 8 := by
    rw [List.length_replicate]
    omega
  have behind : Stored filled 8 (text ++ [0]) :=
    stored.congr fun i low _ => elsewhere i (.inr low)
  rw [List.append_assoc]
  refine stored_append.mpr ⟨zeros, ?_⟩
  rw [width]
  exact behind

theorem printHexadecimal_alternate (enough : 32 < fuel) :
    printHexadecimal fuel true value convBuf = some (paddedText value.toNat) := by
  have short : (numeralText 16 value.toNat).length ≤ 8 := hexadecimal_length_le
  have nonzero := @numeralText_nonzero 16 value.toNat (by decide) (by decide)
  obtain ⟨after, written, result⟩ :=
    itoa_writes value 16 (by decide) (by decide) enough convBuf 8
  rw [printHexadecimal, if_neg (by decide), written, paddedText]
  generalize numeralText 16 value.toNat = text at short nonzero result ⊢
  obtain ⟨filled, looped, zeros, elsewhere⟩ :=
    @zeroLoop_eq fuel text.length after short (by omega)
  have digits : ∀ byte ∈ List.replicate (8 - text.length) 48 ++ text, byte ≠ 0 := by
    refine List.forall_mem_append.mpr ⟨fun byte member => ?_, nonzero⟩
    rw [List.eq_of_mem_replicate member]
    decide
  have counted : strlenLoop after 8 fuel 0 = some text.length :=
    strlenLoop_stored result.stored nonzero (by omega)
  show (strlenLoop after 8 fuel 0).bind (fun startingIndex =>
    (zeroLoop fuel startingIndex after).bind fun convBuf => puts fuel convBuf startingIndex) = _
  rw [counted]
  show (zeroLoop fuel text.length after).bind (fun convBuf => puts fuel convBuf text.length) = _
  rw [looped]
  apply puts_stored (padded_stored short result.stored zeros elsewhere) digits
  rw [List.length_append, List.length_replicate]
  omega

theorem printHexadecimal_eq (enough : 32 < fuel) :
    printHexadecimal fuel alternate value convBuf =
      some (if alternate then paddedText value.toNat else numeralText 16 value.toNat) := by
  cases alternate with
  | true => exact printHexadecimal_alternate enough
  | false =>
      have short : (numeralText 16 value.toNat).length ≤ 8 := hexadecimal_length_le
      obtain ⟨after, written, result⟩ :=
        itoa_writes value 16 (by decide) (by decide) enough convBuf 0
      show printHexadecimal fuel false value convBuf = some (numeralText 16 value.toNat)
      rw [printHexadecimal, if_pos rfl, written]
      exact puts_stored result.stored (numeralText_nonzero (by decide) (by decide)) (by omega)

/-- The text of 8 digits is that of a numeral with zeros in front. -/
theorem paddedText_digits (value : Word) :
    ∃ digits, digits.length = 8 ∧ (∀ digit ∈ digits, digit < 16) ∧
      evaluate 16 digits = value.toNat ∧ paddedText value.toNat = digits.map digitChar := by
  have canonical : Canonical 16 value.toNat (numeral 16 value.toNat) :=
    numeral_canonical (by decide)
  have short : (numeral 16 value.toNat).length ≤ 8 :=
    numeral_length_le (by decide) (by decide) value.isLt
  rw [paddedText, numeralText, List.length_map]
  generalize numeral 16 value.toNat = digits at canonical short ⊢
  refine ⟨List.replicate (8 - digits.length) 0 ++ digits, ?_, ?_, ?_, ?_⟩
  · rw [List.length_append, List.length_replicate]
    omega
  · refine List.forall_mem_append.mpr ⟨fun digit padding => ?_, canonical.digit⟩
    rw [List.eq_of_mem_replicate padding]
    decide
  · rw [evaluate_padded]
    exact canonical.evaluates
  · rw [List.map_append, List.map_replicate]
    rfl

/-- The `case` of a specifier, at any place of a format. -/
def PrintsArgument (specifier : Byte) (alternate : Bool) (value : Word) (text : List Byte) : Prop :=
  ∀ (call : PrintfCall) (state : Printf) (fuel : Nat), 34 < fuel →
    call.byte state.buf = specifier → call.args state.esp = value →
      formatCharSwitch call fuel alternate state = some (state.examine.putArgument text)

theorem prints_unsigned : PrintsArgument 117 alternate value (numeralText 10 value.toNat) := by
  intro call state fuel enough specifier argument
  obtain ⟨fuel, rfl⟩ : ∃ less, fuel = less + 1 := ⟨fuel - 1, by omega⟩
  rw [formatCharSwitch, specifier, argument, printUnsigned_eq (by omega)]
  rfl

theorem prints_signed : PrintsArgument 100 alternate value (signedText value.toInt) := by
  intro call state fuel enough specifier argument
  obtain ⟨fuel, rfl⟩ : ∃ less, fuel = less + 1 := ⟨fuel - 1, by omega⟩
  rw [formatCharSwitch, specifier, argument, printSigned_eq (by omega)]
  rfl

theorem prints_hexadecimal : PrintsArgument 120 alternate value
    (if alternate then paddedText value.toNat else numeralText 16 value.toNat) := by
  intro call state fuel enough specifier argument
  obtain ⟨fuel, rfl⟩ : ∃ less, fuel = less + 1 := ⟨fuel - 1, by omega⟩
  rw [formatCharSwitch, specifier, argument, printHexadecimal_eq (by omega)]
  rfl

/-- Both `itoa` write the canonical numeral; `%u`, `%x`, `%d` and `%#x` print
the numeral, that with a sign, and the one of 8 digits. -/
theorem numbers_canonical (value : Word) :
    (∀ radix, 2 ≤ radix → radix ≤ 36 →
      ∃ digits, Canonical radix value.toNat digits ∧ digits.length ≤ 32 ∧
        ∀ fuel, 32 < fuel → ∀ (buf : Nat → Byte) (start : Nat),
          ∃ after, itoa fuel value buf start radix = some after ∧
            ece391Itoa fuel value buf start radix = some after ∧
            Written buf start (digits.map digitChar) after) ∧
      (∀ alternate, ∃ digits, Canonical 10 value.toNat digits ∧
        PrintsArgument 117 alternate value (digits.map digitChar)) ∧
      (∃ digits, Canonical 16 value.toNat digits ∧
        PrintsArgument 120 false value (digits.map digitChar)) ∧
      (∀ alternate, ∃ digits, Canonical 10 value.toInt.natAbs digits ∧
        PrintsArgument 100 alternate value
          ((if value.toInt < 0 then [45] else []) ++ digits.map digitChar)) ∧
      ∃ digits, digits.length = 8 ∧ (∀ digit ∈ digits, digit < 16) ∧
        evaluate 16 digits = value.toNat ∧
        PrintsArgument 120 true value (digits.map digitChar) := by
  refine ⟨fun radix large known => ?_, fun alternate => ?_, ?_, fun alternate => ?_, ?_⟩
  · have short : (numeralText radix value.toNat).length ≤ 32 := numeralText_length_le large
    rw [numeralText, List.length_map] at short
    refine ⟨numeral radix value.toNat, numeral_canonical large, short, fun fuel enough buf start => ?_⟩
    obtain ⟨after, written, result⟩ := itoa_writes value radix large known enough buf start
    obtain ⟨other, writtenOther, resultOther⟩ :=
      ece391Itoa_writes value radix large known enough buf start
    obtain rfl : after = other := result.unique resultOther
    exact ⟨after, written, writtenOther, result⟩
  · exact ⟨_, numeral_canonical (by decide), prints_unsigned⟩
  · exact ⟨_, numeral_canonical (by decide), prints_hexadecimal⟩
  · refine ⟨_, numeral_canonical (by decide), ?_⟩
    have signed := @prints_signed alternate value
    by_cases negative : value.toInt < 0
    · rw [signedText, if_pos negative] at signed
      rw [if_pos negative]
      exact signed
    · rw [signedText, if_neg negative] at signed
      rw [if_neg negative]
      exact signed
  · obtain ⟨digits, width, small, evaluates, text⟩ := paddedText_digits value
    have printed := @prints_hexadecimal true value
    rw [if_pos rfl, text] at printed
    exact ⟨digits, width, small, evaluates, printed⟩

/-- The smallest `int32_t`. -/
theorem numbers_canonical_smallest :
    (∃ digits after, Canonical 36 2147483648 digits ∧
      itoa 33 2147483648 (fun _ => 7) 0 36 = some after ∧
      Stored after 0 (digits.map digitChar ++ [0])) ∧
      ∃ digits, Canonical 10 2147483648 digits ∧
        PrintsArgument 100 false 2147483648 ([45] ++ digits.map digitChar) := by
  obtain ⟨itoas, _, _, signed, _⟩ := numbers_canonical 2147483648
  obtain ⟨digits, canonical, _, writes⟩ := itoas 36 (by decide) (by decide)
  obtain ⟨after, written, _, result⟩ := writes 33 (by decide) (fun _ => 7) 0
  exact ⟨⟨digits, after, canonical, written, result.stored⟩, signed false⟩

/-- Behind a conversion other than `#`. -/
def converted (call : PrintfCall) (alternate : Bool) (state : Printf) : Printf :=
  let specifier := call.byte state.buf
  { state.examine.put (expansion call alternate specifier (call.args state.esp)) with
    esp := if takesArgument specifier then state.esp + 1 else state.esp }

theorem formatCharSwitch_sharp (sharp : call.byte state.buf = 35) :
    formatCharSwitch call (fuel + 1) alternate state =
      formatCharSwitch call fuel true state.examine.advance := by
  rw [formatCharSwitch]
  simp only [sharp]
  rfl

/-- With enough turns for its text a conversion prints what it stands for. -/
theorem formatCharSwitch_converts (notSharp : call.byte state.buf ≠ 35) (enough : 33 < fuel)
    (enoughString : (call.strings (call.args state.esp)).strlen < fuel) :
    formatCharSwitch call (fuel + 1) alternate state = some (converted call alternate state) := by
  rw [formatCharSwitch, printHexadecimal_eq (Nat.lt_of_succ_lt enough),
    printUnsigned_eq (Nat.lt_of_succ_lt enough), printSigned_eq enough, puts_string enoughString, if_neg notSharp]
  unfold converted expansion takesArgument
  generalize call.byte state.buf = specifier
  by_cases percent : specifier = 37
  · subst percent; rfl
  by_cases hexadecimal : specifier = 120
  · subst hexadecimal; rfl
  by_cases unsigned : specifier = 117
  · subst unsigned; rfl
  by_cases signed : specifier = 100
  · subst signed; rfl
  by_cases character : specifier = 99
  · subst character; rfl
  by_cases string : specifier = 115
  · subst string; rfl
  simp only [percent, hexadecimal, unsigned, signed, character, string, if_false, or_self,
    decide_false, Bool.false_eq_true, Printf.put, List.append_nil]
  rfl

/-- Whatever a conversion is, `buf` stays at its specifier. -/
theorem formatCharSwitch_examines {after : Printf} (notSharp : call.byte state.buf ≠ 35)
    (returned : formatCharSwitch call fuel alternate state = some after) :
    after.buf = state.buf ∧ after.examined = state.examined ++ [state.buf] := by
  cases fuel with
  | zero => cases returned
  | succ fuel =>
      rw [formatCharSwitch, if_neg notSharp] at returned
      have kept : ∀ {printed : Option (List Byte)},
          printed.map state.examine.putArgument = some after →
            after.buf = state.buf ∧ after.examined = state.examined ++ [state.buf] := by
        intro printed isAfter
        obtain ⟨bytes, _, rfl⟩ := Option.map_eq_some_iff.mp isAfter
        exact ⟨rfl, rfl⟩
      split at returned
      · cases returned; exact ⟨rfl, rfl⟩
      split at returned
      · exact kept returned
      split at returned
      · exact kept returned
      split at returned
      · exact kept returned
      split at returned
      · cases returned; exact ⟨rfl, rfl⟩
      split at returned
      · exact kept returned
      · cases returned; exact ⟨rfl, rfl⟩

/-- The rest of a call, in literal text or at `format_char_switch`. -/
def resume (call : PrintfCall) (turns fuel : Nat) : Option Bool → Printf → Option Printf
  | none, state => printfLoop call fuel state
  | some alternate, state =>
      (formatCharSwitch call turns alternate state).bind fun state =>
        printfLoop call fuel state.advance

section Scanning

variable {turns : Nat} {byte : Byte} {rest : List Byte}

/-- The rest of the format, from `buf` to the terminator. -/
structure Remains (call : PrintfCall) (state : Printf) (rest : List Byte) : Prop where
  inside : state.buf ≤ call.format.strlen
  bytes : call.format.bytes.drop state.buf = rest

theorem remains_start : Remains call .start call.format.bytes := ⟨Nat.zero_le _, rfl⟩

theorem Remains.byte_eq (remains : Remains call state rest) :
    call.byte state.buf = rest.head?.getD 0 := by
  rw [PrintfCall.byte, if_pos remains.inside, CString.char, List.getD_eq_getElem?_getD,
    ← remains.bytes, List.head?_drop]

theorem Remains.here (remains : Remains call state (byte :: rest)) : call.byte state.buf = byte :=
  remains.byte_eq

theorem Remains.terminator (remains : Remains call state []) : call.byte state.buf = 0 :=
  remains.byte_eq

theorem Remains.ended (remains : Remains call state []) : state.buf = call.format.strlen :=
  Nat.le_antisymm remains.inside (List.drop_eq_nil_iff.mp remains.bytes)

theorem Remains.nonzero (remains : Remains call state (byte :: rest)) : byte ≠ 0 := by
  apply call.format.nonzero
  have member : byte ∈ call.format.bytes.drop state.buf := by
    rw [remains.bytes]
    exact List.mem_cons_self ..
  exact List.mem_of_mem_drop member

theorem Remains.next {after : Printf} (remains : Remains call state (byte :: rest))
    (same : after.buf = state.buf) : Remains call after.advance rest := by
  have more : state.buf < call.format.strlen := by
    by_contra beyond
    have nothing := List.drop_eq_nil_of_le (Nat.le_of_not_lt beyond)
    rw [remains.bytes] at nothing
    cases nothing
  constructor
  · show after.buf + 1 ≤ call.format.strlen
    rw [same]
    exact more
  · show call.format.bytes.drop (after.buf + 1) = rest
    rw [same, ← List.tail_drop, remains.bytes, List.tail_cons]

theorem resume_percent (percent : call.byte state.buf = 37) :
    resume call turns (fuel + 1) none state =
      resume call fuel fuel (some false) state.examine.advance := by
  rw [resume, printfLoop]
  simp only [percent]
  rfl

theorem resume_literal (nonzero : call.byte state.buf ≠ 0) (literal : call.byte state.buf ≠ 37) :
    resume call turns (fuel + 1) none state =
      resume call turns fuel none (state.examine.put [call.byte state.buf]).advance := by
  rw [resume, printfLoop, if_neg nonzero, if_neg literal]
  rfl

theorem resume_terminator (zero : call.byte state.buf = 0) :
    resume call turns (fuel + 1) none state = some state.examine := by
  rw [resume, printfLoop, if_pos zero]

theorem resume_sharp (sharp : call.byte state.buf = 35) :
    resume call (turns + 1) fuel (some alternate) state =
      resume call turns fuel (some true) state.examine.advance := by
  rw [resume, formatCharSwitch_sharp sharp]
  rfl

theorem resume_conversion (notSharp : call.byte state.buf ≠ 35) (enough : 33 < turns)
    (enoughString : (call.strings (call.args state.esp)).strlen < turns) :
    resume call (turns + 1) fuel (some alternate) state =
      resume call turns fuel none (converted call alternate state).advance := by
  show (formatCharSwitch call (turns + 1) alternate state).bind _ = _
  rw [formatCharSwitch_converts notSharp enough enoughString]
  rfl

/-- What the rest of a call does to the state, where the format goes on with
the pieces. -/
structure Finishes (call : PrintfCall) (state : Printf) (remaining : List Piece) (final : Printf) :
    Prop where
  returned : final.buf = call.format.strlen
  output : final.output = state.output ++ expand call remaining state.esp
  examined : ∀ i ∈ final.examined, i ∈ state.examined ∨ i ≤ call.format.strlen

/-- One byte of the format has been examined, and what stood there printed. -/
theorem Finishes.step {next : Printf} {remaining others : List Piece}
    (finishes : Finishes call next others final) (inside : state.buf ≤ call.format.strlen)
    (examined : next.examined = state.examined ++ [state.buf])
    (output : next.output ++ expand call others next.esp =
      state.output ++ expand call remaining state.esp) :
    Finishes call state remaining final := by
  refine ⟨finishes.returned, finishes.output.trans output, fun i member => ?_⟩
  rcases finishes.examined i member with known | small
  · rw [examined] at known
    rcases List.mem_append.mp known with old | new
    · exact .inl old
    · exact .inr (List.mem_singleton.mp new ▸ inside)
  · exact .inr small

/-- A format that does not end inside a conversion is printed up to its
terminator. -/
theorem resume_finishes (conversion : Option Bool) (remains : Remains call state rest)
    (complete : endsInside conversion.isSome rest = false) :
    ∃ enough, ∀ turns fuel, enough ≤ turns → enough ≤ fuel →
      ∃ final, resume call turns fuel conversion state = some final ∧
        Finishes call state (pieces conversion rest) final := by
  induction rest generalizing conversion state with
  | nil =>
      cases conversion with
      | some alternate => cases complete
      | none =>
          refine ⟨1, fun turns fuel _ enough => ?_⟩
          obtain ⟨fuel, rfl⟩ : ∃ less, fuel = less + 1 := ⟨fuel - 1, by omega⟩
          refine ⟨_, resume_terminator remains.terminator, remains.ended,
            (List.append_nil _).symm, fun i member => ?_⟩
          rcases List.mem_append.mp member with old | new
          · exact .inl old
          · exact .inr (List.mem_singleton.mp new ▸ remains.inside)
  | cons byte rest ih =>
      have here := remains.here
      cases conversion with
      | none =>
          by_cases percent : byte = 37
          · subst percent
            have next : Remains call state.examine.advance rest := remains.next rfl
            obtain ⟨enough, runs⟩ := ih (some false) next complete
            refine ⟨enough + 1, fun turns fuel _ large => ?_⟩
            obtain ⟨fuel, rfl⟩ : ∃ less, fuel = less + 1 := ⟨fuel - 1, by omega⟩
            obtain ⟨final, resumed, finishes⟩ := runs fuel fuel (by omega) (by omega)
            exact ⟨final, (resume_percent here).trans resumed,
              finishes.step remains.inside rfl rfl⟩
          · have behind : endsInside (none : Option Bool).isSome rest = false := by
              simpa [endsInside, percent] using complete
            have next : Remains call (state.examine.put [call.byte state.buf]).advance rest :=
              remains.next rfl
            obtain ⟨enough, runs⟩ := ih none next behind
            refine ⟨enough + 1, fun turns fuel _ large => ?_⟩
            obtain ⟨fuel, rfl⟩ : ∃ less, fuel = less + 1 := ⟨fuel - 1, by omega⟩
            obtain ⟨final, resumed, finishes⟩ := runs turns fuel (by omega) (by omega)
            refine ⟨final,
              (resume_literal (here ▸ remains.nonzero) (here ▸ percent)).trans resumed,
              finishes.step remains.inside rfl ?_⟩
            show state.output ++ [call.byte state.buf] ++ _ = _
            rw [pieces, if_neg percent, here, List.append_assoc]
            rfl
      | some alternate =>
          by_cases sharp : byte = 35
          · subst sharp
            have next : Remains call state.examine.advance rest := remains.next rfl
            obtain ⟨enough, runs⟩ := ih (some true) next complete
            refine ⟨enough + 1, fun turns fuel large _ => ?_⟩
            obtain ⟨turns, rfl⟩ : ∃ less, turns = less + 1 := ⟨turns - 1, by omega⟩
            obtain ⟨final, resumed, finishes⟩ := runs turns fuel (by omega) (by omega)
            exact ⟨final, (resume_sharp here).trans resumed, finishes.step remains.inside rfl rfl⟩
          · have behind : endsInside (none : Option Bool).isSome rest = false := by
              simpa [endsInside, sharp] using complete
            have next : Remains call (converted call alternate state).advance rest :=
              remains.next rfl
            obtain ⟨enough, runs⟩ := ih none next behind
            let length := (call.strings (call.args state.esp)).strlen
            refine ⟨enough + length + 35, fun turns fuel large more => ?_⟩
            obtain ⟨turns, rfl⟩ : ∃ less, turns = less + 1 := ⟨turns - 1, by omega⟩
            obtain ⟨final, resumed, finishes⟩ := runs turns fuel (by omega) (by omega)
            refine ⟨final, (resume_conversion (here ▸ sharp) (by omega) (by omega)).trans resumed,
              finishes.step remains.inside rfl ?_⟩
            rw [pieces, if_neg sharp, expand, ← List.append_assoc, ← here]
            rfl

theorem formatCharSwitch_keeps {after : Printf}
    (returned : formatCharSwitch call turns alternate state = some after) :
    state.examined <+: after.examined := by
  induction turns generalizing alternate state with
  | zero => cases returned
  | succ turns ih =>
      by_cases sharp : call.byte state.buf = 35
      · rw [formatCharSwitch_sharp sharp] at returned
        exact (List.prefix_append _ _).trans (ih returned)
      · rw [(formatCharSwitch_examines sharp returned).2]
        exact List.prefix_append _ _

/-- The byte at `buf` is examined, and nothing is forgotten. -/
theorem printfLoop_examines (returned : printfLoop call fuel state = some final) :
    state.examined ++ [state.buf] <+: final.examined := by
  induction fuel generalizing state with
  | zero => cases returned
  | succ fuel ih =>
      have onwards : ∀ {next : Printf}, printfLoop call fuel next = some final →
          state.examine.examined <+: next.examined →
            state.examined ++ [state.buf] <+: final.examined :=
        fun runs kept => (kept.trans (List.prefix_append _ _)).trans (ih runs)
      rw [printfLoop] at returned
      split at returned
      · cases returned
        exact List.prefix_rfl
      split at returned
      · obtain ⟨after, converted, runs⟩ := Option.bind_eq_some_iff.mp returned
        have kept : state.examine.advance.examined <+: after.examined :=
          formatCharSwitch_keeps converted
        exact onwards runs kept
      · exact onwards returned List.prefix_rfl

/-- Where the format ends inside a conversion, a call that returns has examined
the byte behind the terminator. -/
theorem resume_overruns (conversion : Option Bool) (remains : Remains call state rest)
    (incomplete : endsInside conversion.isSome rest = true)
    (returned : resume call turns fuel conversion state = some final) :
    call.format.strlen + 1 ∈ final.examined := by
  induction rest generalizing conversion state turns fuel with
  | nil =>
      cases conversion with
      | none => cases incomplete
      | some alternate =>
          have notSharp : call.byte state.buf ≠ 35 := by
            rw [remains.terminator]
            decide
          obtain ⟨after, converted, runs⟩ := Option.bind_eq_some_iff.mp returned
          have stays := (formatCharSwitch_examines notSharp converted).1
          apply (printfLoop_examines runs).subset
          rw [← remains.ended, ← stays]
          exact List.mem_append_right _ (List.mem_singleton_self _)
  | cons byte rest ih =>
      have here := remains.here
      cases conversion with
      | none =>
          obtain ⟨fuel, rfl⟩ : ∃ less, fuel = less + 1 := by
            cases fuel with
            | zero => cases returned
            | succ fuel => exact ⟨fuel, rfl⟩
          by_cases percent : byte = 37
          · subst percent
            rw [resume_percent here] at returned
            have next : Remains call state.examine.advance rest := remains.next rfl
            exact ih (some false) next incomplete returned
          · rw [resume_literal (here ▸ remains.nonzero) (here ▸ percent)] at returned
            have behind : endsInside (none : Option Bool).isSome rest = true := by
              simpa [endsInside, percent] using incomplete
            have next : Remains call (state.examine.put [call.byte state.buf]).advance rest :=
              remains.next rfl
            exact ih none next behind returned
      | some alternate =>
          by_cases sharp : byte = 35
          · subst sharp
            obtain ⟨turns, rfl⟩ : ∃ less, turns = less + 1 := by
              cases turns with
              | zero => cases returned
              | succ turns => exact ⟨turns, rfl⟩
            rw [resume_sharp here] at returned
            have next : Remains call state.examine.advance rest := remains.next rfl
            exact ih (some true) next incomplete returned
          · have behind : endsInside (none : Option Bool).isSome rest = true := by
              simpa [endsInside, sharp] using incomplete
            obtain ⟨after, converted, runs⟩ := Option.bind_eq_some_iff.mp returned
            have stays := (formatCharSwitch_examines (here ▸ sharp) converted).1
            have resumed : resume call turns fuel none after.advance = some final := runs
            exact ih none (remains.next stays) behind resumed

end Scanning

/-- The call returns, has examined no byte behind the terminator of its format
and has printed its pieces. -/
def PrintsFormat (call : PrintfCall) : Prop :=
  ∃ fuel final, printf call fuel = some final ∧
    (∀ i ∈ final.examined, i ≤ call.format.strlen) ∧
    final.output = expand call (pieces none call.format.bytes) 0

theorem printf_overruns (incomplete : endsInside false call.format.bytes = true)
    (returned : printf call fuel = some final) : call.format.strlen + 1 ∈ final.examined := by
  have resumed : resume call fuel fuel none .start = some final := returned
  exact resume_overruns none remains_start incomplete resumed

theorem printsFormat_iff_complete (call : PrintfCall) :
    PrintsFormat call ↔ endsInside false call.format.bytes = false := by
  constructor
  · rintro ⟨fuel, final, returned, inside, _⟩
    by_contra incomplete
    have overruns := printf_overruns (Bool.eq_true_of_not_eq_false incomplete) returned
    exact Nat.not_succ_le_self _ (inside _ overruns)
  · intro complete
    obtain ⟨enough, runs⟩ := resume_finishes none remains_start complete
    obtain ⟨final, returned, finishes⟩ := runs enough enough (Nat.le_refl _) (Nat.le_refl _)
    refine ⟨enough, final, returned, fun i member => ?_, finishes.output⟩
    rcases finishes.examined i member with none | inside
    · cases none
    · exact inside

/-- `printf("%")` where the next string begins behind the format. -/
def percentCall : PrintfCall where
  format := CString.empty.cons 37 (by decide)
  behind := fun i => if i = 2 then 65 else 0
  args := fun _ => 0
  strings := fun _ => .empty
  convBuf := fun _ _ => 0

theorem percentCall_overruns :
    printf percentCall 4 = some { buf := 3, esp := 0, examined := [0, 1, 2, 3], output := [65] } ∧
      ¬ PrintsFormat percentCall := by
  refine ⟨by decide, ?_⟩
  rintro ⟨fuel, final, returned, inside, _⟩
  exact Nat.not_succ_le_self _ (inside _ (printf_overruns rfl returned))

end Ece391
