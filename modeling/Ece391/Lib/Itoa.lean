import Ece391.Lib
import Ece391.Library.Reversal
import Ece391.Library.Numeral

namespace Ece391

open Library

/-! # Numbers as text (itoa of lib.c and ece391support.c)

The loops have a bound on their turns as the first argument and give `none`
where it is reached.
-/

/-- `static int8_t lookup[] = "0123456789ABCDEFGHIJKLMNOPQRSTUVWXYZ"` -/
def lookup : List Byte :=
  [48, 49, 50, 51, 52, 53, 54, 55, 56, 57,
    65, 66, 67, 68, 69, 70, 71, 72, 73, 74, 75, 76, 77,
    78, 79, 80, 81, 82, 83, 84, 85, 86, 87, 88, 89, 90]

/-- `lookup[i]` -/
def digitChar (i : Nat) : Byte := lookup.getD i 0

/-- The loop of `strlen` over the string at `s + start`, from `len` on. -/
def strlenLoop (s : Nat → Byte) (start : Nat) : (fuel len : Nat) → Option Nat
  | 0, _ => none
  | fuel + 1, len =>
      if s (start + len) = 0 then some len else strlenLoop s start fuel (len + 1)

/-- The loop of `strrev`, with `last` for its `end`. -/
def strrevLoop (start : Nat) : (fuel : Nat) → (beg last : Int) → (Nat → Byte) →
    Option (Nat → Byte)
  | 0, _, _, _ => none
  | fuel + 1, beg, last, s =>
      if beg < last then
        strrevLoop start fuel (beg + 1) (last - 1)
          (exchange s (start + beg.toNat) (start + last.toNat))
      else some s

/-- `strrev` of the string at `s + start`. -/
def strrev (fuel : Nat) (s : Nat → Byte) (start : Nat) : Option (Nat → Byte) := do
  let len ← strlenLoop s start fuel 0
  strrevLoop start fuel 0 (len - 1) s

def ece391Strrev (fuel : Nat) (s : Nat → Byte) (start : Nat) : Option (Nat → Byte) := do
  let len ← strlenLoop s start fuel 0
  if (len : Int) - 1 ≤ 0 then return s
  strrevLoop start fuel 0 (len - 1) s

/-- The digits from the lowest place on; with the index behind the last. -/
def digitLoop (radix : Nat) : (fuel newval newbuf : Nat) → (buf : Nat → Byte) →
    Option (Nat × (Nat → Byte))
  | 0, _, _, _ => none
  | fuel + 1, newval, newbuf, buf =>
      if 0 < newval then
        digitLoop radix fuel (newval / radix) (newbuf + 1)
          (Function.update buf newbuf (digitChar (newval % radix)))
      else some (newbuf, buf)

/-- Both `itoa`, with the function that reverses. -/
def itoaBy (reverse : Nat → (Nat → Byte) → Nat → Option (Nat → Byte)) (fuel : Nat) (value : Word)
    (buf : Nat → Byte) (start radix : Nat) : Option (Nat → Byte) :=
  if value = 0 then some (Function.update (Function.update buf start 48) (start + 1) 0)
  else do
    let (newbuf, buf) ← digitLoop radix fuel value.toNat start buf
    reverse fuel (Function.update buf newbuf 0) start

/-- `itoa` into `buf + start`. -/
def itoa : (fuel : Nat) → (value : Word) → (buf : Nat → Byte) → (start radix : Nat) →
    Option (Nat → Byte) :=
  itoaBy strrev

def ece391Itoa : (fuel : Nat) → (value : Word) → (buf : Nat → Byte) → (start radix : Nat) →
    Option (Nat → Byte) :=
  itoaBy ece391Strrev

/-- The numeral of a number as text. -/
def numeralText (radix value : Nat) : List Byte := (numeral radix value).map digitChar

variable {s buf after : Nat → Byte} {start fuel radix len : Nat} {text : List Byte}

theorem digitChar_ne_zero {i : Nat} (small : i < 36) : digitChar i ≠ 0 := by
  have checked : ∀ digit < 36, digitChar digit ≠ 0 := by decide
  exact checked i small

theorem strlenLoop_eq {rest : List Byte} (done : List Byte) (stored : Stored s start (done ++ rest ++ [0]))
    (nonzero : ∀ byte ∈ rest, byte ≠ 0) (enough : rest.length < fuel) :
    strlenLoop s start fuel done.length = some (done ++ rest).length := by
  induction rest generalizing fuel done with
  | nil =>
      obtain ⟨fuel, rfl⟩ : ∃ less, fuel = less + 1 := ⟨fuel - 1, by simp at enough; omega⟩
      have ended : s (start + done.length) = 0 := by
        rw [List.append_nil] at stored
        exact (stored_append.mp stored).2.1
      rw [strlenLoop, if_pos ended, List.append_nil]
  | cons byte rest ih =>
      obtain ⟨fuel, rfl⟩ : ∃ less, fuel = less + 1 := ⟨fuel - 1, by omega⟩
      have here : s (start + done.length) = byte := by
        rw [List.append_assoc] at stored
        exact (stored_append.mp stored).2.1
      have shifted : done ++ byte :: rest = (done ++ [byte]) ++ rest := by
        rw [List.append_assoc, List.singleton_append]
      have goesOn : s (start + done.length) ≠ 0 := here ▸ nonzero byte (List.mem_cons_self ..)
      rw [shifted] at stored
      have remaining := ih (done ++ [byte]) stored
        (fun other member => nonzero other (List.mem_cons_of_mem _ member))
        (Nat.lt_of_succ_lt_succ enough)
      rw [List.length_append, List.length_singleton] at remaining
      rw [strlenLoop, if_neg goesOn, remaining, shifted]

theorem strlenLoop_stored (stored : Stored s start (text ++ [0]))
    (nonzero : ∀ byte ∈ text, byte ≠ 0) (enough : text.length < fuel) :
    strlenLoop s start fuel 0 = some text.length :=
  strlenLoop_eq [] stored nonzero enough

/-- The ends are exchanged until the indices meet. -/
theorem strrevLoop_eq {beg last : Nat} (enough : last ≤ beg + 2 * fuel) :
    strrevLoop start (fuel + 1) beg last s = some (mirrored s (start + beg) (start + last)) := by
  induction fuel generalizing beg last s with
  | zero =>
      have met : ¬ (beg : Int) < last := by omega
      rw [strrevLoop, if_neg met, mirrored_of_ge (by omega)]
  | succ fuel ih =>
      rw [strrevLoop]
      by_cases more : beg < last
      · have closer : last - 1 ≤ beg + 1 + 2 * fuel := by omega
        have beg_succ : (beg : Int) + 1 = (beg + 1 : Nat) := by omega
        have last_pred : (last : Int) - 1 = (last - 1 : Nat) := by omega
        have ends : start + (last - 1) = start + last - 1 := by omega
        rw [if_pos (by omega), beg_succ, last_pred, ih closer, Int.toNat_natCast,
          Int.toNat_natCast, ends, ← Nat.add_assoc, mirrored_exchange (by omega)]
      · rw [if_neg (by omega), mirrored_of_ge (by omega)]

/-- What a function that reverses strings does to the one at `s + start`. -/
def Reverses (reverse : Nat → (Nat → Byte) → Nat → Option (Nat → Byte)) : Prop :=
  ∀ {fuel : Nat} {s : Nat → Byte} {start : Nat} {text : List Byte},
    Stored s start (text ++ [0]) → (∀ byte ∈ text, byte ≠ 0) → text ≠ [] → text.length < fuel →
      reverse fuel s start = some (mirrored s start (start + text.length - 1))

theorem reversed_stored (stored : Stored s start (text ++ [0])) (nonempty : text ≠ []) :
    Stored (mirrored s start (start + text.length - 1)) start (text.reverse ++ [0]) := by
  obtain ⟨body, ended, _⟩ := stored_append.mp stored
  have positive := List.length_pos_of_ne_nil nonempty
  refine stored_append.mpr ⟨body.mirrored nonempty, ?_, trivial⟩
  rw [List.length_reverse, mirrored_elsewhere (by omega)]
  exact ended

theorem strrev_reverses : Reverses strrev := by
  intro fuel s start text stored nonzero nonempty enough
  have positive := List.length_pos_of_ne_nil nonempty
  obtain ⟨fuel, rfl⟩ : ∃ less, fuel = less + 1 := ⟨fuel - 1, by omega⟩
  have last : (text.length : Int) - 1 = (text.length - 1 : Nat) := by omega
  have ends : start + (text.length - 1) = start + text.length - 1 := by omega
  rw [strrev, strlenLoop_stored stored nonzero enough]
  show strrevLoop start (fuel + 1) (0 : Nat) (text.length - 1) s = _
  rw [last, strrevLoop_eq (by omega), Nat.add_zero, ends]

theorem ece391Strrev_reverses : Reverses ece391Strrev := by
  intro fuel s start text stored nonzero nonempty enough
  have whole := strrev_reverses stored nonzero nonempty enough
  rw [strrev, strlenLoop_stored stored nonzero enough] at whole
  rw [ece391Strrev, strlenLoop_stored stored nonzero enough]
  show (if (text.length : Int) - 1 ≤ 0 then some s
    else strrevLoop start fuel 0 (text.length - 1) s) = _
  split
  · rw [mirrored_of_ge (by omega)]
  · exact whole

theorem digitLoop_eq {newval : Nat} (newbuf : Nat) (buf : Nat → Byte) (large : 2 ≤ radix)
    (enough : (Nat.digits radix newval).length < fuel) :
    ∃ after, digitLoop radix fuel newval newbuf buf =
        some (newbuf + (Nat.digits radix newval).length, after) ∧
      Stored after newbuf ((Nat.digits radix newval).map digitChar) ∧
      ∀ i, i < newbuf ∨ newbuf + (Nat.digits radix newval).length ≤ i → after i = buf i := by
  induction fuel generalizing newval newbuf buf with
  | zero => omega
  | succ fuel ih =>
      rw [digitLoop]
      by_cases more : 0 < newval
      · rw [Nat.digits_def' large more, List.length_cons] at enough ⊢
        obtain ⟨after, looped, stored, elsewhere⟩ :=
          ih (newbuf + 1) (Function.update buf newbuf (digitChar (newval % radix)))
            (Nat.lt_of_succ_lt_succ enough)
        refine ⟨after, ?_, ⟨?_, stored⟩, fun i outside => ?_⟩
        · rw [if_pos more, looped, Nat.add_right_comm, Nat.add_assoc]
        · rw [elsewhere newbuf (by omega), Function.update_self]
        · rw [elsewhere i (by omega), Function.update_of_ne (by omega)]
      · obtain rfl : newval = 0 := by omega
        rw [if_neg more, Nat.digits_zero]
        exact ⟨buf, rfl, trivial, fun _ _ => rfl⟩

theorem numeralText_nonzero {value : Nat} (large : 2 ≤ radix) (known : radix ≤ 36) :
    ∀ byte ∈ numeralText radix value, byte ≠ 0 := by
  intro byte member
  obtain ⟨digit, isDigit, rfl⟩ := List.mem_map.mp member
  have small := (numeral_canonical large).digit digit isDigit
  exact digitChar_ne_zero (by omega)

theorem numeralText_length_le {value : Word} (large : 2 ≤ radix) :
    (numeralText radix value.toNat).length ≤ 32 := by
  rw [numeralText, List.length_map]
  apply numeral_length_le large (by decide)
  calc value.toNat < 2 ^ 32 := value.isLt
    _ ≤ radix ^ 32 := Nat.pow_le_pow_left large 32

/-- The array after `itoa` into `buf + start`. -/
structure Written (buf : Nat → Byte) (start : Nat) (text : List Byte) (after : Nat → Byte) :
    Prop where
  stored : Stored after start (text ++ [0])
  elsewhere : ∀ i, i < start ∨ start + text.length < i → after i = buf i

theorem Written.unique {other : Nat → Byte} (written : Written buf start text after)
    (writtenOther : Written buf start text other) : after = other := by
  funext i
  by_cases outside : i < start ∨ start + text.length < i
  · rw [written.elsewhere i outside, writtenOther.elsewhere i outside]
  · have inside : i - start < (text ++ [0]).length := by
      rw [List.length_append, List.length_singleton]
      omega
    have here : i = start + (i - start) := by omega
    rw [here, (stored_iff 0).mp written.stored _ inside,
      (stored_iff 0).mp writtenOther.stored _ inside]

theorem written_zero (buf : Nat → Byte) (start : Nat) :
    Written buf start (numeralText radix 0)
      (Function.update (Function.update buf start 48) (start + 1) 0) := by
  refine ⟨⟨?_, ?_, trivial⟩, fun i outside => ?_⟩
  · rw [Function.update_of_ne (by omega), Function.update_self]
    rfl
  · exact Function.update_self ..
  · have beyond : i < start ∨ start + 1 < i := outside
    rw [Function.update_of_ne (by omega), Function.update_of_ne (by omega)]

/-- The digits with a NUL behind them, and the text when these are reversed. -/
theorem written_reversed {digits : Nat → Byte} (stored : Stored digits start text.reverse)
    (elsewhere : ∀ i, i < start ∨ start + text.length ≤ i → digits i = buf i)
    (nonempty : text ≠ []) :
    Stored (Function.update digits (start + text.length) 0) start (text.reverse ++ [0]) ∧
      Written buf start text
        (mirrored (Function.update digits (start + text.length) 0) start
          (start + text.reverse.length - 1)) := by
  have positive := List.length_pos_of_ne_nil nonempty
  have reversed : text.reverse ≠ [] := mt List.reverse_eq_nil_iff.mp nonempty
  have ended : Stored (Function.update digits (start + text.length) 0) start
      (text.reverse ++ [0]) := by
    refine stored_append.mpr ⟨stored.congr fun i _ high => ?_, ?_, trivial⟩
    · rw [List.length_reverse] at high
      exact Function.update_of_ne (Nat.ne_of_lt high) _ _
    · rw [List.length_reverse]
      exact Function.update_self ..
  refine ⟨ended, ?_, fun i outside => ?_⟩
  · have result := reversed_stored ended reversed
    rwa [List.reverse_reverse] at result
  · rw [List.length_reverse, mirrored_elsewhere (by omega), Function.update_of_ne (by omega),
      elsewhere i (by omega)]

theorem itoaBy_writes {reverse : Nat → (Nat → Byte) → Nat → Option (Nat → Byte)} {value : Word}
    (reverses : Reverses reverse) (large : 2 ≤ radix) (known : radix ≤ 36)
    (enough : 32 < fuel) (buf : Nat → Byte) (start : Nat) :
    ∃ after, itoaBy reverse fuel value buf start radix = some after ∧
      Written buf start (numeralText radix value.toNat) after := by
  have short : (numeralText radix value.toNat).length ≤ 32 := numeralText_length_le large
  have nonzero := @numeralText_nonzero radix value.toNat large known
  rw [itoaBy]
  by_cases zero : value = 0
  · subst zero
    rw [if_pos rfl]
    exact ⟨_, rfl, written_zero buf start⟩
  · have positive : 0 < value.toNat :=
      Nat.pos_of_ne_zero fun isZero => zero (BitVec.eq_of_toNat_eq isZero)
    have reversed : (numeralText radix value.toNat).reverse =
        (Nat.digits radix value.toNat).map digitChar := by
      rw [numeralText, numeral_of_pos positive, List.map_reverse, List.reverse_reverse]
    generalize numeralText radix value.toNat = text at short nonzero reversed ⊢
    have length : (Nat.digits radix value.toNat).length = text.length := by
      rw [← List.length_map digitChar, ← reversed, List.length_reverse]
    have nonempty : text ≠ [] := by
      intro none
      rw [none, List.length_nil, List.length_eq_zero_iff, Nat.digits_eq_nil_iff_eq_zero] at length
      exact Nat.ne_of_gt positive length
    have enoughDigits : (Nat.digits radix value.toNat).length < fuel := by omega
    obtain ⟨digits, looped, stored, elsewhere⟩ := digitLoop_eq start buf large enoughDigits
    rw [← reversed] at stored
    rw [length] at looped elsewhere
    obtain ⟨ended, written⟩ := written_reversed stored elsewhere nonempty
    have fits : text.reverse.length < fuel := by
      rw [List.length_reverse]
      omega
    have mirrors := reverses ended (fun byte member => nonzero byte (List.mem_reverse.mp member))
      (mt List.reverse_eq_nil_iff.mp nonempty) fits
    rw [if_neg zero, looped]
    exact ⟨_, mirrors, written⟩

theorem itoa_writes (value : Word) (radix : Nat) (large : 2 ≤ radix) (known : radix ≤ 36)
    (enough : 32 < fuel) (buf : Nat → Byte) (start : Nat) :
    ∃ after, itoa fuel value buf start radix = some after ∧
      Written buf start (numeralText radix value.toNat) after :=
  itoaBy_writes strrev_reverses large known enough buf start

theorem ece391Itoa_writes (value : Word) (radix : Nat) (large : 2 ≤ radix) (known : radix ≤ 36)
    (enough : 32 < fuel) (buf : Nat → Byte) (start : Nat) :
    ∃ after, ece391Itoa fuel value buf start radix = some after ∧
      Written buf start (numeralText radix value.toNat) after :=
  itoaBy_writes ece391Strrev_reverses large known enough buf start

end Ece391
