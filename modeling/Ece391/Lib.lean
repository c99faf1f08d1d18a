import Ece391.Library.Block
import Ece391.Outcome

namespace Ece391

open Library

/-! # Strings of lib.c

A `const int8_t*` that holds a string is a `CString`; a character array is a
function from indices, of which callers only use those inside the array.
-/

/-- A NUL-terminated string, as the bytes before its terminator. -/
structure CString where
  bytes : List Byte
  nonzero : ∀ byte ∈ bytes, byte ≠ 0
deriving DecidableEq

namespace CString

def empty : CString := ⟨[], by simp⟩

def cons (byte : Byte) (string : CString) (nonzero : byte ≠ 0) : CString where
  bytes := byte :: string.bytes
  nonzero other member := by
    rcases List.mem_cons.mp member with same | rest
    · exact same ▸ nonzero
    · exact string.nonzero other rest

/-- The byte at an index; the terminator and everything behind it read as 0. -/
def char (string : CString) (index : Nat) : Byte :=
  string.bytes.getD index 0

def strlen (string : CString) : Nat := string.bytes.length

variable {string : CString} {index : Nat}

theorem ext_bytes {left right : CString} (same : left.bytes = right.bytes) : left = right := by
  cases left; cases right; cases same; rfl

theorem char_of_lt (inside : index < string.strlen) :
    string.char index = string.bytes.get ⟨index, inside⟩ := by
  rw [char, List.getD_eq_getElem?_getD, List.getElem?_eq_getElem inside, Option.getD_some]
  rfl

theorem char_of_ge (outside : string.strlen ≤ index) : string.char index = 0 := by
  have bound : string.bytes.length ≤ index := outside
  simp [char, bound]

theorem char_ne_zero (inside : index < string.strlen) : string.char index ≠ 0 := by
  rw [char_of_lt inside]
  exact string.nonzero _ (List.getElem_mem _)

theorem char_eq_zero_iff : string.char index = 0 ↔ string.strlen ≤ index := by
  constructor
  · intro zero
    by_contra inside
    exact char_ne_zero (Nat.lt_of_not_le inside) zero
  · exact char_of_ge

/-- A string is laid out with its terminator. -/
theorem stored (string : CString) : Stored string.char 0 (string.bytes ++ [0]) := by
  refine stored_append.mpr ⟨(stored_iff 0).mpr fun i _ => ?_, ?_, trivial⟩
  · rw [Nat.zero_add]
    rfl
  · rw [Nat.zero_add]
    exact char_of_ge (Nat.le_refl _)

/-- Strings are equal when they agree up to and including a terminator. -/
theorem eq_of_char {left right : CString}
    (agree : ∀ index, left.char index = right.char index) : left = right := by
  have lengths : left.strlen = right.strlen := by
    apply Nat.le_antisymm
    · exact char_eq_zero_iff.mp ((agree _).trans (char_of_ge (Nat.le_refl _)))
    · exact char_eq_zero_iff.mp ((agree _).symm.trans (char_of_ge (Nat.le_refl _)))
  apply ext_bytes
  apply List.ext_getElem lengths
  intro index inLeft inRight
  have same := agree index
  rwa [char_of_lt inLeft, char_of_lt inRight] at same

end CString

/-- The value of an `int8_t`, which is a signed `char` here. -/
def charValue (byte : Byte) : Int :=
  if byte.toNat < 128 then byte.toNat else byte.toNat - 256

theorem charValue_injective {left right : Byte} (same : charValue left = charValue right) :
    left = right := by
  unfold charValue at same
  have leftBound := left.toNat_lt
  have rightBound := right.toNat_lt
  apply UInt8.toNat_inj.mp
  split at same <;> split at same <;> omega

/-- The loop of `strncmp` from index `i` with `remaining` bytes to compare. -/
def strncmpFrom (s1 s2 : Nat → Byte) : (remaining i : Nat) → Int
  | 0, _ => 0
  | remaining + 1, i =>
      if s1 i ≠ s2 i ∨ s1 i = 0 then charValue (s1 i) - charValue (s2 i)
      else strncmpFrom s1 s2 remaining (i + 1)

def strncmp (s1 s2 : Nat → Byte) (n : Nat) : Int := strncmpFrom s1 s2 n 0

theorem strncmpFrom_eq_zero {s1 s2 : Nat → Byte} {remaining i : Nat} :
    strncmpFrom s1 s2 remaining i = 0 ↔
      ∃ stop, i ≤ stop ∧ stop ≤ i + remaining ∧ (∀ j, i ≤ j → j < stop → s1 j = s2 j) ∧
        (stop = i + remaining ∨ s1 stop = 0 ∧ s2 stop = 0) := by
  induction remaining generalizing i with
  | zero =>
      simp only [strncmpFrom, true_iff]
      exact ⟨i, Nat.le_refl _, Nat.le_refl _, fun j low high => by omega, .inl rfl⟩
  | succ remaining ih =>
      simp only [strncmpFrom]
      split
      · rename_i stopped
        have difference : charValue (s1 i) - charValue (s2 i) = 0 ↔ s1 i = s2 i :=
          ⟨fun zero => charValue_injective (by omega), fun same => by rw [same]; omega⟩
        rw [difference]
        constructor
        · intro same
          have zero : s1 i = 0 := stopped.resolve_left (fun other => other same)
          exact ⟨i, Nat.le_refl _, by omega, fun j low high => by omega, .inr ⟨zero, same ▸ zero⟩⟩
        · rintro ⟨stop, low, high, agree, ending⟩
          by_cases first : stop = i
          · subst first
            rcases ending with full | ⟨leftZero, rightZero⟩
            · omega
            · rw [leftZero, rightZero]
          · exact agree i (Nat.le_refl _) (by omega)
      · rename_i continues
        obtain ⟨same, nonzero⟩ : s1 i = s2 i ∧ s1 i ≠ 0 := by
          constructor
          · by_contra differ; exact continues (.inl differ)
          · intro zero; exact continues (.inr zero)
        rw [ih]
        constructor
        · rintro ⟨stop, low, high, agree, ending⟩
          refine ⟨stop, by omega, by omega, fun j jLow jHigh => ?_, ?_⟩
          · by_cases first : j = i
            · rw [first, same]
            · exact agree j (by omega) jHigh
          · exact ending.imp (fun full => by omega) id
        · rintro ⟨stop, low, high, agree, ending⟩
          have moved : stop ≠ i := by
            intro first
            subst first
            rcases ending with full | ⟨leftZero, _⟩
            · omega
            · exact nonzero leftZero
          exact ⟨stop, by omega, by omega, fun j jLow jHigh => agree j (by omega) jHigh,
            ending.imp (fun full => by omega) id⟩

/-- `strncmp` gives 0 when the first `n` bytes agree, or all bytes up to a
common terminator before that. -/
theorem strncmp_eq_zero {s1 s2 : Nat → Byte} {n : Nat} :
    strncmp s1 s2 n = 0 ↔ ∃ stop, stop ≤ n ∧ (∀ j, j < stop → s1 j = s2 j) ∧
      (stop = n ∨ s1 stop = 0 ∧ s2 stop = 0) := by
  simp only [strncmp]
  rw [strncmpFrom_eq_zero]
  constructor
  · rintro ⟨stop, _, high, agree, ending⟩
    exact ⟨stop, by omega, fun j below => agree j (Nat.zero_le _) below,
      ending.imp (fun full => by omega) id⟩
  · rintro ⟨stop, high, agree, ending⟩
    exact ⟨stop, Nat.zero_le _, by omega, fun j _ below => agree j below,
      ending.imp (fun full => by omega) id⟩

/-- `strcpy` stores the string and its terminator and leaves the rest of the
array as it was. -/
def strcpy (dest : Nat → Byte) (src : CString) : Nat → Byte :=
  fun i => if i ≤ src.strlen then src.char i else dest i

/-- The indices that `strcpy` stores at. -/
def strcpyStores (src : CString) : List Nat := List.range (src.strlen + 1)

theorem strcpyStores_inside {src : CString} {size : Nat} :
    (∀ i ∈ strcpyStores src, i < size) ↔ src.strlen < size := by
  constructor
  · intro inside
    exact inside src.strlen (List.mem_range.mpr (Nat.lt_succ_self _))
  · intro fits i member
    have below := List.mem_range.mp member
    omega

/-- The string found at a pointer when its terminator is among the next
`limit` bytes. -/
def stringAt (memory : Nat → Byte) : (limit start : Nat) → Option CString
  | 0, _ => none
  | limit + 1, start =>
      if zero : memory start = 0 then some .empty
      else (stringAt memory limit (start + 1)).map fun rest => rest.cons (memory start) zero

theorem stringAt_eq_some {memory : Nat → Byte} {limit start : Nat} {string : CString}
    (agree : ∀ index, index ≤ string.strlen → memory (start + index) = string.char index)
    (room : string.strlen < limit) : stringAt memory limit start = some string := by
  induction limit generalizing start string with
  | zero => omega
  | succ limit ih =>
      obtain ⟨bytes, nonzero⟩ := string
      cases bytes with
      | nil =>
          have zero : memory start = 0 := by simpa [CString.char] using agree 0 (Nat.zero_le _)
          simp only [stringAt, zero, dif_pos, CString.empty]
      | cons byte rest =>
          have first : memory start = byte := by
            simpa [CString.char] using agree 0 (Nat.zero_le _)
          have nonzeroFirst : memory start ≠ 0 := first ▸ nonzero byte (by simp)
          have remaining : stringAt memory limit (start + 1) =
              some ⟨rest, fun other member => nonzero other (List.mem_cons_of_mem _ member)⟩ := by
            apply ih
            · intro index bound
              have shifted := agree (index + 1) (by
                simp only [CString.strlen, List.length_cons] at bound ⊢; omega)
              rw [show start + 1 + index = start + (index + 1) by omega]
              simpa [CString.char] using shifted
            · simp only [CString.strlen, List.length_cons] at room ⊢; omega
          simp only [stringAt, dif_neg nonzeroFirst, remaining, Option.map_some, CString.cons,
            Option.some.injEq]
          exact CString.ext_bytes (by simp [first])

theorem stringAt_holds {memory : Nat → Byte} {limit start index : Nat} {string : CString}
    (found : stringAt memory limit start = some string) (inside : index ≤ string.strlen) :
    memory (start + index) = string.char index := by
  induction limit generalizing start index string with
  | zero => cases found
  | succ limit ih =>
      unfold stringAt at found
      split at found
      · rename_i zero
        cases found
        rw [Nat.le_zero.mp inside]
        exact zero
      · obtain ⟨rest, foundRest, rfl⟩ := Option.map_eq_some_iff.mp found
        cases index with
        | zero => rfl
        | succ index =>
            have next := ih foundRest (Nat.le_of_succ_le_succ inside)
            rwa [Nat.add_assoc, Nat.add_comm 1] at next

/-- A string that was copied into an array is read back from it. -/
theorem stringAt_strcpy {dest : Nat → Byte} {src : CString} {limit : Nat}
    (room : src.strlen < limit) : stringAt (strcpy dest src) limit 0 = some src := by
  apply stringAt_eq_some _ room
  intro index bound
  simp [strcpy, bound]

/-- The bytes found at a pointer up to the first NUL, but at most `limit`. -/
def CString.upTo (memory : Nat → Byte) : (limit start : Nat) → CString
  | 0, _ => .empty
  | limit + 1, start =>
      if zero : memory start = 0 then .empty
      else (upTo memory limit (start + 1)).cons (memory start) zero

/-- The field of `limit` bytes holds the string, with a NUL behind it unless the
string fills the field. -/
structure Field (memory : Nat → Byte) (limit start : Nat) (string : CString) : Prop where
  length : string.strlen ≤ limit
  bytes : ∀ i < string.strlen, memory (start + i) = string.char i
  terminated : string.strlen < limit → memory (start + string.strlen) = 0

theorem field_upTo (memory : Nat → Byte) (limit start : Nat) :
    Field memory limit start (.upTo memory limit start) := by
  induction limit generalizing start with
  | zero => exact ⟨Nat.le_refl 0, fun i below => absurd below (Nat.not_lt_zero i),
      fun below => absurd below (Nat.not_lt_zero 0)⟩
  | succ limit ih =>
      obtain ⟨length, bytes, terminated⟩ := ih (start + 1)
      simp only [CString.upTo]
      split
      · rename_i zero
        exact ⟨Nat.zero_le _, fun i below => absurd below (Nat.not_lt_zero i), fun _ => zero⟩
      · rename_i nonzero
        have longer : ((CString.upTo memory limit (start + 1)).cons (memory start) nonzero).strlen =
            (CString.upTo memory limit (start + 1)).strlen + 1 := rfl
        refine ⟨by omega, fun i below => ?_, fun below => ?_⟩
        · cases i with
          | zero => rfl
          | succ i =>
              have next := bytes i (by omega)
              rwa [Nat.add_assoc, Nat.add_comm 1] at next
        · have ended := terminated (by omega)
          rwa [Nat.add_assoc, Nat.add_comm 1] at ended

theorem Field.unique {memory : Nat → Byte} {limit start : Nat} {left right : CString}
    (ofLeft : Field memory limit start left) (ofRight : Field memory limit start right) :
    left = right := by
  have no_longer : ∀ {first second : CString}, Field memory limit start first →
      Field memory limit start second → second.strlen ≤ first.strlen := by
    intro first second ofFirst ofSecond
    by_contra longer
    have inside : first.strlen < second.strlen := Nat.lt_of_not_le longer
    have ended := ofFirst.terminated (Nat.lt_of_lt_of_le inside ofSecond.length)
    rw [ofSecond.bytes _ inside] at ended
    exact CString.char_ne_zero inside ended
  have lengths : left.strlen = right.strlen :=
    Nat.le_antisymm (no_longer ofRight ofLeft) (no_longer ofLeft ofRight)
  refine CString.eq_of_char fun i => ?_
  by_cases inside : i < left.strlen
  · rw [← ofLeft.bytes i inside, ofRight.bytes i (lengths ▸ inside)]
  · rw [CString.char_of_ge (Nat.le_of_not_lt inside), CString.char_of_ge (by omega)]

theorem upTo_eq_iff {memory : Nat → Byte} {limit start : Nat} {string : CString} :
    CString.upTo memory limit start = string ↔ Field memory limit start string := by
  constructor
  · intro same
    exact same ▸ field_upTo memory limit start
  · intro field
    exact (field_upTo memory limit start).unique field

end Ece391
