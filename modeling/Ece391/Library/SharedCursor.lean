import Mathlib.Data.Nat.ModEq
import Mathlib.Logic.Function.Basic

namespace Ece391.Library

universe u v

/-! # Readers of one cursor

A listing has some entries and an end, and is read again from its first entry
once its end was read.  Readers come and go, but there is one cursor for all of
them.
-/

/-- The reads made so far, and what each of the present readers got. -/
structure Readings (ρ : Type u) (β : Type v) where
  total : Nat
  results : ρ → Option (List β)
  bounded : ∀ reader items, results reader = some items → items.length ≤ total

namespace Readings

variable {ρ : Type u} {β : Type v}

def begin : Readings ρ β where
  total := 0
  results := fun _ => none
  bounded := by simp

/-- Where the cursor stands in a listing of `length` entries. -/
def cursor (readings : Readings ρ β) (length : Nat) : Nat := readings.total % (length + 1)

/-- Every reader gets the entries in order and then the end; nothing is said
about what a reader gets behind it. -/
def Enumerates (good : Nat → β → Prop) (length : Nat) (readings : Readings ρ β) : Prop :=
  ∀ reader items, readings.results reader = some items →
    ∀ k item, items[k]? = some item → k ≤ length → good k item

section Operations

variable [DecidableEq ρ] (readings : Readings ρ β) (reader : ρ) (item : β)

def start : Readings ρ β where
  total := readings.total
  results := Function.update readings.results reader (some [])
  bounded other items found := by
    by_cases same : other = reader
    · rw [same, Function.update_self] at found
      cases found
      exact Nat.zero_le _
    · rw [Function.update_of_ne same] at found
      exact readings.bounded other items found

def stop : Readings ρ β where
  total := readings.total
  results := Function.update readings.results reader none
  bounded other items found := by
    by_cases same : other = reader
    · rw [same, Function.update_self] at found
      cases found
    · rw [Function.update_of_ne same] at found
      exact readings.bounded other items found

/-- A read by the reader, or by somebody who is none. -/
def read : Readings ρ β where
  total := readings.total + 1
  results := Function.update readings.results reader
    ((readings.results reader).map (· ++ [item]))
  bounded other items found := by
    by_cases same : other = reader
    · rw [same, Function.update_self] at found
      obtain ⟨before, present, rfl⟩ := Option.map_eq_some_iff.mp found
      have bound := readings.bounded reader before present
      rw [List.length_append, List.length_singleton]
      omega
    · rw [Function.update_of_ne same] at found
      exact Nat.le_succ_of_le (readings.bounded other items found)

end Operations

variable {readings : Readings ρ β} {reader other : ρ} {item : β} {length : Nat}
  {good : Nat → β → Prop} {items : List β}

theorem cursor_le (readings : Readings ρ β) (length : Nat) : readings.cursor length ≤ length :=
  Nat.le_of_lt_succ (Nat.mod_lt _ (Nat.zero_lt_succ _))

/-- The cursor stands where a reader's own listing stands if and only if all
other reads, taken together, are whole listings. -/
theorem cursor_eq_iff (present : readings.results reader = some items)
    (early : items.length ≤ length) :
    readings.cursor length = items.length ↔ length + 1 ∣ readings.total - items.length := by
  rw [← Nat.modEq_iff_dvd' (readings.bounded reader items present), Nat.ModEq,
    Nat.mod_eq_of_lt (Nat.lt_succ_of_le early)]
  exact eq_comm

theorem enumerates_begin : Enumerates good length (begin : Readings ρ β) := by
  intro reader items present
  cases present

variable [DecidableEq ρ]

@[simp] theorem start_own : (readings.start reader).results reader = some [] :=
  Function.update_self ..

@[simp] theorem stop_own : (readings.stop reader).results reader = none :=
  Function.update_self ..

@[simp] theorem read_own : (readings.read reader item).results reader =
    (readings.results reader).map (· ++ [item]) :=
  Function.update_self ..

theorem start_other (different : other ≠ reader) :
    (readings.start reader).results other = readings.results other :=
  Function.update_of_ne different ..

theorem stop_other (different : other ≠ reader) :
    (readings.stop reader).results other = readings.results other :=
  Function.update_of_ne different ..

theorem read_other (different : other ≠ reader) :
    (readings.read reader item).results other = readings.results other :=
  Function.update_of_ne different ..

theorem cursor_read : (readings.read reader item).cursor length =
    if readings.cursor length < length then readings.cursor length + 1 else 0 := by
  have step : (readings.read reader item).cursor length =
      (readings.cursor length + 1) % (length + 1) := (Nat.mod_add_mod ..).symm
  have bound := readings.cursor_le length
  rw [step]
  split
  · rename_i inside
    exact Nat.mod_eq_of_lt (Nat.succ_lt_succ inside)
  · rename_i ended
    obtain atEnd : readings.cursor length = length := by omega
    rw [atEnd, Nat.mod_self]

theorem Enumerates.start (enumerates : Enumerates good length readings) :
    Enumerates good length (readings.start reader) := by
  intro other items present
  by_cases same : other = reader
  · rw [same, start_own] at present
    cases present
    simp
  · rw [start_other same] at present
    exact enumerates other items present

theorem Enumerates.stop (enumerates : Enumerates good length readings) :
    Enumerates good length (readings.stop reader) := by
  intro other items present
  by_cases same : other = reader
  · rw [same, stop_own] at present
    cases present
  · rw [stop_other same] at present
    exact enumerates other items present

/-- A read keeps all listings right if and only if it is right for its reader. -/
theorem enumerates_read_iff (enumerates : Enumerates good length readings) :
    Enumerates good length (readings.read reader item) ↔
      ∀ items, readings.results reader = some items → items.length ≤ length →
        good items.length item := by
  constructor
  · intro after items present early
    have own : (readings.read reader item).results reader = some (items ++ [item]) := by
      rw [read_own, present]
      rfl
    apply after reader (items ++ [item]) own _ item _ early
    simp
  · intro next other items present k result found early
    by_cases same : other = reader
    · rw [same, read_own] at present
      obtain ⟨before, isPresent, rfl⟩ := Option.map_eq_some_iff.mp present
      by_cases inside : k < before.length
      · rw [List.getElem?_append_left inside] at found
        exact enumerates reader before isPresent k result found early
      · have bound := (List.getElem?_eq_some_iff.mp found).1
        rw [List.length_append, List.length_singleton] at bound
        obtain rfl : k = before.length := by omega
        simp only [List.getElem?_concat_length, Option.some.injEq] at found
        rw [← found]
        exact next before isPresent early
    · rw [read_other same] at present
      exact enumerates other items present k result found early

end Readings

end Ece391.Library
