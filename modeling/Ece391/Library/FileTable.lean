import Mathlib.Logic.Function.Basic
import Ece391.Library.Transition

namespace Ece391.Library

universe u

/-! # Tables of open files

What a descriptor table is for: each slot is free or holds a file that is being
read from its start.  A `Cursor` carries what was delivered of its file, which
is a prefix of the contents in whatever pieces it was read.
-/

structure Cursor (β : Type u) where
  contents : List β
  delivered : List β
  isPrefix : delivered <+: contents

namespace Cursor

variable {β : Type u} (cursor : Cursor β)

def start (contents : List β) : Cursor β := ⟨contents, [], List.nil_prefix⟩

def position : Nat := cursor.delivered.length

/-- What a read of at most `count` items delivers. -/
def next (count : Nat) : List β := (cursor.contents.drop cursor.position).take count

theorem position_le : cursor.position ≤ cursor.contents.length := cursor.isPrefix.length_le

/-- What was delivered are the contents up to the position. -/
theorem delivered_eq_take : cursor.delivered = cursor.contents.take cursor.position :=
  List.prefix_iff_eq_take.mp cursor.isPrefix

theorem next_length (count : Nat) :
    (cursor.next count).length = min count (cursor.contents.length - cursor.position) := by
  simp [next]

theorem delivered_append_next (count : Nat) :
    cursor.delivered ++ cursor.next count = cursor.contents.take (cursor.position + count) := by
  rw [List.take_add, ← delivered_eq_take]
  rfl

def advance (count : Nat) : Cursor β :=
  ⟨cursor.contents, cursor.delivered ++ cursor.next count,
    cursor.delivered_append_next count ▸ List.take_prefix _ _⟩

theorem advance_position (count : Nat) :
    (cursor.advance count).position =
      cursor.position + min count (cursor.contents.length - cursor.position) := by
  simp only [advance, position, List.length_append]
  rw [next_length]
  rfl

end Cursor

abbrev FileTable (β : Type u) := Nat → Option (Cursor β)

inductive FileAction (β : Type u) where
  | start (contents : List β)
  | read (fd count : Nat)
  | close (fd : Nat)

namespace FileTable

variable {β : Type u} (slots : List Nat) (table : FileTable β)

/-- The first of the slots that is free. -/
def lowestFree : Option Nat := slots.find? fun fd => (table fd).isNone

def act : FileAction β → FileTable β
  | .start contents =>
      (lowestFree slots table).elim table fun fd =>
        Function.update table fd (some (.start contents))
  | .read fd count => Function.update table fd ((table fd).map (·.advance count))
  | .close fd => Function.update table fd none

def system : Transitions (FileTable β) (FileAction β) := ⟨fun table action => some (act slots table action)⟩

end FileTable

end Ece391.Library
