import Mathlib.Data.List.Basic
import Mathlib.Data.List.Infix

namespace Ece391.Library

universe u

/-! # The lines of a text

`List.splitOn` gives the lines.  All but the last one are complete: a text that
goes on can only change the last.
-/

variable {α : Type u} [BEq α] [LawfulBEq α] {newline : α} {line text more : List α}

def completeLines (newline : α) (text : List α) : List (List α) := (text.splitOn newline).dropLast

def lastLine (newline : α) (text : List α) : List α :=
  (text.splitOn newline).getLast (List.splitOn_ne_nil newline text)

omit [LawfulBEq α] in
theorem splitOn_eq_completeLines (newline : α) (text : List α) :
    text.splitOn newline = completeLines newline text ++ [lastLine newline text] :=
  (List.dropLast_append_getLast (List.splitOn_ne_nil newline text)).symm

def firstLine (newline : α) (text : List α) : List α :=
  (text.splitOn newline).head (List.splitOn_ne_nil newline text)

omit [LawfulBEq α] in
theorem splitOn_eq_firstLine (newline : α) (text : List α) :
    text.splitOn newline = firstLine newline text :: (text.splitOn newline).tail :=
  (List.cons_head_tail (List.splitOn_ne_nil newline text)).symm

theorem completeLines_single (single : newline ∉ line) : completeLines newline line = [] := by
  rw [completeLines, List.splitOn_eq_singleton single]
  rfl

theorem lastLine_single (single : newline ∉ line) : lastLine newline line = line := by
  simp only [lastLine, List.splitOn_eq_singleton single, List.getLast_singleton]

theorem completeLines_append (single : newline ∉ line) (more : List α) :
    completeLines newline (line ++ newline :: more) = line :: completeLines newline more := by
  rw [completeLines, List.splitOn_append_cons_self_of_not_mem single,
    List.dropLast_cons_of_ne_nil (List.splitOn_ne_nil newline more)]
  rfl

theorem lastLine_append (single : newline ∉ line) (more : List α) :
    lastLine newline (line ++ newline :: more) = lastLine newline more := by
  simp only [lastLine, List.splitOn_append_cons_self_of_not_mem single]
  exact List.getLast_cons (List.splitOn_ne_nil newline more)

/-- Read a text line by line. -/
theorem lines_induction {holds : List α → Prop} (newline : α)
    (single : ∀ line, newline ∉ line → holds line)
    (next : ∀ line more, newline ∉ line → holds more → holds (line ++ newline :: more))
    (text : List α) : holds text := by
  induction length : text.length using Nat.strongRecOn generalizing text with
  | ind length ih =>
      by_cases member : newline ∈ text
      · obtain ⟨line, more, isText, first⟩ := List.eq_append_cons_of_mem member
        subst isText
        rw [List.length_append, List.length_cons] at length
        exact next line more first (ih more.length (by omega) more rfl)
      · exact single text member

/-- What is put behind a text goes on its last line. -/
theorem splitOn_append (newline : α) (text more : List α) :
    (text ++ more).splitOn newline =
      completeLines newline text ++ (lastLine newline text ++ more).splitOn newline := by
  induction text using lines_induction newline with
  | single line single => rw [completeLines_single single, lastLine_single single, List.nil_append]
  | next line rest single ih =>
      rw [completeLines_append single, lastLine_append single, List.append_assoc, List.cons_append,
        List.splitOn_append_cons_self_of_not_mem single, ih, List.cons_append]

theorem splitOn_line_append (single : newline ∉ line) (text : List α) :
    (line ++ text).splitOn newline =
      (line ++ firstLine newline text) :: (text.splitOn newline).tail := by
  simp only [firstLine]
  by_cases member : newline ∈ text
  · obtain ⟨first, more, rfl, notFirst⟩ := List.eq_append_cons_of_mem member
    have single : newline ∉ line ++ first := by
      simp only [List.mem_append, single, notFirst, or_self, not_false_eq_true]
    simp only [List.splitOn_append_cons_self_of_not_mem notFirst]
    rw [← List.append_assoc, List.splitOn_append_cons_self_of_not_mem single]
    rfl
  · have single : newline ∉ line ++ text := by
      simp only [List.mem_append, single, member, or_self, not_false_eq_true]
    simp only [List.splitOn_eq_singleton member]
    rw [List.splitOn_eq_singleton single]
    rfl

theorem lastLine_no_newline (newline : α) (text : List α) : newline ∉ lastLine newline text := by
  induction text using lines_induction newline with
  | single line single =>
      rw [lastLine_single single]
      exact single
  | next line rest single ih =>
      rw [lastLine_append single]
      exact ih

/-- The last line is the end of the text, behind a newline if there is one. -/
theorem lastLine_suffix (newline : α) (text : List α) : ∃ front,
    text = front ++ lastLine newline text ∧ (newline ∈ text → front ≠ []) := by
  induction text using lines_induction newline with
  | single line single =>
      rw [lastLine_single single]
      exact ⟨[], rfl, fun member => absurd member single⟩
  | next line rest single ih =>
      obtain ⟨front, whole, _⟩ := ih
      rw [lastLine_append single]
      refine ⟨line ++ newline :: front, ?_, fun _ => by simp⟩
      rw [List.append_assoc, List.cons_append, ← whole]

theorem lastLine_length_le (newline : α) (text : List α) :
    (lastLine newline text).length ≤ text.length := by
  obtain ⟨front, whole, _⟩ := lastLine_suffix newline text
  have lengths := congrArg List.length whole
  rw [List.length_append] at lengths
  omega

end Ece391.Library
