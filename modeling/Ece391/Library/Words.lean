import Mathlib.Data.List.Basic
import Mathlib.Data.List.TakeWhile

namespace Ece391.Library

universe u

/-! # The words of a list -/

section Words

variable {α : Type u} {separates : α → Bool} {word rest list : List α} {separator : α}

/-- The longest runs between separators. -/
noncomputable def words (separates : α → Bool) (list : List α) : List (List α) :=
  (list.splitOnP separates).filter (· ≠ [])

theorem words_nil : words separates [] = [] := by
  simp [words]

theorem words_separator (isSeparator : separates separator = true) :
    words separates (separator :: list) = words separates list := by
  have split := List.splitOnP_append_cons [] list isSeparator
  rw [List.nil_append] at split
  rw [words, split]
  simp [words]

theorem words_single (nonempty : word ≠ []) (inside : ∀ item ∈ word, separates item = false) :
    words separates word = [word] := by
  rw [words, List.splitOnP_eq_singleton inside]
  simp [nonempty]

theorem words_append (nonempty : word ≠ []) (inside : ∀ item ∈ word, separates item = false)
    (isSeparator : separates separator = true) :
    words separates (word ++ separator :: rest) = word :: words separates rest := by
  rw [words, List.splitOnP_append_cons_of_forall_mem inside separator isSeparator]
  simp [words, nonempty]

/-- Read a list from the left: a separator is skipped, a word is read up to the
separator behind it, or up to the end. -/
theorem words_induction {holds : List α → Prop} (separates : α → Bool) (empty : holds [])
    (skip : ∀ separator rest, separates separator = true → holds rest → holds (separator :: rest))
    (last : ∀ word, word ≠ [] → (∀ item ∈ word, separates item = false) → holds word)
    (next : ∀ word separator rest, word ≠ [] → (∀ item ∈ word, separates item = false) →
      separates separator = true → holds rest → holds (word ++ separator :: rest))
    (list : List α) : holds list := by
  induction length : list.length using Nat.strongRecOn generalizing list with
  | ind length ih =>
      cases list with
      | nil => exact empty
      | cons first rest =>
          subst length
          by_cases leading : separates first = true
          · exact skip first rest leading (ih rest.length (by simp) rest rfl)
          · let word := (first :: rest).takeWhile fun item => ! separates item
            have nonempty : word ≠ [] := by simp [word, leading]
            have inside : ∀ item ∈ word, separates item = false := by
              intro item member
              simpa using List.mem_takeWhile_imp member
            have parts : word ++ (first :: rest).dropWhile (fun item => ! separates item) =
                first :: rest := List.takeWhile_append_dropWhile
            have stops := List.head?_dropWhile_not (fun item => ! separates item) (first :: rest)
            cases behind : (first :: rest).dropWhile fun item => ! separates item with
            | nil =>
                rw [behind, List.append_nil] at parts
                rw [← parts]
                exact last word nonempty inside
            | cons separator others =>
                rw [behind] at parts stops
                have shorter : others.length < (first :: rest).length := by
                  rw [← parts, List.length_append, List.length_cons]
                  omega
                rw [← parts]
                exact next word separator others nonempty inside (by simpa using stops)
                  (ih others.length shorter others rfl)

theorem words_dropWhile : words separates (list.dropWhile separates) = words separates list := by
  induction list with
  | nil => rfl
  | cons first rest ih =>
      by_cases leading : separates first = true
      · rw [List.dropWhile_cons_of_pos leading, ih, words_separator leading]
      · rw [List.dropWhile_cons_of_neg leading]

theorem dropWhile_word (nonempty : word ≠ []) (inside : ∀ item ∈ word, separates item = false)
    (rest : List α) : (word ++ rest).dropWhile separates = word ++ rest := by
  cases word with
  | nil => exact absurd rfl nonempty
  | cons first others =>
      have first_inside := inside first (List.mem_cons_self ..)
      rw [List.cons_append, List.dropWhile_cons_of_neg (by simp [first_inside])]

theorem takeWhile_word (inside : ∀ item ∈ word, separates item = false) (rest : List α) :
    (word ++ rest).takeWhile (fun item => ! separates item) =
      word ++ rest.takeWhile fun item => ! separates item := by
  apply List.takeWhile_append_of_pos
  intro item member
  simp [inside item member]

/-- The first word, if there is one. -/
theorem words_head : (list.dropWhile separates).takeWhile (fun item => ! separates item) =
    (words separates list).headD [] := by
  induction list using words_induction separates with
  | empty => rfl
  | skip separator rest isSeparator ih =>
      rw [List.dropWhile_cons_of_pos isSeparator, words_separator isSeparator]
      exact ih
  | last word nonempty inside =>
      have whole := dropWhile_word nonempty inside []
      have taken := takeWhile_word inside []
      rw [List.append_nil] at whole taken
      rw [whole, taken, words_single nonempty inside]
      simp
  | next word separator rest nonempty inside isSeparator ih =>
      rw [dropWhile_word nonempty inside, takeWhile_word inside,
        words_append nonempty inside isSeparator]
      simp [isSeparator]

theorem words_length_le (separates : α → Bool) (list : List α) :
    (words separates list).length ≤ list.length := by
  induction list using words_induction separates with
  | empty => simp [words_nil]
  | skip separator rest isSeparator ih =>
      rw [words_separator isSeparator]
      exact Nat.le_succ_of_le ih
  | last word nonempty inside =>
      rw [words_single nonempty inside]
      exact List.length_pos_of_ne_nil nonempty
  | next word separator rest nonempty inside isSeparator ih =>
      rw [words_append nonempty inside isSeparator]
      simp only [List.length_cons, List.length_append]
      omega

theorem joined_length_le (separator : α) (separates : α → Bool) (list : List α) :
    ([separator].intercalate (words separates list)).length ≤ list.length := by
  induction list using words_induction separates with
  | empty => simp [words_nil]
  | skip separator rest isSeparator ih =>
      rw [words_separator isSeparator]
      exact Nat.le_succ_of_le ih
  | last word nonempty inside =>
      rw [words_single nonempty inside, List.intercalate_singleton]
  | next word separator rest nonempty inside isSeparator ih =>
      rw [words_append nonempty inside isSeparator]
      cases others : words separates rest with
      | nil =>
          rw [List.intercalate_singleton, List.length_append]
          exact Nat.le_add_right _ _
      | cons second remaining =>
          rw [others] at ih
          rw [List.intercalate_cons_cons]
          simp only [List.length_append, List.length_cons, List.length_nil]
          omega

end Words

end Ece391.Library
