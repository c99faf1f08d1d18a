import Ece391.Kernel

namespace Ece391

/-! # The run queue (scheduler.c) and the search for a terminal

An entry `some index` of `tasks[]` is the address `&terminals[index]`.  The
loops that stop at the first hit are `find?` over the indices they try.
-/

/-- The first free entry of `tasks[]`, from the current index on. -/
def freeEntry (tasks : Nat → Option Int) (currentTaskIdx : Nat) : Option Nat :=
  ((List.range MAXTERMS).map fun i => (currentTaskIdx + i) % MAXTERMS).find?
    fun index => tasks index = none

def addTaskToQueue (tasks : Nat → Option Int) (currentTaskIdx : Nat) (taskAdd : Int) :
    Nat → Option Int :=
  match freeEntry tasks currentTaskIdx with
  | some index => Function.update tasks index (some taskAdd)
  | none => tasks

/-- The first entry of `tasks[]` that is `&terminals[task]`. -/
def entryOf (tasks : Nat → Option Int) (task : Int) : Option Nat :=
  (List.range MAXTERMS).find? fun index => tasks index = some task

def removeTaskFromQueue (tasks : Nat → Option Int) (taskRm : Int) : Nat → Option Int :=
  match entryOf tasks taskRm with
  | some index => Function.update tasks index none
  | none => tasks

section Queue

variable {tasks : Nat → Option Int} {currentTaskIdx index : Nat} {task other : Int}

theorem freeEntry_free (found : freeEntry tasks currentTaskIdx = some index) :
    tasks index = none := by
  have free := List.find?_some found
  exact of_decide_eq_true free

theorem entryOf_holds (found : entryOf tasks task = some index) : tasks index = some task := by
  have holds := List.find?_some found
  exact of_decide_eq_true holds

/-- Adding fills a free entry and touches no other. -/
theorem addTaskToQueue_keeps (occupied : tasks index = some other) :
    addTaskToQueue tasks currentTaskIdx task index = some other := by
  simp only [addTaskToQueue]
  cases found : freeEntry tasks currentTaskIdx with
  | none => exact occupied
  | some free =>
      have different : index ≠ free := by
        rintro rfl
        rw [freeEntry_free found] at occupied
        cases occupied
      simp only [Function.update_of_ne different, occupied]

/-- Removing clears only an entry that holds the task to remove. -/
theorem removeTaskFromQueue_keeps (occupied : tasks index = some other)
    (different : other ≠ task) : removeTaskFromQueue tasks task index = some other := by
  simp only [removeTaskFromQueue]
  cases found : entryOf tasks task with
  | none => exact occupied
  | some entry =>
      have elsewhere : index ≠ entry := by
        rintro rfl
        rw [entryOf_holds found] at occupied
        exact different (Option.some.inj occupied).symm
      simp only [Function.update_of_ne elsewhere, occupied]

end Queue

def allTerminals : List TerminalId := [0, 1, 2]

theorem mem_allTerminals (term : TerminalId) : term ∈ allTerminals := by
  revert term; decide

namespace Kernel

/-- The index of the terminal showing a program, or -1. -/
def findTerminal (kernel : Kernel) (programId : Int) : Int :=
  match allTerminals.find? (fun i => programId = (kernel.terminals i).programId) with
  | some i => i
  | none => -1

theorem findTerminal_range (kernel : Kernel) (programId : Int) :
    kernel.findTerminal programId = -1 ∨
      ∃ term : TerminalId, kernel.findTerminal programId = term ∧
        programId = (kernel.terminals term).programId := by
  simp only [findTerminal]
  split
  · rename_i term found
    have matched := List.find?_some found
    exact .inr ⟨term, rfl, of_decide_eq_true matched⟩
  · exact .inl rfl

theorem findTerminal_eq_neg_one {kernel : Kernel} {programId : Int} :
    kernel.findTerminal programId = -1 ↔
      ∀ term : TerminalId, programId ≠ (kernel.terminals term).programId := by
  simp only [findTerminal]
  constructor
  · intro absent term
    split at absent
    · omega
    · rename_i missing
      simpa using List.find?_eq_none.mp missing term (mem_allTerminals term)
  · intro absent
    split
    · rename_i term found
      have matched := List.find?_some found
      exact absurd (of_decide_eq_true matched) (absent term)
    · rfl

end Kernel

end Ece391
