import Mathlib.Logic.Function.Basic

namespace Ece391

universe u v

abbrev Word := BitVec 32
abbrev Byte := UInt8

/-- What a piece of kernel code can end in.  `spins` is a `while(1)` that no
interrupt leaves, `outOfBounds` the first store outside an object, and
`pageFault` the exception whose handler spins. -/
inductive Outcome (α : Type u) where
  | done (value : α)
  | spins
  | outOfBounds
  | pageFault
deriving DecidableEq, Repr

namespace Outcome

variable {α : Type u} {β : Type v}

def bind : Outcome α → (α → Outcome β) → Outcome β
  | .done value, next => next value
  | .spins, _ => .spins
  | .outOfBounds, _ => .outOfBounds
  | .pageFault, _ => .pageFault

instance : Monad Outcome where
  pure := .done
  bind := Outcome.bind

def toOption : Outcome α → Option α
  | .done value => some value
  | _ => none

@[simp] theorem pure_eq (value : α) : (pure value : Outcome α) = .done value := rfl

@[simp] theorem done_bind {α β : Type u} (value : α) (next : α → Outcome β) :
    (Outcome.done value >>= next) = next value := rfl

@[simp] theorem spins_bind {α β : Type u} (next : α → Outcome β) :
    ((Outcome.spins : Outcome α) >>= next) = .spins := rfl

@[simp] theorem outOfBounds_bind {α β : Type u} (next : α → Outcome β) :
    ((Outcome.outOfBounds : Outcome α) >>= next) = .outOfBounds := rfl

@[simp] theorem pageFault_bind {α β : Type u} (next : α → Outcome β) :
    ((Outcome.pageFault : Outcome α) >>= next) = .pageFault := rfl

/-- Peel the first computation off a sequence that returns. -/
theorem bind_eq_done {α β : Type u} {first : Outcome α} {next : α → Outcome β} {result : β} :
    (first >>= next) = .done result ↔
      ∃ value, first = .done value ∧ next value = .done result := by
  cases first <;> simp

theorem bind_assoc {α β γ : Type u} {first : Outcome α} {next : α → Outcome β}
    {last : β → Outcome γ} :
    ((first >>= next) >>= last) = first >>= fun value => next value >>= last := by
  cases first <;> rfl

@[simp] theorem toOption_done (value : α) : (Outcome.done value).toOption = some value := rfl

theorem toOption_bind {α β : Type u} {first : Outcome α} {next : α → Outcome β} :
    (first >>= next).toOption = first.toOption.bind fun value => (next value).toOption := by
  cases first <;> rfl

theorem toOption_eq_some {outcome : Outcome α} {value : α} :
    outcome.toOption = some value ↔ outcome = .done value := by
  cases outcome <;> simp [toOption]

/-- What holds of the result if there is one. -/
def Gives (holds : α → Prop) (outcome : Outcome α) : Prop :=
  ∀ value, outcome = .done value → holds value

theorem Gives.done {holds : α → Prop} {value : α} (holdsHere : holds value) :
    Gives holds (.done value) := by
  intro other same
  cases same
  exact holdsHere

theorem Gives.bind {α β : Type u} {first : Outcome α} {next : α → Outcome β} {holds : α → Prop}
    {results : β → Prop} (gives : Gives holds first)
    (continues : ∀ value, holds value → Gives results (next value)) :
    Gives results (first >>= next) := by
  intro result returned
  obtain ⟨value, isFirst, remaining⟩ := bind_eq_done.mp returned
  exact continues value (gives value isFirst) result remaining

end Outcome

end Ece391
