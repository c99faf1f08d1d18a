import Mathlib.Logic.Relation

namespace Ece391.Library

universe u v w x

/-! # Programs that call a system

What a program of a process computes between two calls is its own affair.  A
call may be answered in several ways, each of which moves the system to another
state; a program is judged by all of them.
-/

/-- `cut` is a program that goes no further: it has left what is defined, or the
rounds it was given for a loop are used up. -/
inductive Program (ι : Type u) (ρ : ι → Type v) (α : Type w) where
  | done (value : α)
  | cut
  | call (request : ι) (resume : ρ request → Program ι ρ α)

/-- Answers that a system may give in a state, what a program may ask there, and
whether it may be cut. -/
structure Contract (σ : Type x) (ι : Type u) (ρ : ι → Type v) where
  answers : σ → (request : ι) → ρ request → σ → Prop
  asks : σ → ι → Prop
  cutOff : Prop

/-- The answers of a contract that are of an expected kind. -/
def Contract.restricted {σ : Type x} {ι : Type u} {ρ : ι → Type v} (contract : Contract σ ι ρ)
    (expected : (request : ι) → ρ request → Prop) : Contract σ ι ρ where
  answers state request reply next :=
    contract.answers state request reply next ∧ expected request reply
  asks state request := contract.asks state request ∧
    ∃ reply next, contract.answers state request reply next ∧ expected request reply
  cutOff := contract.cutOff

namespace Program

variable {σ : Type x} {ι : Type u} {ρ : ι → Type v} {α β : Type w}

def bind : Program ι ρ α → (α → Program ι ρ β) → Program ι ρ β
  | .done value, next => next value
  | .cut, _ => .cut
  | .call request resume, next => .call request fun reply => (resume reply).bind next

instance : Monad (Program ι ρ) where
  pure := .done
  bind := bind

def ask (request : ι) : Program ι ρ (ρ request) := .call request .done

/-- A loop of at most `fuel` rounds, each of which goes on or leaves it. -/
def loop (round : α → Program ι ρ (α ⊕ β)) : Nat → α → Program ι ρ β
  | 0, _ => .cut
  | fuel + 1, start => (round start).bind fun
      | .inl next => loop round fuel next
      | .inr result => .done result

/-- The first rounds of a loop. -/
def rounds (round : α → Program ι ρ (α ⊕ β)) : Nat → α → Program ι ρ (α ⊕ β)
  | 0, start => .done (.inl start)
  | count + 1, start => (round start).bind fun
      | .inl next => rounds round count next
      | .inr result => .done (.inr result)

/-- The program keeps to the contract whatever it is answered, and ends in `post`. -/
def Meets (contract : Contract σ ι ρ) (post : α → σ → Prop) : Program ι ρ α → σ → Prop
  | .done value, state => post value state
  | .cut, _ => contract.cutOff
  | .call request resume, state =>
      contract.asks state request ∧
        ∀ reply next, contract.answers state request reply next →
          Meets contract post (resume reply) next

/-- One call and one of its answers. -/
inductive Step (contract : Contract σ ι ρ) : Program ι ρ α × σ → Program ι ρ α × σ → Prop where
  | call {request : ι} {resume : ρ request → Program ι ρ α} {state next : σ}
      {reply : ρ request}
      (answered : contract.answers state request reply next) :
      Step contract (.call request resume, state) (resume reply, next)

/-- Every run either goes on or has ended in `post`, and one ends. -/
structure Completes (contract : Contract σ ι ρ) (post : α → σ → Prop) (program : Program ι ρ α)
    (state : σ) : Prop where
  ends : ∃ value final,
    Relation.ReflTransGen (Step contract) (program, state) (.done value, final)
  progress : ∀ reached, Relation.ReflTransGen (Step contract) (program, state) reached →
    (∃ value, reached.1 = .done value ∧ post value reached.2) ∨ ∃ next, Step contract reached next

variable {contract : Contract σ ι ρ} {post weaker : α → σ → Prop} {after : β → σ → Prop}
  {program other : Program ι ρ α} {state final : σ}

theorem Meets.mono (meets : Meets contract post program state)
    (implies : ∀ value state, post value state → weaker value state) :
    Meets contract weaker program state := by
  induction program generalizing state with
  | done value => exact implies value state meets
  | cut => exact meets
  | call request resume ih =>
      exact ⟨meets.1, fun reply next answered => ih reply (meets.2 reply next answered)⟩

theorem meets_bind {next : α → Program ι ρ β} :
    Meets contract after (program >>= next) state ↔
      Meets contract (fun value middle => Meets contract after (next value) middle)
        program state := by
  induction program generalizing state with
  | done value => exact Iff.rfl
  | cut => exact Iff.rfl
  | call request resume ih =>
      constructor
      · intro meets
        exact ⟨meets.1, fun reply answer answered => (ih reply).mp (meets.2 reply answer answered)⟩
      · intro meets
        exact ⟨meets.1, fun reply answer answered => (ih reply).mpr (meets.2 reply answer answered)⟩

/-- One call: what is true after each of its answers. -/
theorem meets_ask {request : ι} {result : ρ request → σ → Prop} :
    Meets contract result (ask request) state ↔ contract.asks state request ∧
      ∀ reply next, contract.answers state request reply next → result reply next :=
  Iff.rfl

section Loop

variable {round : α → Program ι ρ (α ⊕ β)} {invariant : α → σ → Prop} {fuel : Nat} {start : α}

/-- The rule for a loop that ends: a measure bounds its rounds. -/
theorem Meets.loop_of_measure {measure : α → σ → Nat}
    (rounds : ∀ start state, invariant start state →
      Meets contract (fun outcome next => outcome.elim
        (fun again => invariant again next ∧ measure again next < measure start state)
        (after · next)) (round start) state)
    (initial : invariant start state) (enough : measure start state < fuel) :
    Meets contract after (loop round fuel start) state := by
  induction fuel generalizing start state with
  | zero => omega
  | succ fuel ih =>
      refine meets_bind.mpr ((rounds start state initial).mono fun outcome next kept => ?_)
      cases outcome with
      | inl again => exact ih kept.1 (by have less := kept.2; omega)
      | inr result => exact kept

theorem bind_assoc {γ : Type w} (program : Program ι ρ α) (first : α → Program ι ρ β)
    (second : β → Program ι ρ γ) :
    (program.bind first).bind second = program.bind fun value => (first value).bind second := by
  induction program with
  | done value => rfl
  | cut => rfl
  | call request resume ih => exact congrArg (call request) (funext ih)

/-- A loop goes through its rounds and is cut if none leaves it. -/
theorem loop_eq_rounds : loop round fuel start =
    (rounds round fuel start).bind (Sum.elim (fun _ => .cut) .done) := by
  induction fuel generalizing start with
  | zero => rfl
  | succ fuel ih =>
      rw [loop, rounds, bind_assoc]
      congr 1
      funext outcome
      cases outcome with
      | inl next => exact ih
      | inr result => rfl

/-- The rule for the first rounds of a loop that may go on for ever. -/
theorem Meets.rounds {count : Nat} {holds : Nat → α → σ → Prop}
    (turns : ∀ turn start state, holds turn start state →
      Meets contract (fun outcome next => outcome.elim (holds (turn + 1) · next) (after · next))
        (round start) state)
    {turn : Nat} (initial : holds turn start state) :
    Meets contract
      (fun outcome next => outcome.elim (holds (turn + count) · next) (after · next))
      (Program.rounds round count start) state := by
  induction count generalizing start state turn with
  | zero => exact initial
  | succ count ih =>
      refine meets_bind.mpr ((turns turn start state initial).mono fun outcome next kept => ?_)
      cases outcome with
      | inl again =>
          have later := ih kept
          rw [Nat.add_assoc, Nat.add_comm 1] at later
          exact later
      | inr result => exact kept

/-- The rule for a loop over a list. -/
theorem Meets.foldlM {γ : Type x} {step : α → γ → Program ι ρ α} {holds : List γ → α → σ → Prop}
    (steps : ∀ item rest value state, holds (item :: rest) value state →
      Meets contract (holds rest) (step value item) state)
    {items : List γ} {value : α} (initial : holds items value state) :
    Meets contract (holds []) (items.foldlM step value) state := by
  induction items generalizing value state with
  | nil => exact initial
  | cons item rest ih =>
      rw [List.foldlM_cons]
      exact meets_bind.mpr ((steps item rest value state initial).mono fun _ _ kept => ih kept)

/-- A loop whose turns leave the value as it is. -/
theorem Meets.foldlM_same {γ : Type x} {step : α → γ → Program ι ρ α} {holds : σ → Prop}
    {items : List γ} {value : α}
    (steps : ∀ item ∈ items, ∀ state, holds state →
      Meets contract (fun result next => result = value ∧ holds next) (step value item) state)
    (initial : holds state) :
    Meets contract (fun result next => result = value ∧ holds next) (items.foldlM step value)
      state := by
  let holdsOn (rest : List γ) (result : α) (next : σ) : Prop :=
    result = value ∧ holds next ∧ ∀ other ∈ rest, other ∈ items
  have turn : ∀ item rest result next, holdsOn (item :: rest) result next →
      Meets contract (holdsOn rest) (step result item) next := by
    intro item rest result next ⟨same, held, within⟩
    subst same
    exact (steps item (within item (List.mem_cons_self ..)) next held).mono fun _ _ kept =>
      ⟨kept.1, kept.2, fun other member => within other (List.mem_cons_of_mem _ member)⟩
  have start : holdsOn items value state := ⟨rfl, initial, fun _ member => member⟩
  exact (Meets.foldlM turn start).mono fun _ _ kept => ⟨kept.1, kept.2.1⟩

end Loop

/-- All calls that the program may come to are of a kind. -/
def AsksOnly (kind : ι → Prop) : Program ι ρ α → Prop
  | .done _ => True
  | .cut => True
  | .call request resume => kind request ∧ ∀ reply, AsksOnly kind (resume reply)

/-- Of a program that asks only what is answered as expected anyway nothing more is known. -/
theorem Meets.restricted {expected : (request : ι) → ρ request → Prop}
    (only : AsksOnly (fun request => ∀ reply, expected request reply) program)
    (answered : ∀ state request, contract.asks state request →
      ∃ reply next, contract.answers state request reply next)
    (meets : Meets contract post program state) :
    Meets (contract.restricted expected) post program state := by
  induction program generalizing state with
  | done value => exact meets
  | cut => exact meets
  | call request resume ih =>
      obtain ⟨reply, next, answer⟩ := answered state request meets.1
      refine ⟨⟨meets.1, reply, next, answer, only.1 reply⟩, fun reply next answer => ?_⟩
      exact ih reply (only.2 reply) (meets.2 reply next answer.1)

/-- One call that may be answered as expected. -/
theorem Meets.expecting {expected : (request : ι) → ρ request → Prop} {request : ι}
    {result : ρ request → σ → Prop} (meets : Meets contract result (ask request) state)
    (possible : ∃ reply next, contract.answers state request reply next ∧ expected request reply) :
    Meets (contract.restricted expected)
      (fun reply next => result reply next ∧ expected request reply) (ask request) state := by
  obtain ⟨asked, answers⟩ := meets_ask.mp meets
  refine meets_ask.mpr ⟨⟨asked, possible⟩, fun reply next answer => ?_⟩
  exact ⟨answers reply next answer.1, answer.2⟩

/-- One call whose answers are as expected by what is known of them. -/
theorem Meets.expected {expected : (request : ι) → ρ request → Prop} {request : ι}
    {result : ρ request → σ → Prop} (meets : Meets contract result (ask request) state)
    (answered : ∀ state request, contract.asks state request →
      ∃ reply next, contract.answers state request reply next)
    (kind : ∀ reply next, result reply next → expected request reply) :
    Meets (contract.restricted expected) result (ask request) state := by
  obtain ⟨asked, answers⟩ := meets_ask.mp meets
  obtain ⟨reply, next, answer⟩ := answered state request asked
  have possible := kind reply next (answers reply next answer)
  exact (meets.expecting ⟨reply, next, answer, possible⟩).mono fun _ _ kept => kept.1

theorem Meets.step (meets : Meets contract post program state)
    (stepped : Step contract (program, state) (other, final)) :
    Meets contract post other final := by
  cases stepped with
  | call answered => exact meets.2 _ _ answered

/-- A program that meets its contract does so wherever its calls take it. -/
theorem Meets.reaches (meets : Meets contract post program state) {last : Program ι ρ α × σ}
    (reached : Relation.ReflTransGen (Step contract) (program, state) last) :
    Meets contract post last.1 last.2 := by
  induction reached with
  | refl => exact meets
  | tail _ stepped ih => exact ih.step stepped

/-- The contract is right: if what may be asked is answered and nothing may be
cut, a program that meets it completes. -/
theorem Meets.completes (meets : Meets contract post program state) (whole : ¬ contract.cutOff)
    (answered : ∀ state request, contract.asks state request →
      ∃ reply next, contract.answers state request reply next) :
    Completes contract post program state where
  ends := by
    induction program generalizing state with
    | done value => exact ⟨value, state, .refl⟩
    | cut => exact absurd meets whole
    | call request resume ih =>
        obtain ⟨reply, next, answer⟩ := answered state request meets.1
        obtain ⟨value, final, reached⟩ := ih reply (meets.2 reply next answer)
        exact ⟨value, final, .head (.call answer) reached⟩
  progress := by
    intro reached reaches
    obtain ⟨other, final⟩ := reached
    have kept := meets.reaches reaches
    cases other with
    | done value => exact .inl ⟨value, rfl, kept⟩
    | cut => exact absurd kept whole
    | call request resume =>
        obtain ⟨reply, next, answer⟩ := answered final request kept.1
        exact .inr ⟨_, .call answer⟩

end Program

end Ece391.Library
