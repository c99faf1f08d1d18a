import Ece391.Library.Program

namespace Ece391.Library

universe u v w x y

/-! # Programs that run other programs

A request may be answered by another program, which runs to its end first and may make such
requests itself.  Contracts are built by the depth to which this goes on, so that the caller is
judged by what is known of the other program, not by its runs.
-/

/-- How a request starts a program and what the program's end means to the caller; a token
stands for the caller in the meantime. -/
structure Spawning (σ : Type x) (ι : Type u) (ρ : ι → Type v) (β : Type w) (τ : Type y) where
  refuses : σ → (request : ι) → ρ request → σ → Prop
  enters : σ → ι → τ → Program ι ρ β → σ → Prop
  leaves : τ → β → σ → (request : ι) → ρ request → σ → Prop

variable {σ : Type x} {ι : Type u} {ρ : ι → Type v} {α β : Type w} {τ : Type y}

def Contract.spawning (base : Contract σ ι ρ) (spawn : Spawning σ ι ρ β τ) : Nat → Contract σ ι ρ
  | 0 => base
  | depth + 1 =>
      { answers := fun state request reply next =>
          base.answers state request reply next ∨ spawn.refuses state request reply next ∨
            ∃ token child inside value ended, spawn.enters state request token child inside ∧
              Relation.ReflTransGen (Program.Step (base.spawning spawn depth)) (child, inside)
                (.done value, ended) ∧
              spawn.leaves token value ended request reply next
        asks := fun state request =>
          base.asks state request ∨
            ((∃ reply next, spawn.refuses state request reply next) ∨
              ∃ token child inside, spawn.enters state request token child inside) ∧
            ∀ token child inside, spawn.enters state request token child inside →
              Program.Meets (base.spawning spawn depth)
                (fun value ended => ∃ reply next, spawn.leaves token value ended request reply next)
                child inside
        cutOff := base.cutOff }

namespace Program

variable {contract base : Contract σ ι ρ} {spawn : Spawning σ ι ρ β τ} {depth : Nat}
  {post : α → σ → Prop} {program other : Program ι ρ α} {state final : σ} {kept : σ → σ → Prop}

theorem spawning_cutOff (depth : Nat) : (base.spawning spawn depth).cutOff = base.cutOff := by
  cases depth <;> rfl

/-- What may be asked is answered: the program that is run ends. -/
theorem spawning_answered (whole : ¬ base.cutOff)
    (answered : ∀ state request, base.asks state request →
      ∃ reply next, base.answers state request reply next) (depth : Nat) (state : σ) (request : ι)
    (asked : (base.spawning spawn depth).asks state request) :
    ∃ reply next, (base.spawning spawn depth).answers state request reply next := by
  induction depth generalizing state request with
  | zero => exact answered state request asked
  | succ depth ih =>
      rcases asked with asked | ⟨refused | ⟨token, child, inside, entered⟩, meets⟩
      · obtain ⟨reply, next, answer⟩ := answered state request asked
        exact ⟨reply, next, .inl answer⟩
      · obtain ⟨reply, next, answer⟩ := refused
        exact ⟨reply, next, .inr (.inl answer)⟩
      · have wholeInside : ¬ (base.spawning spawn depth).cutOff := by
          rw [spawning_cutOff]
          exact whole
        have met := meets token child inside entered
        obtain ⟨value, ended, ran⟩ := (met.completes wholeInside ih).ends
        obtain ⟨reply, next, left⟩ := met.reaches ran
        exact ⟨reply, next, .inr (.inr ⟨token, child, inside, value, ended, entered, ran, left⟩)⟩

/-- A program that makes no such request meets what it did without them. -/
theorem Meets.spawning
    (apart : ∀ state request, base.asks state request →
      (∀ reply next, ¬ spawn.refuses state request reply next) ∧
        ∀ token child inside, ¬ spawn.enters state request token child inside)
    (meets : Meets base post program state) (depth : Nat) :
    Meets (base.spawning spawn depth) post program state := by
  induction program generalizing state with
  | done value => exact meets
  | cut =>
      rw [Meets, spawning_cutOff]
      exact meets
  | call request resume ih =>
      obtain ⟨asked, answers⟩ := meets
      obtain ⟨neverRefuses, neverEnters⟩ := apart state request asked
      cases depth with
      | zero => exact ⟨asked, answers⟩
      | succ depth =>
          refine ⟨.inl asked, fun reply next answer => ?_⟩
          rcases answer with answer | refused | ⟨token, child, inside, _, _, entered, _⟩
          · exact ih reply (answers reply next answer)
          · exact absurd refused (neverRefuses reply next)
          · exact absurd entered (neverEnters token child inside)

/-- The rule for a request that is refused or runs a program. -/
theorem meets_spawned {request : ι} {result : ρ request → σ → Prop}
    (only : ∀ reply next, ¬ base.answers state request reply next)
    (possible : (∃ reply next, spawn.refuses state request reply next) ∨
      ∃ token child inside, spawn.enters state request token child inside)
    (refused : ∀ reply next, spawn.refuses state request reply next → result reply next)
    (entered : ∀ token child inside, spawn.enters state request token child inside →
      Meets (base.spawning spawn depth)
        (fun value ended => (∃ reply next, spawn.leaves token value ended request reply next) ∧
          ∀ reply next, spawn.leaves token value ended request reply next → result reply next)
        child inside) :
    Meets (base.spawning spawn (depth + 1)) result (ask request) state := by
  refine meets_ask.mpr ⟨.inr ⟨possible, fun token child inside enters => ?_⟩, ?_⟩
  · exact (entered token child inside enters).mono fun value ended left => left.1
  · intro reply next answer
    rcases answer with answer | refusal | ⟨token, child, inside, value, ended, enters, ran, left⟩
    · exact absurd answer (only reply next)
    · exact refused reply next refusal
    · exact ((entered token child inside enters).reaches ran).2 reply next left

theorem run_keeps (refl : ∀ state, kept state state)
    (trans : ∀ {first middle last}, kept first middle → kept middle last → kept first last)
    (answers : ∀ state request reply next, contract.answers state request reply next →
      kept state next)
    (ran : Relation.ReflTransGen (Step contract) (program, state) (other, final)) :
    kept state final := by
  suffices reached : ∀ last : Program ι ρ α × σ,
      Relation.ReflTransGen (Step contract) (program, state) last → kept state last.2 from
    reached _ ran
  intro last ran
  induction ran with
  | refl => exact refl state
  | tail _ stepped ih =>
      cases stepped with
      | call answered => exact trans ih (answers _ _ _ _ answered)

/-- A relation that the base keeps, and that a caller keeps when the program it runs does, is
kept at every depth. -/
theorem spawning_keeps (refl : ∀ state, kept state state)
    (trans : ∀ {first middle last}, kept first middle → kept middle last → kept first last)
    (answers : ∀ state request reply next, base.answers state request reply next →
      kept state next)
    (refused : ∀ state request reply next, spawn.refuses state request reply next →
      kept state next)
    (spawned : ∀ state request token child inside value ended reply next,
      spawn.enters state request token child inside → kept inside ended →
        spawn.leaves token value ended request reply next → kept state next)
    (depth : Nat) (state : σ) (request : ι) (reply : ρ request) (next : σ)
    (answer : (base.spawning spawn depth).answers state request reply next) :
    kept state next := by
  induction depth generalizing state request next with
  | zero => exact answers _ _ _ _ answer
  | succ depth ih =>
      rcases answer with answer | refusal | ⟨token, child, inside, value, ended, enters, ran, left⟩
      · exact answers _ _ _ _ answer
      · exact refused _ _ _ _ refusal
      · exact spawned _ _ _ _ _ _ _ _ _ enters (run_keeps refl trans ih ran) left

theorem Meets.keeps
    (trans : ∀ {first middle last}, kept first middle → kept middle last → kept first last)
    (answers : ∀ state request reply next, contract.answers state request reply next →
      kept state next)
    {start : σ} (initial : kept start state) (meets : Meets contract post program state) :
    Meets contract (fun value final => post value final ∧ kept start final) program state := by
  induction program generalizing state with
  | done value => exact ⟨meets, initial⟩
  | cut => exact meets
  | call request resume ih =>
      exact ⟨meets.1, fun reply next answer =>
        ih reply (trans initial (answers _ _ _ _ answer)) (meets.2 reply next answer)⟩

end Program

end Ece391.Library
