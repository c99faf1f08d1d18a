import Mathlib.Data.Option.Basic

namespace Ece391.Library

universe u v w

/-! # Transition systems driven by named inputs

All choice is in the inputs: an input list determines at most one run.  Safety
over runs is stated twice, as a property of every state passed (`Always`) and
as a condition on every step taken (`Respects`); `always_iff_respects` is the
rule for conditions that are exactly right.
-/

/-- A partial deterministic system: an input may have no successor. -/
structure Transitions (σ : Type u) (ι : Type v) where
  step : σ → ι → Option σ

namespace Transitions

variable {σ : Type u} {ι : Type v} {α : Type w} (system : Transitions σ ι)

def run : σ → List ι → Option σ
  | state, [] => some state
  | state, input :: rest => (system.step state input).bind fun next => run next rest

/-- `holds` is true of the first state and of every state the run passes. -/
def Always (holds : σ → Prop) : σ → List ι → Prop
  | state, [] => holds state
  | state, input :: rest =>
      holds state ∧ ∀ next, system.step state input = some next → Always holds next rest

/-- Every step of the run is taken from a state that allows its input. -/
def Respects (allowed : σ → ι → Prop) : σ → List ι → Prop
  | _, [] => True
  | state, input :: rest =>
      allowed state input ∧
        ∀ next, system.step state input = some next → Respects allowed next rest

variable {system}

theorem run_cons {state final : σ} {input : ι} {rest : List ι} :
    system.run state (input :: rest) = some final ↔
      ∃ next, system.step state input = some next ∧ system.run next rest = some final := by
  simp only [run, Option.bind_eq_some_iff]

theorem run_singleton {state : σ} {input : ι} :
    system.run state [input] = system.step state input := by
  simp [run]

theorem run_append_bind (state : σ) (left right : List ι) :
    system.run state (left ++ right) =
      (system.run state left).bind fun middle => system.run middle right := by
  induction left generalizing state with
  | nil => rfl
  | cons input rest ih =>
      simp only [List.cons_append, run, ih, Option.bind_assoc]

theorem run_append {state final : σ} {left right : List ι} :
    system.run state (left ++ right) = some final ↔
      ∃ middle, system.run state left = some middle ∧
        system.run middle right = some final := by
  rw [run_append_bind, Option.bind_eq_some_iff]

theorem respects_cons {allowed : σ → ι → Prop} {state next : σ} {input : ι} {rest : List ι}
    (stepped : system.step state input = some next) :
    system.Respects allowed state (input :: rest) ↔
      allowed state input ∧ system.Respects allowed next rest := by
  constructor
  · intro respects
    exact ⟨respects.1, respects.2 next stepped⟩
  · intro respects
    refine ⟨respects.1, fun other taken => ?_⟩
    rw [Option.some.inj (taken.symm.trans stepped)]
    exact respects.2

theorem respects_append {allowed : σ → ι → Prop} {state middle : σ} {left right : List ι}
    (ran : system.run state left = some middle) :
    system.Respects allowed state (left ++ right) ↔
      system.Respects allowed state left ∧ system.Respects allowed middle right := by
  induction left generalizing state with
  | nil =>
      cases ran
      exact (and_iff_right trivial).symm
  | cons input rest ih =>
      obtain ⟨next, stepped, remaining⟩ := run_cons.mp ran
      rw [List.cons_append, respects_cons stepped, respects_cons stepped, ih remaining, and_assoc]

theorem Always.first {holds : σ → Prop} {state : σ} {inputs : List ι}
    (always : system.Always holds state inputs) : holds state := by
  cases inputs with
  | nil => exact always
  | cons input rest => exact always.1

theorem Always.last {holds : σ → Prop} {state final : σ} {inputs : List ι}
    (always : system.Always holds state inputs)
    (ran : system.run state inputs = some final) : holds final := by
  induction inputs generalizing state with
  | nil => cases ran; exact always
  | cons input rest ih =>
      obtain ⟨next, stepped, remaining⟩ := run_cons.mp ran
      exact ih (always.2 next stepped) remaining

theorem Always.mono {holds weaker : σ → Prop} {state : σ} {inputs : List ι}
    (always : system.Always holds state inputs)
    (implies : ∀ state, holds state → weaker state) :
    system.Always weaker state inputs := by
  induction inputs generalizing state with
  | nil => exact implies _ always
  | cons input rest ih =>
      exact ⟨implies _ always.1, fun next stepped => ih (always.2 next stepped)⟩

theorem Always.respects {holds : σ → Prop} {allowed : σ → ι → Prop} {state : σ} {inputs : List ι}
    (always : system.Always holds state inputs)
    (implies : ∀ state input, holds state → allowed state input) :
    system.Respects allowed state inputs := by
  induction inputs generalizing state with
  | nil => trivial
  | cons input rest ih =>
      exact ⟨implies _ _ always.1, fun next stepped => ih (always.2 next stepped)⟩

/-- The rule for conditional safety: an invariant that every allowed step
keeps holds along every run of allowed steps. -/
theorem always_of_respects {allowed : σ → ι → Prop} {invariant : σ → Prop}
    (preserved : ∀ state input next, invariant state → allowed state input →
      system.step state input = some next → invariant next)
    {state : σ} {inputs : List ι} (initial : invariant state)
    (respects : system.Respects allowed state inputs) :
    system.Always invariant state inputs := by
  induction inputs generalizing state with
  | nil => exact initial
  | cons input rest ih =>
      refine ⟨initial, fun next stepped => ?_⟩
      exact ih (preserved _ _ _ initial respects.1 stepped) (respects.2 next stepped)

/-- A complete run of allowed steps. -/
structure Passes (system : Transitions σ ι) (allowed : σ → ι → Prop) (state : σ) (inputs : List ι)
    (final : σ) : Prop where
  ran : system.run state inputs = some final
  respects : system.Respects allowed state inputs

theorem Passes.nil {allowed : σ → ι → Prop} (state : σ) : system.Passes allowed state [] state :=
  ⟨rfl, trivial⟩

theorem Passes.cons {allowed : σ → ι → Prop} {state next final : σ} {input : ι} {rest : List ι}
    (permitted : allowed state input) (stepped : system.step state input = some next)
    (passes : system.Passes allowed next rest final) :
    system.Passes allowed state (input :: rest) final where
  ran := run_cons.mpr ⟨next, stepped, passes.ran⟩
  respects := (respects_cons stepped).mpr ⟨permitted, passes.respects⟩

theorem Passes.append {allowed : σ → ι → Prop} {state middle final : σ} {left right : List ι}
    (first : system.Passes allowed state left middle)
    (second : system.Passes allowed middle right final) :
    system.Passes allowed state (left ++ right) final where
  ran := run_append.mpr ⟨middle, first.ran, second.ran⟩
  respects := (respects_append first.ran).mpr ⟨first.respects, second.respects⟩

/-- Inputs that an invariant of their own steps allows. -/
theorem respects_of_invariant {allowed : σ → ι → Prop} {invariant : σ → Prop} {inputs : List ι}
    (kept : ∀ input ∈ inputs, ∀ state, invariant state → allowed state input ∧
      ∀ next, system.step state input = some next → invariant next)
    {state : σ} (initial : invariant state) : system.Respects allowed state inputs := by
  induction inputs generalizing state with
  | nil => trivial
  | cons input rest ih =>
      obtain ⟨permitted, steps⟩ := kept input (List.mem_cons_self ..) state initial
      exact ⟨permitted, fun next stepped =>
        ih (fun other member => kept other (List.mem_cons_of_mem _ member)) (steps next stepped)⟩

/-- Inputs that every state allows. -/
theorem respects_of_forall {allowed : σ → ι → Prop} (state : σ) {inputs : List ι}
    (all : ∀ input ∈ inputs, ∀ state, allowed state input) :
    system.Respects allowed state inputs :=
  have kept : ∀ input ∈ inputs, ∀ state, True → allowed state input ∧
      ∀ next, system.step state input = some next → True :=
    fun input member state _ => ⟨all input member state, fun _ _ => trivial⟩
  respects_of_invariant kept trivial

theorem Respects.and {allowed permitted : σ → ι → Prop} {state : σ} {inputs : List ι}
    (left : system.Respects allowed state inputs) (right : system.Respects permitted state inputs) :
    system.Respects (fun state input => allowed state input ∧ permitted state input)
      state inputs := by
  induction inputs generalizing state with
  | nil => trivial
  | cons input rest ih =>
      exact ⟨⟨left.1, right.1⟩, fun next stepped => ih (left.2 next stepped) (right.2 next stepped)⟩

/-- Two conditions that agree wherever an invariant holds. -/
theorem respects_congr_of {allowed permitted : σ → ι → Prop} {invariant : σ → Prop}
    (preserved : ∀ state input next, invariant state →
      system.step state input = some next → invariant next)
    (same : ∀ state input, invariant state → (allowed state input ↔ permitted state input))
    {state : σ} {inputs : List ι} (initial : invariant state) :
    system.Respects allowed state inputs ↔ system.Respects permitted state inputs := by
  induction inputs generalizing state with
  | nil => rfl
  | cons input rest ih =>
      have later : ∀ next, system.step state input = some next →
          (system.Respects allowed next rest ↔ system.Respects permitted next rest) :=
        fun next stepped => ih (preserved _ _ _ initial stepped)
      simp only [Respects]
      rw [same state input initial]
      exact and_congr_right fun _ => forall₂_congr later

theorem respects_congr {allowed permitted : σ → ι → Prop} {state : σ} {inputs : List ι}
    (same : ∀ state input, allowed state input ↔ permitted state input) :
    system.Respects allowed state inputs ↔ system.Respects permitted state inputs :=
  have preserved : ∀ (state : σ) (input : ι) (next : σ), True →
      system.step state input = some next → True := fun _ _ _ _ _ => trivial
  respects_congr_of preserved (fun state input _ => same state input) trivial

theorem respects_true (state : σ) (inputs : List ι) :
    system.Respects (fun _ _ => True) state inputs :=
  respects_of_forall state fun _ _ _ => trivial

/-- The rule for unconditional safety. -/
theorem run_preserves {invariant : σ → Prop}
    (preserved : ∀ state input next, invariant state →
      system.step state input = some next → invariant next)
    {state final : σ} {inputs : List ι} (initial : invariant state)
    (ran : system.run state inputs = some final) : invariant final := by
  have kept : ∀ state input next, invariant state → True →
      system.step state input = some next → invariant next :=
    fun state input next inv _ stepped => preserved state input next inv stepped
  exact (always_of_respects kept initial (respects_true state inputs)).last ran

/-- Let every step taken be as assumed.  When the allowed steps keep an invariant
that implies `holds`, and every step that is not allowed leaves `holds` at once,
the condition is exact: a complete run is safe if and only if it respects it. -/
theorem always_iff_respects_of {assumed allowed : σ → ι → Prop} {invariant holds : σ → Prop}
    (preserved : ∀ state input next, invariant state → assumed state input → allowed state input →
      system.step state input = some next → invariant next)
    (implies : ∀ state, invariant state → holds state)
    (broken : ∀ state input next, invariant state → assumed state input → ¬ allowed state input →
      system.step state input = some next → ¬ holds next)
    {state final : σ} {inputs : List ι} (initial : invariant state)
    (asAssumed : system.Respects assumed state inputs)
    (ran : system.run state inputs = some final) :
    system.Always holds state inputs ↔ system.Respects allowed state inputs := by
  induction inputs generalizing state with
  | nil => exact ⟨fun _ => trivial, fun _ => implies _ initial⟩
  | cons input rest ih =>
      obtain ⟨next, stepped, remaining⟩ := run_cons.mp ran
      have later : invariant next →
          (system.Always holds next rest ↔ system.Respects allowed next rest) :=
        fun kept => ih kept (asAssumed.2 next stepped) remaining
      have onlyNext : ∀ other, system.step state input = some other → other = next :=
        fun other taken => Option.some.inj (taken.symm.trans stepped)
      constructor
      · intro always
        have safe := (always.2 next stepped).first
        have permitted : allowed state input := by
          by_contra refused
          exact broken _ _ _ initial asAssumed.1 refused stepped safe
        have kept := preserved _ _ _ initial asAssumed.1 permitted stepped
        refine ⟨permitted, fun other taken => ?_⟩
        rw [onlyNext other taken]
        exact (later kept).mp (always.2 next stepped)
      · intro respects
        have kept := preserved _ _ _ initial asAssumed.1 respects.1 stepped
        refine ⟨implies _ initial, fun other taken => ?_⟩
        rw [onlyNext other taken]
        exact (later kept).mpr (respects.2 next stepped)

theorem always_iff_respects {allowed : σ → ι → Prop} {invariant holds : σ → Prop}
    (preserved : ∀ state input next, invariant state → allowed state input →
      system.step state input = some next → invariant next)
    (implies : ∀ state, invariant state → holds state)
    (broken : ∀ state input next, invariant state → ¬ allowed state input →
      system.step state input = some next → ¬ holds next)
    {state final : σ} {inputs : List ι} (initial : invariant state)
    (ran : system.run state inputs = some final) :
    system.Always holds state inputs ↔ system.Respects allowed state inputs :=
  always_iff_respects_of (fun state input next kept _ => preserved state input next kept) implies
    (fun state input next kept _ => broken state input next kept) initial
    (respects_true state inputs) ran

/-- The same when every step that is not allowed can be taken and leaves `holds`:
the condition is exact for runs that get stuck, too. -/
theorem always_iff_respects_total {assumed allowed : σ → ι → Prop} {invariant holds : σ → Prop}
    (preserved : ∀ state input next, invariant state → assumed state input → allowed state input →
      system.step state input = some next → invariant next)
    (implies : ∀ state, invariant state → holds state)
    (broken : ∀ state input, invariant state → assumed state input → ¬ allowed state input →
      ∃ next, system.step state input = some next ∧ ¬ holds next)
    {state : σ} {inputs : List ι} (initial : invariant state)
    (asAssumed : system.Respects assumed state inputs) :
    system.Always holds state inputs ↔ system.Respects allowed state inputs := by
  induction inputs generalizing state with
  | nil => exact ⟨fun _ => trivial, fun _ => implies _ initial⟩
  | cons input rest ih =>
      have later : allowed state input → ∀ next, system.step state input = some next →
          (system.Always holds next rest ↔ system.Respects allowed next rest) :=
        fun permitted next stepped =>
          ih (preserved _ _ _ initial asAssumed.1 permitted stepped) (asAssumed.2 next stepped)
      constructor
      · intro always
        have permitted : allowed state input := by
          by_contra refused
          obtain ⟨next, stepped, unsafeNext⟩ := broken _ _ initial asAssumed.1 refused
          exact unsafeNext (always.2 next stepped).first
        exact ⟨permitted, fun next stepped => (later permitted next stepped).mp (always.2 next stepped)⟩
      · intro respects
        exact ⟨implies _ initial, fun next stepped =>
          (later respects.1 next stepped).mpr (respects.2 next stepped)⟩

/-- Safety however a run may go on.  Harmless inputs are always allowed, and a step
that is not allowed can be followed by harmless ones that leave `holds`. -/
theorem always_after_iff_respects {allowed : σ → ι → Prop} {harmless : ι → Prop}
    {invariant holds : σ → Prop}
    (preserved : ∀ state input next, invariant state → allowed state input →
      system.step state input = some next → invariant next)
    (implies : ∀ state, invariant state → holds state)
    (permits : ∀ state input, harmless input → allowed state input)
    (broken : ∀ state input, invariant state → ¬ allowed state input →
      ∃ steps, (∀ step ∈ steps, harmless step) ∧ ¬ system.Always holds state (input :: steps))
    {state : σ} {inputs : List ι} (initial : invariant state) :
    (∀ before behind, before ++ behind = inputs → ∀ steps, (∀ step ∈ steps, harmless step) →
      system.Always holds state (before ++ steps)) ↔ system.Respects allowed state inputs := by
  have harmlessRun : ∀ {state}, invariant state → ∀ steps, (∀ step ∈ steps, harmless step) →
      system.Always holds state steps := by
    intro state initial steps harmless
    have respects : system.Respects allowed state steps :=
      respects_of_forall state fun step member state => permits state step (harmless step member)
    exact (always_of_respects preserved initial respects).mono implies
  induction inputs generalizing state with
  | nil =>
      refine ⟨fun _ => trivial, fun _ before behind split steps harmless => ?_⟩
      rw [(List.append_eq_nil_iff.mp split).1]
      exact harmlessRun initial steps harmless
  | cons input rest ih =>
      constructor
      · intro always
        have permitted : allowed state input := by
          by_contra refused
          obtain ⟨steps, harmless, unsafeRun⟩ := broken state input initial refused
          exact unsafeRun (always [input] rest rfl steps harmless)
        refine ⟨permitted, fun next stepped => ?_⟩
        refine (ih (preserved _ _ _ initial permitted stepped)).mp ?_
        intro before behind split steps harmless
        have whole := always (input :: before) behind (congrArg (input :: ·) split) steps harmless
        exact whole.2 next stepped
      · rintro ⟨permitted, later⟩ before behind split steps harmless
        cases before with
        | nil => exact harmlessRun initial steps harmless
        | cons first before =>
            obtain ⟨rfl, parts⟩ := List.cons.inj split
            refine ⟨implies _ initial, fun next stepped => ?_⟩
            exact (ih (preserved _ _ _ initial permitted stepped)).mpr (later next stepped)
              before behind parts steps harmless

/-- Allowed inputs that an invariant lets be taken. -/
theorem run_exists_of_respects {allowed : σ → ι → Prop} {invariant : σ → Prop}
    (taken : ∀ state input, invariant state → allowed state input →
      ∃ next, system.step state input = some next ∧ invariant next)
    {state : σ} {inputs : List ι} (initial : invariant state)
    (respects : system.Respects allowed state inputs) :
    ∃ final, system.run state inputs = some final ∧ invariant final := by
  induction inputs generalizing state with
  | nil => exact ⟨state, rfl, initial⟩
  | cons input rest ih =>
      obtain ⟨next, stepped, kept⟩ := taken state input initial respects.1
      obtain ⟨final, ran, reached⟩ := ih kept (respects.2 next stepped)
      exact ⟨final, run_cons.mpr ⟨next, stepped, ran⟩, reached⟩

section Records

variable {τ : Type w} {recorded : Transitions τ ι} {forget : τ → σ}

/-- A record kept beside the state changes nothing about the runs. -/
theorem run_map (steps : ∀ state input,
      (recorded.step state input).map forget = system.step (forget state) input)
    (state : τ) (inputs : List ι) :
    (recorded.run state inputs).map forget = system.run (forget state) inputs := by
  induction inputs generalizing state with
  | nil => rfl
  | cons input rest ih =>
      rw [run, run, ← steps]
      cases recorded.step state input with
      | none => rfl
      | some next => exact ih next

theorem respects_map {allowed : σ → ι → Prop} (steps : ∀ state input,
      (recorded.step state input).map forget = system.step (forget state) input)
    {state : τ} {inputs : List ι} (respects : system.Respects allowed (forget state) inputs) :
    recorded.Respects (fun state input => allowed (forget state) input) state inputs := by
  induction inputs generalizing state with
  | nil => trivial
  | cons input rest ih =>
      refine ⟨respects.1, fun next stepped => ih (respects.2 (forget next) ?_)⟩
      rw [← steps, stepped]
      rfl

end Records

/-- Safety while a condition lasts: an invariant of the allowed steps between two
states of the condition holds at the end of a run that keeps to it. -/
theorem run_preserves_while {allowed : σ → ι → Prop} {holds invariant : σ → Prop}
    (preserved : ∀ state input next, invariant state → allowed state input → holds state →
      holds next → system.step state input = some next → invariant next)
    {state final : σ} {inputs : List ι} (initial : invariant state)
    (respects : system.Respects allowed state inputs) (always : system.Always holds state inputs)
    (ran : system.run state inputs = some final) : invariant final := by
  induction inputs generalizing state with
  | nil => cases ran; exact initial
  | cons input rest ih =>
      obtain ⟨next, stepped, remaining⟩ := run_cons.mp ran
      have later := always.2 next stepped
      have kept := preserved _ _ _ initial respects.1 always.1 later.first stepped
      exact ih kept (respects.2 next stepped) later remaining

/-- Forward simulation: when every input can be taken, matched by a run of
`abstract` from a related state, the inputs can be run to their end. -/
theorem run_simulates {τ : Type u} {κ : Type v} {abstract : Transitions τ κ}
    {related : σ → τ → Prop} {inputs : List ι}
    (matched : ∀ input ∈ inputs, ∀ state spec, related state spec →
      ∃ next specInputs after, system.step state input = some next ∧
        abstract.run spec specInputs = some after ∧ related next after)
    {state : σ} {spec : τ} (initial : related state spec) :
    ∃ final specInputs last, system.run state inputs = some final ∧
      abstract.run spec specInputs = some last ∧ related final last := by
  induction inputs generalizing state spec with
  | nil => exact ⟨state, [], spec, rfl, rfl, initial⟩
  | cons input rest ih =>
      obtain ⟨next, first, middle, stepped, acted, relatedNext⟩ :=
        matched input (List.mem_cons_self ..) state spec initial
      obtain ⟨final, others, last, ran, actedRest, relatedLast⟩ :=
        ih (fun other member => matched other (List.mem_cons_of_mem _ member)) relatedNext
      exact ⟨final, first ++ others, last, run_cons.mpr ⟨next, stepped, ran⟩,
        run_append.mpr ⟨middle, acted, actedRest⟩, relatedLast⟩

/-- Lockstep: two systems that take related steps on every input, or both none, run to
related states, or both not at all. -/
theorem run_lockstep {τ : Type w} {abstract : Transitions τ ι} {related : σ → τ → Prop}
    (steps : ∀ input state spec, related state spec →
      Option.Rel related (system.step state input) (abstract.step spec input))
    {state : σ} {spec : τ} (initial : related state spec) (inputs : List ι) :
    Option.Rel related (system.run state inputs) (abstract.run spec inputs) := by
  induction inputs generalizing state spec with
  | nil => exact .some initial
  | cons input rest ih =>
      have matched := steps input state spec initial
      rw [run, run]
      cases stepped : system.step state input with
      | none =>
          rw [stepped] at matched
          cases other : abstract.step spec input with
          | none => exact .none
          | some after =>
              rw [other] at matched
              cases matched
      | some next =>
          rw [stepped] at matched
          cases other : abstract.step spec input with
          | none =>
              rw [other] at matched
              cases matched
          | some after =>
              rw [other] at matched
              cases matched with
              | some kept => exact ih kept

end Transitions

end Ece391.Library
