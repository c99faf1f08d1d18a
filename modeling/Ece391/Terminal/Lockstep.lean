import Ece391.Terminal.Isolation

namespace Ece391

open Library Kernel
open Outcome (Meets)

/-! # Two runs in which one terminal receives the same

The runs take the steps that `term` gets to see together.
-/

variable {image : Image} {behind : BehindTables} {driver other next : TerminalDriver}
  {states : TerminalDriver × TerminalDriver} {term : TerminalId}
  {processes : Forest TerminalId Nat} {input first second : ConsoleInput}

namespace Console

variable {left right third : Console} {keys others : Keyboard}

theorem Agrees.symm (agrees : Agrees left right) : Agrees right left where
  cells offset inside := (agrees.cells offset inside).symm
  x := agrees.x.symm
  y := agrees.y.symm
  bufferI := agrees.bufferI.symm
  line i inside := by
    rw [← agrees.bufferI] at inside
    exact (agrees.line i inside).symm

theorem Agrees.trans (agrees : Agrees left right) (later : Agrees right third) :
    Agrees left third where
  cells offset inside := (agrees.cells offset inside).trans (later.cells offset inside)
  x := agrees.x.trans later.x
  y := agrees.y.trans later.y
  bufferI := agrees.bufferI.trans later.bufferI
  line i inside := by
    have insideRight : i < right.bufferI := by rwa [← agrees.bufferI]
    exact (agrees.line i inside).trans (later.line i insideRight)

theorem drive_congr (seen : first.label ≠ none) (same : first.label = second.label) :
    left.drive behind keys first = left.drive behind keys second := by
  cases first with
  | call _ => exact absurd rfl seen
  | key _ _ _ _ _ => cases second <;> cases same; rfl
  | write _ _ _ => cases second <;> cases same; rfl
  | puts _ _ => cases second <;> cases same; rfl
  | awaitLine => cases second <;> cases same; rfl
  | takeLine => cases second <;> cases same; rfl
  | store _ _ => cases second <;> cases same; rfl

theorem Agrees.drive (agrees : Agrees left right) (held : SameHeld keys others)
    (capslock : ∀ scancode irq frame tlb cached, input = .key scancode irq frame tlb cached →
      TypesLetter behind scancode → keys.ctrl = false → left.bufferI < NUM_CHARS →
        keys.capslock = others.capslock) :
    Meets SameDrive (left.drive behind keys input) (right.drive behind others input) := by
  cases input with
  | call _ => exact .done ⟨rfl, held, agrees⟩
  | key scancode irq frame tlb cached =>
      exact agrees.terminalKeyPressed held (capslock scancode irq frame tlb cached rfl)
  | write buf nbytes _ =>
      refine (agrees.terminalWrite buf nbytes).bind fun one two written => ?_
      have measured : Meets Eq (strlen buf) (strlen buf) := by
        intro length again isLength isAgain
        exact Outcome.done.inj (isLength.symm.trans isAgain)
      exact measured.bind fun length again _ => .done ⟨rfl, held, written.2.resetLine⟩
  | puts text _ => exact (agrees.puts text).bind fun one two printed => .done ⟨rfl, held, printed⟩
  | awaitLine => exact .done ⟨rfl, held, agrees.resetLine⟩
  | takeLine =>
      intro one two isOne isTwo
      simp only [Console.drive] at isOne isTwo
      split at isOne
      · split at isTwo
        · cases isOne
          cases isTwo
          exact ⟨rfl, held, agrees.resetLine⟩
        · cases isTwo
      · cases isOne
  | store bytes _ =>
      refine .done ⟨rfl, held, agrees.setCells fun offset inside => ?_⟩
      rw [agrees.cells offset inside]

end Console

/-- What holds of `term` in one run while the other run is at `other`. -/
structure Beside (term : TerminalId) (driver other : TerminalDriver) : Prop where
  attended : ∃ processes, Attended driver.kernel processes
  unused : (driver.kernel.terminals term).active = 0 →
    (driver.kernel.consoleOf term).bufferI = 0
  opened : (driver.kernel.terminals term).active ≠ 0 → (other.kernel.terminals term).active = 0 →
    (∀ offset < CELL_BYTES, (driver.kernel.consoleOf term).cells offset = blankByte offset) ∧
      (driver.kernel.consoleOf term).bufferI = 0
  arrived : driver.kernel.oldTerminal = term → other.kernel.oldTerminal ≠ term →
    OnlyAlt driver.keyboard

/-- Once both runs use `term`, its cells, its cursor and its line agree. -/
def SameView (term : TerminalId) (states : TerminalDriver × TerminalDriver) : Prop :=
  (states.1.kernel.terminals term).active ≠ 0 → (states.2.kernel.terminals term).active ≠ 0 →
    (states.1.kernel.consoleOf term).Agrees (states.2.kernel.consoleOf term)

structure Lockstep (term : TerminalId) (states : TerminalDriver × TerminalDriver) : Prop where
  left : Beside term states.1 states.2
  right : Beside term states.2 states.1
  view : SameView term states
  held : states.1.kernel.oldTerminal = term → states.2.kernel.oldTerminal = term →
    SameHeld states.1.keyboard states.2.keyboard

/-- A first switch to `term` in one run finds the cursor where the other run has
it on `term`, if that run switched there before. -/
def OpensAlike (term : TerminalId) (driver other : TerminalDriver) (input : ConsoleInput) : Prop :=
  Selects term driver input → (driver.kernel.terminals term).active = 0 →
    (other.kernel.terminals term).active ≠ 0 →
    driver.kernel.screenX = (other.kernel.consoleOf term).x ∧
      driver.kernel.screenY = (other.kernel.consoleOf term).y

/-- A letter that finds room in the line buffer finds the same Caps Lock. -/
def TypedAlike (behind : BehindTables) (term : TerminalId) (driver other : TerminalDriver) :
    ConsoleInput → Prop
  | .key scancode _ _ _ _ => TypesLetter behind scancode → driver.keyboard.ctrl = false →
      (driver.kernel.consoleOf term).bufferI < NUM_CHARS →
        driver.keyboard.capslock = other.keyboard.capslock
  | _ => True

def Independent (behind : BehindTables) (term : TerminalId)
    (states : TerminalDriver × TerminalDriver) : PairInput ConsoleInput → Prop
  | .left input => OpensAlike term states.1 states.2 input
  | .right input => OpensAlike term states.2 states.1 input
  | .both first _ => TypedAlike behind term states.1 states.2 first

theorem OnlyAlt.held {keys others : Keyboard} (only : OnlyAlt keys) (also : OnlyAlt others) :
    SameHeld keys others :=
  ⟨only.shift.trans also.shift.symm, only.ctrl.trans also.ctrl.symm, only.alt.trans also.alt.symm⟩

theorem SameHeld.symm {keys others : Keyboard} (held : SameHeld keys others) :
    SameHeld others keys :=
  ⟨held.shift.symm, held.ctrl.symm, held.alt.symm⟩

theorem SameView.swap (view : SameView term (driver, other)) : SameView term (other, driver) :=
  fun left right => (view right left).symm

theorem Lockstep.swap (lockstep : Lockstep term (driver, other)) : Lockstep term (other, driver) where
  left := lockstep.right
  right := lockstep.left
  view := lockstep.view.swap
  held left right := (lockstep.held right left).symm

/-- The other run's cells and line when it opened `term` before this run does. -/
theorem Lockstep.opens (lockstep : Lockstep term (driver, other)) {console : Console}
    (unused : (driver.kernel.terminals term).active = 0)
    (used : (other.kernel.terminals term).active ≠ 0)
    (blank : ∀ offset < CELL_BYTES, console.cells offset = blankByte offset)
    (bufferI : console.bufferI = 0) (x : console.x = (other.kernel.consoleOf term).x)
    (y : console.y = (other.kernel.consoleOf term).y) :
    console.Agrees (other.kernel.consoleOf term) := by
  obtain ⟨otherBlank, otherEmpty⟩ := lockstep.right.opened used unused
  refine ⟨fun offset inside => ?_, x, y, bufferI.trans otherEmpty.symm, fun i inside => ?_⟩
  · rw [blank offset inside, otherBlank offset inside]
  · rw [bufferI] at inside
    exact absurd inside (Nat.not_lt_zero i)

/-- A step that is not seen, in one of the runs. -/
theorem Lockstep.passes (lockstep : Lockstep term (driver, other))
    (passes : Passes term driver input next) (attended : ∃ processes, Attended next.kernel processes)
    (alike : OpensAlike term driver other input) : Lockstep term (next, other) := by
  cases passes with
  | stays shown keys console active =>
      have unused : (next.kernel.terminals term).active = 0 →
          (driver.kernel.terminals term).active = 0 := by
        intro zero
        by_contra used
        exact active.mpr used zero
      refine ⟨⟨attended, ?_, ?_, ?_⟩, ⟨lockstep.right.attended, lockstep.right.unused, ?_, ?_⟩, ?_, ?_⟩
      · intro zero
        rw [console]
        exact lockstep.left.unused (unused zero)
      · intro used otherUnused
        rw [console]
        exact lockstep.left.opened (active.mp used) otherUnused
      · intro shows hidden
        rw [keys (shown.mp shows)]
        exact lockstep.left.arrived (shown.mp shows) hidden
      · intro used zero
        exact lockstep.right.opened used (unused zero)
      · intro shows hidden
        exact lockstep.right.arrived shows fun was => hidden (shown.mpr was)
      · intro used otherUsed
        rw [console]
        exact lockstep.view (active.mp used) otherUsed
      · intro shows otherShows
        rw [keys (shown.mp shows)]
        exact lockstep.held (shown.mp shows) otherShows
  | returns hidden shown keys used active agrees =>
      refine ⟨⟨attended, ?_, ?_, fun _ _ => keys⟩,
        ⟨lockstep.right.attended, lockstep.right.unused, ?_, ?_⟩, ?_, ?_⟩
      · intro zero
        exact absurd zero active
      · intro _ otherUnused
        obtain ⟨blank, empty⟩ := lockstep.left.opened used otherUnused
        exact ⟨fun offset inside => (agrees.cells offset inside).trans (blank offset inside),
          agrees.bufferI.trans empty⟩
      · intro _ zero
        exact absurd zero active
      · intro _ still
        exact absurd shown still
      · intro _ otherUsed
        exact agrees.trans (lockstep.view used otherUsed)
      · intro _ otherShows
        exact keys.held (lockstep.right.arrived otherShows hidden)
  | opens hidden shown keys selects unused active blank x y bufferI =>
      have empty : (next.kernel.consoleOf term).bufferI = 0 :=
        bufferI.trans (lockstep.left.unused unused)
      refine ⟨⟨attended, ?_, fun _ _ => ⟨blank, empty⟩, fun _ _ => keys⟩,
        ⟨lockstep.right.attended, lockstep.right.unused, ?_, ?_⟩, ?_, ?_⟩
      · intro zero
        exact absurd zero active
      · intro _ zero
        exact absurd zero active
      · intro _ still
        exact absurd shown still
      · intro _ otherUsed
        obtain ⟨sameX, sameY⟩ := alike selects unused otherUsed
        exact lockstep.opens unused otherUsed blank empty (x.trans sameX) (y.trans sameY)
      · intro _ otherShows
        exact keys.held (lockstep.right.arrived otherShows hidden)

/-- Where the cursors differ, the terminals do. -/
theorem Lockstep.passes_apart (lockstep : Lockstep term (driver, other))
    (assumed : Assumed image behind term driver input)
    (stepped : driver.step image behind input = some next)
    (unseen : observed term driver input = none) (differ : ¬ OpensAlike term driver other input) :
    ¬ SameView term (next, other) := by
  obtain ⟨processes, attended⟩ := lockstep.left.attended
  intro view
  refine differ fun selects unused otherUsed => ?_
  have shows : next.kernel.oldTerminal = term := selects_shows attended assumed stepped selects
  cases passes_of_unseen attended assumed stepped unseen with
  | stays isShown keys console active =>
      have used := attended.shown
      rw [isShown.mp shows] at used
      exact absurd unused used
  | returns hidden shown keys used active agrees => exact absurd unused used
  | opens hidden shown keys selects unused active blank x y bufferI =>
      have agrees := view active otherUsed
      exact ⟨x.symm.trans agrees.x, y.symm.trans agrees.y⟩

theorem observed_shown (seen : observed term driver input ≠ none) :
    driver.kernel.oldTerminal = term ∧ observed term driver input = input.label := by
  simp only [observed] at seen ⊢
  split
  · rename_i shown
    exact ⟨shown, rfl⟩
  · rename_i hidden
    rw [if_neg hidden] at seen
    exact absurd rfl seen

/-- What a step of both runs starts from. -/
theorem Lockstep.together (behind : BehindTables) (lockstep : Lockstep term (driver, other))
    (seen : observed term driver first ≠ none)
    (same : observed term driver first = observed term other second) :
    driver.kernel.oldTerminal = term ∧ other.kernel.oldTerminal = term ∧
      SameHeld driver.keyboard other.keyboard ∧
      (driver.kernel.consoleOf term).Agrees (other.kernel.consoleOf term) ∧
      ∀ keys console, Console.drive behind keys console second = console.drive behind keys first := by
  obtain ⟨shown, label⟩ := observed_shown seen
  have seenOther : observed term other second ≠ none := by rwa [← same]
  obtain ⟨otherShown, otherLabel⟩ := observed_shown seenOther
  obtain ⟨processes, attended⟩ := lockstep.left.attended
  obtain ⟨otherProcesses, otherAttended⟩ := lockstep.right.attended
  have used := attended.shown
  have otherUsed := otherAttended.shown
  dsimp only at used otherUsed
  rw [shown] at used
  rw [otherShown] at otherUsed
  refine ⟨shown, otherShown, lockstep.held shown otherShown, lockstep.view used otherUsed, ?_⟩
  intro keys console
  rw [label] at seen
  rw [label, otherLabel] at same
  exact (Console.drive_congr seen same).symm

theorem Lockstep.both {otherNext : TerminalDriver} (lockstep : Lockstep term (driver, other))
    (assumed : Assumed image behind term driver first)
    (otherAssumed : Assumed image behind term other second)
    (seen : observed term driver first ≠ none)
    (same : observed term driver first = observed term other second)
    (stepped : driver.step image behind first = some next)
    (otherStepped : other.step image behind second = some otherNext)
    (alike : TypedAlike behind term driver other first) : Lockstep term (next, otherNext) := by
  obtain ⟨shown, otherShown, held, agrees, sameDrive⟩ := lockstep.together behind seen same
  obtain ⟨processes, attended⟩ := lockstep.left.attended
  obtain ⟨otherProcesses, otherAttended⟩ := lockstep.right.attended
  obtain ⟨asked, console, drives, drawn, used, shows⟩ := shown_step attended assumed stepped shown
  obtain ⟨otherAsked, otherConsole, otherDrives, otherDrawn, otherUsed, otherShows⟩ :=
    shown_step otherAttended otherAssumed otherStepped otherShown
  rw [sameDrive] at otherDrives
  have capslock : ∀ scancode irq frame tlb cached, first = .key scancode irq frame tlb cached →
      TypesLetter behind scancode → driver.keyboard.ctrl = false →
      (driver.kernel.consoleOf term).bufferI < NUM_CHARS →
        driver.keyboard.capslock = other.keyboard.capslock := by
    intro scancode irq frame tlb cached isKey
    subst isKey
    exact alike
  obtain ⟨sameAsked, sameKeys, sameConsole⟩ := agrees.drive held capslock _ _ drives otherDrives
  dsimp only at sameAsked sameKeys sameConsole
  have together : next.kernel.oldTerminal = term ↔ otherNext.kernel.oldTerminal = term := by
    rw [shows, otherShows, sameAsked]
  refine ⟨⟨driver_step_attended attended assumed.starts stepped, ?_, ?_, ?_⟩,
    ⟨driver_step_attended otherAttended otherAssumed.starts otherStepped, ?_, ?_, ?_⟩, ?_, ?_⟩
  · intro zero
    exact absurd zero used
  · intro _ zero
    exact absurd zero otherUsed
  · intro isShown hidden
    exact absurd (together.mp isShown) hidden
  · intro zero
    exact absurd zero otherUsed
  · intro _ zero
    exact absurd zero used
  · intro isShown hidden
    exact absurd (together.mpr isShown) hidden
  · intro _ _
    exact (drawn.trans sameConsole).trans otherDrawn.symm
  · intro _ _
    exact sameKeys

/-- A letter typed with a different Caps Lock stands in the line in another case. -/
theorem Lockstep.both_apart {otherNext : TerminalDriver} (lockstep : Lockstep term (driver, other))
    (assumed : Assumed image behind term driver first)
    (otherAssumed : Assumed image behind term other second)
    (seen : observed term driver first ≠ none)
    (same : observed term driver first = observed term other second)
    (stepped : driver.step image behind first = some next)
    (otherStepped : other.step image behind second = some otherNext)
    (differ : ¬ TypedAlike behind term driver other first) : ¬ SameView term (next, otherNext) := by
  obtain ⟨shown, otherShown, held, agrees, sameDrive⟩ := lockstep.together behind seen same
  obtain ⟨processes, attended⟩ := lockstep.left.attended
  obtain ⟨otherProcesses, otherAttended⟩ := lockstep.right.attended
  obtain ⟨asked, console, drives, drawn, used, _⟩ := shown_step attended assumed stepped shown
  obtain ⟨otherAsked, otherConsole, otherDrives, otherDrawn, otherUsed, _⟩ :=
    shown_step otherAttended otherAssumed otherStepped otherShown
  rw [sameDrive] at otherDrives
  intro view
  cases first with
  | key scancode irq frame tlb cached =>
      refine differ fun letter noCtrl room => ?_
      by_contra lock
      have otherNoCtrl : other.keyboard.ctrl = false := held.ctrl.symm.trans noCtrl
      have otherRoom : (other.kernel.consoleOf term).bufferI < NUM_CHARS := by
        rwa [← agrees.bufferI]
      obtain ⟨_, count, typed⟩ := Console.letter_key letter noCtrl room drives
      obtain ⟨_, _, otherTyped⟩ := Console.letter_key letter otherNoCtrl otherRoom otherDrives
      have inside : (driver.kernel.consoleOf term).bufferI < console.bufferI := by omega
      have line := ((drawn.symm.trans (view used otherUsed)).trans otherDrawn).line _ inside
      rw [typed, agrees.bufferI, otherTyped] at line
      exact letter.differ held.shift lock line
  | call _ => exact differ trivial
  | write _ _ _ => exact differ trivial
  | puts _ _ => exact differ trivial
  | awaitLine => exact differ trivial
  | takeLine => exact differ trivial
  | store _ _ => exact differ trivial

theorem pair_keeps {input : PairInput ConsoleInput} {after : TerminalDriver × TerminalDriver}
    (lockstep : Lockstep term states)
    (assumed : Transitions.Each (Assumed image behind term) states input)
    (independent : Independent behind term states input)
    (stepped : ((consoleSystem image behind).pair (observed term)).step states input = some after) :
    Lockstep term after := by
  obtain ⟨driver, other⟩ := states
  obtain ⟨next, otherNext⟩ := after
  cases input with
  | left input =>
      obtain ⟨unseen, taken, same⟩ := Transitions.pair_left.mp stepped
      obtain rfl : otherNext = other := same
      obtain ⟨processes, attended⟩ := lockstep.left.attended
      exact lockstep.passes (passes_of_unseen attended assumed taken unseen)
        (driver_step_attended attended assumed.starts taken) independent
  | right input =>
      obtain ⟨unseen, taken, same⟩ := Transitions.pair_right.mp stepped
      obtain rfl : next = driver := same
      obtain ⟨processes, attended⟩ := lockstep.right.attended
      exact (lockstep.swap.passes (passes_of_unseen attended assumed taken unseen)
        (driver_step_attended attended assumed.starts taken) independent).swap
  | both first second =>
      obtain ⟨seen, same, taken, otherTaken⟩ := Transitions.pair_both.mp stepped
      exact lockstep.both assumed.1 assumed.2 seen same taken otherTaken independent

theorem pair_breaks {input : PairInput ConsoleInput} {after : TerminalDriver × TerminalDriver}
    (lockstep : Lockstep term states)
    (assumed : Transitions.Each (Assumed image behind term) states input)
    (dependent : ¬ Independent behind term states input)
    (stepped : ((consoleSystem image behind).pair (observed term)).step states input = some after) :
    ¬ SameView term after := by
  obtain ⟨driver, other⟩ := states
  obtain ⟨next, otherNext⟩ := after
  cases input with
  | left input =>
      obtain ⟨unseen, taken, same⟩ := Transitions.pair_left.mp stepped
      obtain rfl : otherNext = other := same
      exact lockstep.passes_apart assumed taken unseen dependent
  | right input =>
      obtain ⟨unseen, taken, same⟩ := Transitions.pair_right.mp stepped
      obtain rfl : next = driver := same
      intro view
      exact lockstep.swap.passes_apart assumed taken unseen dependent view.swap
  | both first second =>
      obtain ⟨seen, same, taken, otherTaken⟩ := Transitions.pair_both.mp stepped
      exact lockstep.both_apart assumed.1 assumed.2 seen same taken otherTaken dependent

theorem firstShell_lockstep {first : Kernel} (started : FirstShell image first) (keys : Keyboard) :
    Lockstep term (⟨first, keys⟩, ⟨first, keys⟩) := by
  have beside : Beside term ⟨first, keys⟩ ⟨first, keys⟩ := by
    refine ⟨started.attended, ?_, ?_, ?_⟩
    · intro _
      obtain ⟨memory, frame, slot, launched⟩ := started.launched
      have empty : (first.terminals term).bufferI = 0 := by
        rw [launched.terminals, Function.update_apply]
        split
        · rw [boot_terminals]
          rfl
        · rw [boot_terminals]
          rfl
      exact empty
    · intro used unused
      exact absurd unused used
    · intro shown hidden
      exact absurd shown hidden
  exact ⟨beside, beside, fun _ _ => .refl _, fun _ _ => ⟨rfl, rfl, rfl⟩⟩

structure AssumedRun (image : Image) (behind : BehindTables) (term : TerminalId)
    (start : TerminalDriver) (inputs : List ConsoleInput) (final : TerminalDriver) : Prop where
  assumed : (consoleSystem image behind).Respects (Assumed image behind term) start inputs
  ran : (consoleSystem image behind).run start inputs = some final

/-- A way to take the steps of two runs of which `term` gets to see the same. -/
structure TakesBoth (image : Image) (behind : BehindTables) (term : TerminalId)
    (start final : TerminalDriver × TerminalDriver) (lefts rights : List ConsoleInput)
    (joint : List (PairInput ConsoleInput)) : Prop where
  lefts : PairInput.lefts joint = lefts
  rights : PairInput.rights joint = rights
  ran : ((consoleSystem image behind).pair (observed term)).run start joint = some final

/-- Terminals do not leak into each other if and only if `term` is first shown
with the same cursor and its letters are typed with the same Caps Lock. -/
theorem isolated_iff_independent {start : Kernel} {keys : Keyboard}
    {lefts rights : List ConsoleInput} {left right : TerminalDriver}
    (started : FirstShell image start)
    (runsLeft : AssumedRun image behind term ⟨start, keys⟩ lefts left)
    (runsRight : AssumedRun image behind term ⟨start, keys⟩ rights right)
    (alike : (consoleSystem image behind).seen (observed term) ⟨start, keys⟩ lefts =
      (consoleSystem image behind).seen (observed term) ⟨start, keys⟩ rights) :
    (∃ joint, TakesBoth image behind term (⟨start, keys⟩, ⟨start, keys⟩) (left, right) lefts rights
      joint) ∧
    ∀ joint, TakesBoth image behind term (⟨start, keys⟩, ⟨start, keys⟩) (left, right) lefts rights
        joint →
      (((consoleSystem image behind).pair (observed term)).Always (SameView term)
          (⟨start, keys⟩, ⟨start, keys⟩) joint ↔
        ((consoleSystem image behind).pair (observed term)).Respects (Independent behind term)
          (⟨start, keys⟩, ⟨start, keys⟩) joint) := by
  constructor
  · obtain ⟨joint, isLeft, isRight, ran⟩ := Transitions.pair_run_exists runsLeft.ran runsRight.ran alike
    exact ⟨joint, isLeft, isRight, ran⟩
  · intro joint takes
    refine Transitions.always_iff_respects_of (fun _ _ _ => pair_keeps)
      (fun _ lockstep => lockstep.view) (fun _ _ _ => pair_breaks)
      (firstShell_lockstep started keys) ?_ takes.ran
    refine Transitions.pair_respects ?_ ?_
    · rw [takes.lefts]
      exact runsLeft.assumed
    · rw [takes.rights]
      exact runsRight.assumed

def cachedEverywhere : TlbUse := ⟨fun _ => true, fun _ => true, fun _ => true⟩

def altPressed : ConsoleInput := .key 0x38 zeroedIrq zeroedFrame cachedEverywhere fun _ => false

def f2Released : ConsoleInput := .key 0xBC zeroedIrq zeroedFrame cachedEverywhere fun _ => false

def altHeld : Keyboard := { noModifiers with alt := true }

theorem alt_draws_nothing (console : Console) :
    console.terminalKeyPressed zeroedTables noModifiers 0x38 = .done (none, altHeld, console) := by
  have noRoom : console.makeRoom (zeroedTables.kbdusAt 0x38) = console :=
    if_neg fun full => absurd full.2 (by decide)
  rw [Console.terminalKeyPressed, noRoom]
  rfl

theorem Nested.draws {kernel after : Kernel} {depth : Nat} {console : Console}
    (nested : Nested depth kernel) (draws : Draws kernel console after) : Nested depth after where
  current := by rw [draws.cr3]; exact nested.current
  newterminalFlag := draws.newterminalFlag.trans nested.newterminalFlag
  openTasks := by rw [draws.openTasks]; exact nested.openTasks

/-- The machine shows terminal 0, on which the first shell runs. -/
structure OneShell (driver : TerminalDriver) : Prop where
  nested : Nested 1 driver.kernel
  attended : ∃ processes, Attended driver.kernel processes
  shown : driver.kernel.oldTerminal = 0
  unused : (driver.kernel.terminals 1).active = 0

theorem OneShell.draws {after : Kernel} {console : Console} (oneShell : OneShell driver)
    (draws : Draws driver.kernel console after) (keys : Keyboard) : OneShell ⟨after, keys⟩ := by
  obtain ⟨processes, attended⟩ := oneShell.attended
  refine ⟨oneShell.nested.draws draws, ⟨processes, attended.draws draws⟩,
    draws.oldTerminal.trans oneShell.shown, ?_⟩
  by_contra used
  exact (draws.active 1).mp used oneShell.unused

/-- Alt and F2 show terminal 1 for the first time. -/
theorem showTerminal1 (oneShell : OneShell driver) (released : driver.keyboard = noModifiers) :
    ∃ next, AssumedRun shellImage zeroedTables 1 driver [altPressed, f2Released] next ∧
      (consoleSystem shellImage zeroedTables).seen (observed 1) driver [altPressed, f2Released] = [] ∧
      (next.kernel.terminals 1).active ≠ 0 ∧
      (next.kernel.consoleOf 1).x = driver.kernel.screenX ∧
      (next.kernel.consoleOf 1).y = driver.kernel.screenY := by
  obtain ⟨processes, attended⟩ := oneShell.attended
  have alt : driver.kernel.shownConsole.terminalKeyPressed zeroedTables driver.keyboard 0x38 =
      .done (none, altHeld, driver.kernel.shownConsole) := by
    rw [released]
    exact alt_draws_nothing _
  obtain ⟨held, handling, altStep, heldDraws⟩ :
      ∃ held, driver.keyHandled zeroedTables 0x38 zeroedIrq (fun _ => false) =
          .done (none, ⟨held, altHeld⟩) ∧
        (consoleSystem shellImage zeroedTables).step driver altPressed = some ⟨held, altHeld⟩ ∧
        Draws driver.kernel driver.kernel.shownConsole held :=
    keyDraws_step shellImage zeroedFrame cachedEverywhere _ attended alt
  have altShell : OneShell ⟨held, altHeld⟩ := oneShell.draws heldDraws altHeld
  obtain ⟨_, altAttended⟩ := altShell.attended
  have select : switchKey (altKey altHeld 0xBC) 0xBC = some 1 := by decide
  obtain ⟨drawn, switching, drawnDraws⟩ :
      ∃ drawn, TerminalDriver.keyHandled zeroedTables 0xBC zeroedIrq (fun _ => false)
          ⟨held, altHeld⟩ = .done (some 1, ⟨drawn, altKey altHeld 0xBC⟩) ∧
        Draws held (held.shownConsole.makeRoom (zeroedTables.kbdusAt 0xBC)) drawn :=
    keyHandled_done altAttended _ (Console.terminalKeyPressed_selects select)
  have drawnShell : OneShell ⟨drawn, altHeld⟩ := altShell.draws drawnDraws altHeld
  have away : (1 : TerminalId) ≠ drawn.oldTerminal := by
    have shown : drawn.oldTerminal = 0 := drawnShell.shown
    rw [shown]
    decide
  obtain ⟨_, entry, second, _, switched, _⟩ := nextShell_exists drawnShell.nested shellImage_valid
    (by decide) away drawnShell.unused zeroedIrq zeroedFrame cachedEverywhere
  have f2Step : (consoleSystem shellImage zeroedTables).step ⟨held, altHeld⟩ f2Released =
      some ⟨second, altKey altHeld 0xBC⟩ := by
    have pressed : TerminalDriver.keyPressed shellImage zeroedTables 0xBC zeroedIrq zeroedFrame
        cachedEverywhere (fun _ => false) ⟨held, altHeld⟩ =
          .done ⟨second, altKey altHeld 0xBC⟩ :=
      Outcome.bind_eq_done.mpr ⟨_, switching, Outcome.bind_eq_done.mpr ⟨_, switched, rfl⟩⟩
    exact Outcome.toOption_eq_some.mpr pressed
  have altAssumed : Assumed shellImage zeroedTables 1 driver altPressed := by
    refine ⟨?_, ?_, ?_, ?_⟩
    · intro term handled asks
      cases handling.symm.trans asks
    · intro index irq frame tlb same
      cases same
    · intro scancode irq frame tlb cached same offset
      cases same
      rfl
    · intro next stepped hidden shown
      rw [released]
      exact ⟨rfl, rfl⟩
  have f2Assumed : Assumed shellImage zeroedTables 1 ⟨held, altHeld⟩ f2Released := by
    refine ⟨?_, ?_, ?_, ?_⟩
    · intro term handled asks refused returned
      obtain ⟨isTerm, isHandled⟩ := Prod.mk.inj (Outcome.done.inj (switching.symm.trans asks))
      cases isTerm
      cases isHandled
      cases switched.symm.trans returned
    · intro index irq frame tlb same
      cases same
    · intro scancode irq frame tlb cached same offset
      cases same
      rfl
    · intro next stepped hidden shown
      exact ⟨rfl, rfl⟩
  have hiddenFirst : observed 1 driver altPressed = none := by
    rw [observed, oneShell.shown]
    rfl
  have hiddenSecond : observed 1 ⟨held, altHeld⟩ f2Released = none := by
    rw [observed, altShell.shown]
    rfl
  refine ⟨⟨second, altKey altHeld 0xBC⟩, ⟨?_, ?_⟩, ?_, ?_⟩
  · exact (Transitions.respects_cons altStep).mpr
      ⟨altAssumed, (Transitions.respects_cons f2Step).mpr ⟨f2Assumed, trivial⟩⟩
  · exact Transitions.run_cons.mpr ⟨_, altStep, Transitions.run_singleton.trans f2Step⟩
  · rw [Transitions.seen_cons altStep, hiddenFirst, Transitions.seen_cons f2Step, hiddenSecond]
    rfl
  · have sameX : held.screenX = driver.kernel.screenX := by
      have same := congrArg Console.x heldDraws.shown
      rwa [shownConsole_eq, shownConsole_eq] at same
    have sameY : held.screenY = driver.kernel.screenY := by
      have same := congrArg Console.y heldDraws.shown
      rwa [shownConsole_eq, shownConsole_eq] at same
    cases passes_of_unseen altAttended f2Assumed f2Step hiddenSecond with
    | stays shown keys console active =>
        have shows := selects_shows altAttended f2Assumed f2Step select
        have was : held.oldTerminal = 1 := shown.mp shows
        have isFirst : held.oldTerminal = 0 := altShell.shown
        rw [isFirst] at was
        cases was
    | returns hidden shown keys used active agrees => exact absurd altShell.unused used
    | opens hidden shown keys selects unused active blank x y bufferI =>
        exact ⟨active, x.trans sameX, y.trans sameY⟩

def aPressed : ConsoleInput := .key 0x1E zeroedIrq zeroedFrame cachedEverywhere fun _ => false

/-- The letter moves the cursor of an empty terminal. -/
theorem a_moves_cursor {console : Console} (x : console.x = 0) (y : console.y = 0)
    (empty : console.bufferI = 0) :
    ∃ typed, console.terminalKeyPressed zeroedTables noModifiers 0x1E =
      .done (none, noModifiers, typed) ∧ typed.x = 1 := by
  obtain ⟨cells, column, row, lineBuffer, bufferI⟩ := console
  dsimp only at x y empty
  subst x y empty
  exact ⟨_, rfl, rfl⟩

/-- An a is typed on terminal 0 before terminal 1 is shown, or not. -/
theorem showTerminal1_after_a :
    ∃ start left right, FirstShell shellImage start ∧
      AssumedRun shellImage zeroedTables 1 ⟨start, noModifiers⟩ [altPressed, f2Released] left ∧
      AssumedRun shellImage zeroedTables 1 ⟨start, noModifiers⟩
        [aPressed, altPressed, f2Released] right ∧
      (consoleSystem shellImage zeroedTables).seen (observed 1) ⟨start, noModifiers⟩
          [altPressed, f2Released] =
        (consoleSystem shellImage zeroedTables).seen (observed 1) ⟨start, noModifiers⟩
          [aPressed, altPressed, f2Released] ∧
      ((left.kernel.terminals 1).active ≠ 0 ∧ (left.kernel.consoleOf 1).x = 0) ∧
      (right.kernel.terminals 1).active ≠ 0 ∧ (right.kernel.consoleOf 1).x = 1 := by
  obtain ⟨start, started, launched⟩ := firstShell_exists shellImage_valid zeroedMemory zeroedFrame
  obtain ⟨processes, attended⟩ := started.attended
  have startX : start.screenX = 0 := launched.display.screenX.trans (boot_screenX _)
  have startY : start.screenY = 0 := launched.display.screenY.trans (boot_screenY _)
  have atFirst : start.oldTerminal = 0 := launched.oldTerminal.trans (boot_oldTerminal _)
  have oneShell : OneShell ⟨start, noModifiers⟩ :=
    ⟨nested_first launched, ⟨processes, attended⟩, atFirst, launched.inactive (by decide)⟩
  have empty : (start.terminals 0).bufferI = 0 := by
    rw [launched.terminals, boot_oldTerminal, Function.update_self, boot_terminals]
    rfl
  obtain ⟨typed, typing, moved⟩ :
      ∃ typed, start.shownConsole.terminalKeyPressed zeroedTables noModifiers 0x1E =
        .done (none, noModifiers, typed) ∧ typed.x = 1 := by
    rw [shownConsole_eq, atFirst]
    exact a_moves_cursor startX startY empty
  obtain ⟨drawn, handling, aStep, draws⟩ :
      ∃ drawn, TerminalDriver.keyHandled zeroedTables 0x1E zeroedIrq (fun _ => false)
          ⟨start, noModifiers⟩ = .done (none, ⟨drawn, noModifiers⟩) ∧
        (consoleSystem shellImage zeroedTables).step ⟨start, noModifiers⟩ aPressed =
          some ⟨drawn, noModifiers⟩ ∧ Draws start typed drawn :=
    keyDraws_step shellImage zeroedFrame cachedEverywhere _ attended typing
  have aAssumed : Assumed shellImage zeroedTables 1 ⟨start, noModifiers⟩ aPressed := by
    refine ⟨?_, ?_, ?_, ?_⟩
    · intro term handled asks
      cases handling.symm.trans asks
    · intro index irq frame tlb same
      cases same
    · intro scancode irq frame tlb cached same offset
      cases same
      rfl
    · intro next stepped hidden shown
      exact ⟨rfl, rfl⟩
  have unseen : observed 1 ⟨start, noModifiers⟩ aPressed = none := by
    rw [observed, atFirst]
    rfl
  obtain ⟨left, leftRuns, leftSeen, leftUsed, leftX, _⟩ := showTerminal1 oneShell rfl
  obtain ⟨right, rightRuns, rightSeen, rightUsed, rightX, _⟩ :=
    showTerminal1 (oneShell.draws draws noModifiers) rfl
  have drawnX : drawn.screenX = 1 := by
    have same := congrArg Console.x draws.shown
    rw [shownConsole_eq] at same
    exact same.trans moved
  refine ⟨start, left, right, started, leftRuns, ⟨?_, ?_⟩, ?_, ⟨leftUsed, leftX.trans startX⟩,
    rightUsed, rightX.trans drawnX⟩
  · exact (Transitions.respects_cons aStep).mpr ⟨aAssumed, rightRuns.assumed⟩
  · exact Transitions.run_cons.mpr ⟨_, aStep, rightRuns.ran⟩
  · rw [Transitions.seen_cons aStep, unseen, leftSeen]
    exact rightSeen.symm

theorem isolated_iff_independent_after_a :
    ∃ start left right, FirstShell shellImage start ∧
      ∃ joint, TakesBoth shellImage zeroedTables 1 (⟨start, noModifiers⟩, ⟨start, noModifiers⟩)
          (left, right) [altPressed, f2Released] [aPressed, altPressed, f2Released] joint ∧
        (((consoleSystem shellImage zeroedTables).pair (observed 1)).Always (SameView 1)
            (⟨start, noModifiers⟩, ⟨start, noModifiers⟩) joint ↔
          ((consoleSystem shellImage zeroedTables).pair (observed 1)).Respects
            (Independent zeroedTables 1) (⟨start, noModifiers⟩, ⟨start, noModifiers⟩) joint) := by
  obtain ⟨start, left, right, started, leftRuns, rightRuns, alike, _⟩ := showTerminal1_after_a
  obtain ⟨⟨joint, takes⟩, condition⟩ := isolated_iff_independent started leftRuns rightRuns alike
  exact ⟨start, left, right, started, joint, takes, condition joint takes⟩

/-- Terminal 1 starts where the cursor of terminal 0 stood. -/
theorem first_display_leaks_cursor :
    ∃ start left right, FirstShell shellImage start ∧
      AssumedRun shellImage zeroedTables 1 ⟨start, noModifiers⟩ [altPressed, f2Released] left ∧
      AssumedRun shellImage zeroedTables 1 ⟨start, noModifiers⟩
        [aPressed, altPressed, f2Released] right ∧
      (consoleSystem shellImage zeroedTables).seen (observed 1) ⟨start, noModifiers⟩
          [altPressed, f2Released] =
        (consoleSystem shellImage zeroedTables).seen (observed 1) ⟨start, noModifiers⟩
          [aPressed, altPressed, f2Released] ∧
      ¬ SameView 1 (left, right) := by
  obtain ⟨start, left, right, started, leftRuns, rightRuns, alike, ⟨leftUsed, leftX⟩, rightUsed,
    rightX⟩ := showTerminal1_after_a
  refine ⟨start, left, right, started, leftRuns, rightRuns, alike, ?_⟩
  intro view
  have same := (view leftUsed rightUsed).x
  rw [leftX, rightX] at same
  cases same

end Ece391
