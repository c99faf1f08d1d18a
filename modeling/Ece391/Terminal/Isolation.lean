import Ece391.Library.Pairing
import Ece391.Terminal.Agreement
import Ece391.Terminal.Restore

namespace Ece391

open Library Kernel
open Outcome (Meets)

/-! # What one terminal shows, in two runs

The runs have the same keys and the same output while terminal `term` is shown;
everything else in them may differ.
-/

variable {image : Image} {behind : BehindTables} {driver next : TerminalDriver} {term : TerminalId}
  {processes : Forest TerminalId Nat} {input other : ConsoleInput}

/-- A key, or an output or a read of a program. -/
inductive ConsoleLabel where
  | key (scancode : Byte)
  | write (buf : UserMemory) (nbytes : Int)
  | puts (text : List Byte)
  | awaitLine
  | takeLine
  | store (bytes : Nat → Option Byte)

def ConsoleInput.label : ConsoleInput → Option ConsoleLabel
  | .call _ => none
  | .key scancode _ _ _ _ => some (.key scancode)
  | .write buf nbytes _ => some (.write buf nbytes)
  | .puts text _ => some (.puts text)
  | .awaitLine => some .awaitLine
  | .takeLine => some .takeLine
  | .store bytes _ => some (.store bytes)

/-- What terminal `term` gets to see of a step. -/
def observed (term : TerminalId) (driver : TerminalDriver) (input : ConsoleInput) :
    Option ConsoleLabel :=
  if driver.kernel.oldTerminal = term then input.label else none

/-- New terminals get their shell, terminals are switched by keys, every `clear`
of a switch reaches the screen, and no control or shift key is held when `term`
gets the screen. -/
structure Assumed (image : Image) (behind : BehindTables) (term : TerminalId)
    (driver : TerminalDriver) (input : ConsoleInput) : Prop where
  starts : driver.StartsShells image behind input
  byKey : ∀ index irq frame tlb, input ≠ .call (.terminalSwitch index irq frame tlb)
  clears : ∀ scancode irq frame tlb cached, input = .key scancode irq frame tlb cached →
    ∀ offset, tlb.clear offset = true
  released : ∀ next, driver.step image behind input = some next →
    driver.kernel.oldTerminal ≠ term → next.kernel.oldTerminal = term →
      driver.keyboard.shift = false ∧ driver.keyboard.ctrl = false

theorem terminalAt_eq_some {index : Int} :
    terminalAt index = some term ↔ ((term : Nat) : Int) = index := by
  constructor
  · intro found
    unfold terminalAt at found
    have holds := List.find?_some found
    exact of_decide_eq_true holds
  · intro same
    rw [← same]
    exact terminalAt_index term

/-- An input is a call, asks for a switch, or only draws. -/
theorem follow_cases {console final : Console} {keys after : Keyboard} {asked : Option Int}
    (drives : console.drive behind keys input = .done (asked, after, final)) :
    (∃ event, input = .call event ∧ asked = none ∧ after = keys ∧ final = console) ∨
      (∃ scancode irq frame tlb cached index, input = .key scancode irq frame tlb cached ∧
        asked = some index) ∨
      (asked = none ∧ input.follow asked = none) := by
  cases input with
  | call event =>
      cases drives
      exact .inl ⟨event, rfl, rfl, rfl, rfl⟩
  | key scancode irq frame tlb cached =>
      cases asked with
      | none => exact .inr (.inr ⟨rfl, rfl⟩)
      | some index => exact .inr (.inl ⟨scancode, irq, frame, tlb, cached, index, rfl, rfl⟩)
  | write buf nbytes cached =>
      obtain ⟨_, _, rest⟩ := Outcome.bind_eq_done.mp drives
      obtain ⟨_, _, returned⟩ := Outcome.bind_eq_done.mp rest
      cases returned
      exact .inr (.inr ⟨rfl, rfl⟩)
  | puts text cached =>
      obtain ⟨_, _, returned⟩ := Outcome.bind_eq_done.mp drives
      cases returned
      exact .inr (.inr ⟨rfl, rfl⟩)
  | awaitLine =>
      cases drives
      exact .inr (.inr ⟨rfl, rfl⟩)
  | takeLine =>
      simp only [Console.drive] at drives
      split at drives
      · cases drives
        exact .inr (.inr ⟨rfl, rfl⟩)
      · cases drives
  | store bytes cached =>
      cases drives
      exact .inr (.inr ⟨rfl, rfl⟩)

/-- What follows the drawing is a switch that the key asked for, or leaves the
consoles alone. -/
theorem follows_cases {console final : Console} {keys after : Keyboard} {asked : Option Int}
    {drawn : Kernel} (attended : Attended drawn processes)
    (assumed : Assumed image behind term driver input)
    (drives : console.drive behind keys input = .done (asked, after, final))
    (follows : Follows image drawn (input.follow asked) next.kernel) :
    (∃ target tlb, asked = some ((target : TerminalId) : Nat) ∧ Switches drawn target tlb next.kernel ∧
        ∀ offset, tlb.clear offset = true) ∨
      ((∀ target, asked.bind terminalAt = some target → target = drawn.oldTerminal) ∧
        next.kernel.oldTerminal = drawn.oldTerminal ∧
        (∀ other, next.kernel.consoleOf other = drawn.consoleOf other) ∧
        ∀ other, (next.kernel.terminals other).active = (drawn.terminals other).active) := by
  rcases follow_cases drives with
    ⟨event, rfl, rfl, _⟩ | ⟨scancode, irq, frame, tlb, cached, index, rfl, rfl⟩ | ⟨rfl, nothing⟩
  · rcases switches_or_stays attended follows.2 follows.1 with
      ⟨target, irq, frame, tlb, isSwitch, _⟩ | ⟨_, stays⟩
    · subst isSwitch
      exact absurd rfl (assumed.byKey target irq frame tlb)
    · refine .inr ⟨?_, stays⟩
      intro target found
      cases found
  · obtain ⟨stepped, starts⟩ :
        drawn.step image (.terminalSwitch index irq frame tlb) = some next.kernel ∧
          ShellStarts image drawn (.terminalSwitch index irq frame tlb) := follows
    rcases switches_or_stays attended starts stepped with
      ⟨target, irq', frame', tlb', isSwitch, switches⟩ | ⟨only, stays⟩
    · injection isSwitch with isIndex _ _ sameTlb
      subst isIndex sameTlb
      exact .inl ⟨target, tlb, rfl, switches, assumed.clears scancode irq frame tlb cached rfl⟩
    · refine .inr ⟨?_, stays⟩
      intro target found
      have isIndex : ((target : Nat) : Int) = index := terminalAt_eq_some.mp found
      exact only target irq frame tlb (by rw [isIndex])
  · rw [nothing] at follows
    have same : next.kernel = drawn := follows
    rw [same]
    refine .inr ⟨?_, rfl, fun _ => rfl, fun _ => rfl⟩
    intro target found
    cases found

/-- The function key of `term` is released with alt held. -/
def Selects (term : TerminalId) (driver : TerminalDriver) : ConsoleInput → Prop
  | .key scancode _ _ _ _ =>
      switchKey (altKey driver.keyboard scancode) scancode = some ((term : Nat) : Int)
  | _ => False

/-- Only alt is held. -/
structure OnlyAlt (keys : Keyboard) : Prop where
  shift : keys.shift = false
  ctrl : keys.ctrl = false
  alt : keys.alt = true

/-- What a step that is not seen does to `term`. -/
inductive Passes (term : TerminalId) (driver : TerminalDriver) (input : ConsoleInput)
    (next : TerminalDriver) : Prop where
  | stays (shown : next.kernel.oldTerminal = term ↔ driver.kernel.oldTerminal = term)
      (keys : driver.kernel.oldTerminal = term → next.keyboard = driver.keyboard)
      (console : next.kernel.consoleOf term = driver.kernel.consoleOf term)
      (active : (next.kernel.terminals term).active ≠ 0 ↔
        (driver.kernel.terminals term).active ≠ 0)
  | returns (hidden : driver.kernel.oldTerminal ≠ term) (shown : next.kernel.oldTerminal = term)
      (keys : OnlyAlt next.keyboard)
      (used : (driver.kernel.terminals term).active ≠ 0)
      (active : (next.kernel.terminals term).active ≠ 0)
      (agrees : (next.kernel.consoleOf term).Agrees (driver.kernel.consoleOf term))
  | opens (hidden : driver.kernel.oldTerminal ≠ term) (shown : next.kernel.oldTerminal = term)
      (keys : OnlyAlt next.keyboard)
      (selects : Selects term driver input)
      (unused : (driver.kernel.terminals term).active = 0)
      (active : (next.kernel.terminals term).active ≠ 0)
      (blank : ∀ offset < CELL_BYTES, (next.kernel.consoleOf term).cells offset = blankByte offset)
      (x : (next.kernel.consoleOf term).x = driver.kernel.screenX)
      (y : (next.kernel.consoleOf term).y = driver.kernel.screenY)
      (bufferI : (next.kernel.consoleOf term).bufferI = (driver.kernel.consoleOf term).bufferI)

theorem cell_in_page {offset : Nat} (inside : offset < CELL_BYTES) : offset < MEM_4KB := by
  unfold CELL_BYTES NUM_ROWS NUM_COLS at inside
  simp only [MEM_4KB]
  omega

/-- A step that shows `term`. -/
theorem passes_of_arrival (attended : Attended driver.kernel processes)
    (assumed : Assumed image behind term driver input)
    (stepped : driver.step image behind input = some next)
    (hidden : driver.kernel.oldTerminal ≠ term) (shown : next.kernel.oldTerminal = term) :
    Passes term driver input next := by
  obtain ⟨asked, console, drawn, drives, draws, follows⟩ := driver_step attended assumed.starts stepped
  rcases follows_cases (attended.draws draws) assumed drives follows with
    ⟨target, tlb, rfl, switches, clears⟩ | ⟨_, stays, _, _⟩
  · obtain rfl : target = term := switches.oldTerminal.symm.trans shown
    have wasHidden : target ≠ driver.kernel.oldTerminal := Ne.symm hidden
    rcases follow_cases drives with
      ⟨_, _, none, _⟩ | ⟨scancode, irq, frame, tlb', cached, index, rfl, isIndex⟩ | ⟨none, _⟩
    · cases none
    · obtain ⟨keys, selects, x, y⟩ := Console.terminalKeyPressed_asks drives
      obtain ⟨noShift, noCtrl⟩ := assumed.released next stepped hidden shown
      have onlyAlt : OnlyAlt next.keyboard := by
        rw [keys]
        exact ⟨(altKey_shift ..).trans noShift, (altKey_ctrl ..).trans noCtrl,
          Console.switchKey_alt selects⟩
      have used := (switches.active target).mpr (.inr rfl)
      have drawnConsole := draws.hidden target wasHidden
      have final : next.kernel.consoleOf target = next.kernel.shownConsole := by
        rw [shownConsole, shown]
      have drawnX : drawn.screenX = driver.kernel.screenX := by
        have same := congrArg Console.x draws.shown
        rw [shownConsole_eq] at same
        rw [shownConsole_eq] at x
        exact same.trans x
      have drawnY : drawn.screenY = driver.kernel.screenY := by
        have same := congrArg Console.y draws.shown
        rw [shownConsole_eq] at same
        rw [shownConsole_eq] at y
        exact same.trans y
      by_cases active : (driver.kernel.terminals target).active ≠ 0
      · obtain ⟨isConsole, cells⟩ := switches.resumed ((draws.active target).mpr active)
        refine .returns hidden shown onlyAlt active used ?_
        rw [final]
        rw [drawnConsole] at isConsole cells
        rw [isConsole]
        exact ⟨fun offset inside => cells offset (cell_in_page inside), rfl, rfl, rfl,
          fun _ _ => rfl⟩
      · have unused : (drawn.terminals target).active = 0 := by
          by_contra still
          exact active ((draws.active target).mp still)
        obtain ⟨isConsole, cells⟩ := switches.opened unused
        rw [drawnConsole, drawnX, drawnY] at isConsole
        refine .opens hidden shown onlyAlt selects (not_not.mp active) used ?_ ?_ ?_ ?_
        · intro offset inside
          rw [final]
          exact cells offset inside (clears offset)
        · rw [final, isConsole]
        · rw [final, isConsole]
        · rw [final, isConsole]
    · cases none
  · exact absurd ((draws.oldTerminal.symm.trans stays.symm).trans shown) hidden

theorem passes_of_unseen (attended : Attended driver.kernel processes)
    (assumed : Assumed image behind term driver input)
    (stepped : driver.step image behind input = some next)
    (unseen : observed term driver input = none) : Passes term driver input next := by
  by_cases shown : driver.kernel.oldTerminal = term
  · rw [observed, if_pos shown] at unseen
    obtain ⟨asked, console, drawn, drives, draws, follows⟩ :=
      driver_step attended assumed.starts stepped
    cases input with
    | call event =>
        obtain ⟨isNone, rest⟩ := Prod.mk.inj (Outcome.done.inj drives)
        obtain ⟨sameKeys, sameConsole⟩ := Prod.mk.inj rest
        subst isNone sameConsole
        rcases follows_cases (attended.draws draws) assumed drives follows with
          ⟨_, _, none, _⟩ | ⟨_, stays, consoles, used⟩
        · cases none
        · refine .stays ?_ (fun _ => sameKeys.symm) ?_ ?_
          · rw [stays, draws.oldTerminal]
          · rw [consoles, ← shown, ← draws.oldTerminal]
            exact draws.shown.trans (congrArg driver.kernel.consoleOf draws.oldTerminal.symm)
          · rw [used]
            exact draws.active term
    | key _ _ _ _ _ => cases unseen
    | write _ _ _ => cases unseen
    | puts _ _ => cases unseen
    | awaitLine => cases unseen
    | takeLine => cases unseen
    | store _ _ => cases unseen
  · by_cases arrives : next.kernel.oldTerminal = term
    · exact passes_of_arrival attended assumed stepped shown arrives
    · obtain ⟨console, active⟩ := driver_step_hidden attended assumed.starts stepped
        (Ne.symm shown) (Ne.symm arrives)
      refine .stays ⟨fun same => absurd same arrives, fun same => absurd same shown⟩
        (fun same => absurd same shown) console active

/-- A step while `term` is shown draws on its console and may show another one. -/
theorem shown_step (attended : Attended driver.kernel processes)
    (assumed : Assumed image behind term driver input)
    (stepped : driver.step image behind input = some next)
    (shown : driver.kernel.oldTerminal = term) :
    ∃ asked console, (driver.kernel.consoleOf term).drive behind driver.keyboard input =
        .done (asked, next.keyboard, console) ∧
      (next.kernel.consoleOf term).Agrees console ∧ (next.kernel.terminals term).active ≠ 0 ∧
      (next.kernel.oldTerminal = term ↔ ∀ target, asked.bind terminalAt = some target → target = term) := by
  subst shown
  obtain ⟨asked, console, drawn, drives, draws, follows⟩ := driver_step attended assumed.starts stepped
  have active := (draws.active driver.kernel.oldTerminal).mpr attended.shown
  have isConsole : drawn.consoleOf driver.kernel.oldTerminal = console := by
    rw [← draws.oldTerminal]
    exact draws.shown
  refine ⟨asked, console, drives, ?_⟩
  rcases follows_cases (attended.draws draws) assumed drives follows with
    ⟨target, tlb, rfl, switches, clears⟩ | ⟨only, stays, consoles, used⟩
  · have different : target ≠ driver.kernel.oldTerminal := by
      rw [← draws.oldTerminal]
      exact switches.different
    have left := switches.left
    have leftCells := switches.leftCells
    rw [draws.shown, draws.oldTerminal] at left
    rw [draws.shown, draws.oldTerminal] at leftCells
    refine ⟨⟨fun offset inside => ?_, ?_, ?_, ?_, ?_⟩, ?_, ?_⟩
    · rw [leftCells offset (cell_in_page inside), clears offset]
      exact if_neg fun both => Bool.noConfusion both.2
    · rw [left]
    · rw [left]
    · rw [left]
    · intro i _
      rw [left]
    · exact (switches.active _).mpr (.inl active)
    · rw [switches.oldTerminal]
      exact ⟨fun same => absurd same different, fun all => all target (terminalAt_index target)⟩
  · refine ⟨?_, ?_, ?_⟩
    · rw [consoles, isConsole]
      exact .refl console
    · rw [used]
      exact active
    · rw [draws.oldTerminal] at stays only
      exact ⟨fun _ => only, fun _ => stays⟩

theorem selects_shows (attended : Attended driver.kernel processes)
    (assumed : Assumed image behind term driver input)
    (stepped : driver.step image behind input = some next) (selects : Selects term driver input) :
    next.kernel.oldTerminal = term := by
  obtain ⟨asked, console, drawn, drives, draws, follows⟩ := driver_step attended assumed.starts stepped
  cases input with
  | key scancode irq frame tlb cached =>
      obtain ⟨isAsked, _⟩ := Prod.mk.inj
        (Outcome.done.inj ((Console.terminalKeyPressed_selects selects).symm.trans drives))
      subst isAsked
      rcases follows_cases (attended.draws draws) assumed drives follows with
        ⟨target, _, same, switches, _⟩ | ⟨only, stays, _, _⟩
      · rw [switches.oldTerminal]
        exact (Fin.ext (Int.natCast_inj.mp (Option.some.inj same))).symm
      · rw [stays]
        exact (only term (terminalAt_index term)).symm
  | call _ => exact selects.elim
  | write _ _ _ => exact selects.elim
  | puts _ _ => exact selects.elim
  | awaitLine => exact selects.elim
  | takeLine => exact selects.elim
  | store _ _ => exact selects.elim

end Ece391
