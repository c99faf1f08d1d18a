import Ece391.Terminal.Driver
import Ece391.Process.VideoMapping

namespace Ece391

open Library Kernel

/-! # What the driver calls change

Each terminal has a console at any time: on the screen and in the cursor
variables while it is shown, in its backing buffer and its record otherwise.
-/

namespace Kernel

def consoleOf (kernel : Kernel) (term : TerminalId) : Console where
  cells := kernel.video (if term = kernel.oldTerminal then .screen else .termBuffer term)
  x := if term = kernel.oldTerminal then kernel.screenX else (kernel.terminals term).x
  y := if term = kernel.oldTerminal then kernel.screenY else (kernel.terminals term).y
  lineBuffer := (kernel.terminals term).lineBuffer
  bufferI := (kernel.terminals term).bufferI

/-- The console of the terminal that is shown. -/
def shownConsole (kernel : Kernel) : Console := kernel.consoleOf kernel.oldTerminal

/-- A call that leaves `console` on the terminal that is shown. -/
structure Draws (kernel : Kernel) (console : Console) (after : Kernel) : Prop where
  openTasks : after.openTasks = kernel.openTasks
  newterminalFlag : after.newterminalFlag = kernel.newterminalFlag
  oldTerminal : after.oldTerminal = kernel.oldTerminal
  cr3 : after.cr3 = kernel.cr3
  tssEsp0 : after.tssEsp0 = kernel.tssEsp0
  pcb : after.pcb = kernel.pcb
  videoPage : after.videoPage = kernel.videoPage
  tlbVideo : after.tlbVideo = kernel.tlbVideo
  programId : ∀ term, (after.terminals term).programId = (kernel.terminals term).programId
  savedCr3 : ∀ term, (after.terminals term).cr3 = (kernel.terminals term).cr3
  active : ∀ term, (after.terminals term).active ≠ 0 ↔ (kernel.terminals term).active ≠ 0
  shown : after.shownConsole = console
  hidden : ∀ term, term ≠ kernel.oldTerminal → after.consoleOf term = kernel.consoleOf term

variable {image : Image} {kernel middle after : Kernel} {console next : Console}
  {term : TerminalId}

theorem shownConsole_eq (kernel : Kernel) : kernel.shownConsole =
    { cells := kernel.video .screen
      x := kernel.screenX
      y := kernel.screenY
      lineBuffer := (kernel.terminals kernel.oldTerminal).lineBuffer
      bufferI := (kernel.terminals kernel.oldTerminal).bufferI } := by
  simp only [shownConsole, consoleOf, if_true]

theorem consoleOf_hidden (hidden : term ≠ kernel.oldTerminal) : kernel.consoleOf term =
    { cells := kernel.video (.termBuffer term)
      x := (kernel.terminals term).x
      y := (kernel.terminals term).y
      lineBuffer := (kernel.terminals term).lineBuffer
      bufferI := (kernel.terminals term).bufferI } := by
  simp only [consoleOf, if_neg hidden]

theorem Draws.trans (first : Draws kernel console middle) (second : Draws middle next after) :
    Draws kernel next after where
  openTasks := second.openTasks.trans first.openTasks
  newterminalFlag := second.newterminalFlag.trans first.newterminalFlag
  oldTerminal := second.oldTerminal.trans first.oldTerminal
  cr3 := second.cr3.trans first.cr3
  tssEsp0 := second.tssEsp0.trans first.tssEsp0
  pcb := second.pcb.trans first.pcb
  videoPage := second.videoPage.trans first.videoPage
  tlbVideo := second.tlbVideo.trans first.tlbVideo
  programId term := (second.programId term).trans (first.programId term)
  savedCr3 term := (second.savedCr3 term).trans (first.savedCr3 term)
  active term := (second.active term).trans (first.active term)
  shown := second.shown
  hidden term other := by
    have otherMiddle : term ≠ middle.oldTerminal := by rwa [first.oldTerminal]
    exact (second.hidden term otherMiddle).trans (first.hidden term other)

/-- The video page of the running process is the screen. -/
def OnScreen (kernel : Kernel) : Prop := ∀ cached, kernel.videoFrame cached = .screen

theorem Draws.onScreen (draws : Draws kernel console after) (onScreen : kernel.OnScreen) :
    after.OnScreen := by
  intro cached
  have same : after.videoFrame cached = kernel.videoFrame cached := by
    simp only [videoFrame, draws.tlbVideo, draws.videoPage, draws.cr3]
  rw [same, onScreen]

theorem OnScreen.reads (onScreen : kernel.OnScreen) (cached : Nat → Bool) :
    kernel.console cached = kernel.shownConsole := by
  rw [shownConsole_eq]
  simp only [Kernel.console, onScreen _]

theorem storeVideo_screen (onScreen : kernel.OnScreen) (cached : Nat → Bool) {written : Nat → Prop}
    [DecidablePred written] {source : Nat → Byte} :
    (kernel.storeVideo cached written source).video = fun frame offset =>
      if written offset ∧ frame = .screen then source offset else kernel.video frame offset := by
  funext frame offset
  simp only [storeVideo, onScreen (cached offset), eq_comm]

theorem storeVideo_draws (onScreen : kernel.OnScreen) (cached : Nat → Bool)
    (written : Nat → Prop) [DecidablePred written] (source : Nat → Byte) :
    Draws kernel { kernel.shownConsole with
      cells := fun offset =>
        if written offset then source offset else kernel.shownConsole.cells offset }
      (kernel.storeVideo cached written source) := by
  have video : (kernel.storeVideo cached written source).video = fun frame offset =>
      if written offset ∧ frame = .screen then source offset else kernel.video frame offset :=
    storeVideo_screen onScreen cached
  refine ⟨rfl, rfl, rfl, rfl, rfl, rfl, rfl, rfl, fun _ => rfl, fun _ => rfl, fun _ => Iff.rfl,
    ?_, ?_⟩
  · rw [shownConsole_eq, shownConsole_eq, video]
    simp only [and_true]
    rfl
  · intro term hidden
    have stillHidden : term ≠ (kernel.storeVideo cached written source).oldTerminal := hidden
    rw [consoleOf_hidden hidden, consoleOf_hidden stillHidden, video]
    simp only [reduceCtorEq, and_false, if_false]
    rfl

theorem setCursor_draws (x y : Int) :
    Draws kernel (kernel.shownConsole.setCursor x y) (kernel.setCursor x y) := by
  refine ⟨rfl, rfl, rfl, rfl, rfl, rfl, rfl, rfl, fun _ => rfl, fun _ => rfl, fun _ => Iff.rfl,
    ?_, ?_⟩
  · rw [shownConsole_eq, shownConsole_eq]
    rfl
  · intro term hidden
    rw [consoleOf_hidden hidden]
    exact consoleOf_hidden hidden

/-- Another record for the terminal that is shown, of the same process. -/
theorem setTerminal_draws (record : Terminal)
    (programId : record.programId = (kernel.terminals kernel.oldTerminal).programId)
    (savedCr3 : record.cr3 = (kernel.terminals kernel.oldTerminal).cr3)
    (active : record.active ≠ 0 ↔ (kernel.terminals kernel.oldTerminal).active ≠ 0) :
    Draws kernel
      { kernel.shownConsole with lineBuffer := record.lineBuffer, bufferI := record.bufferI }
      (kernel.setTerminal kernel.oldTerminal record) := by
  have others : ∀ term, term ≠ kernel.oldTerminal →
      (kernel.setTerminal kernel.oldTerminal record).terminals term = kernel.terminals term :=
    fun term other => Function.update_of_ne other ..
  have shows : (kernel.setTerminal kernel.oldTerminal record).terminals kernel.oldTerminal = record :=
    Function.update_self ..
  refine ⟨rfl, rfl, rfl, rfl, rfl, rfl, rfl, rfl, ?_, ?_, ?_, ?_, ?_⟩
  · intro term
    by_cases isShown : term = kernel.oldTerminal
    · rw [isShown, shows, programId]
    · rw [others term isShown]
  · intro term
    by_cases isShown : term = kernel.oldTerminal
    · rw [isShown, shows, savedCr3]
    · rw [others term isShown]
  · intro term
    by_cases isShown : term = kernel.oldTerminal
    · rw [isShown, shows, active]
    · rw [others term isShown]
  · rw [shownConsole_eq, shownConsole_eq]
    simp only [setTerminal, Function.update_self]
  · intro term hidden
    have stillHidden : term ≠ (kernel.setTerminal kernel.oldTerminal record).oldTerminal := hidden
    rw [consoleOf_hidden hidden, consoleOf_hidden stillHidden, others term hidden]
    rfl

theorem setConsole_draws (onScreen : kernel.OnScreen) (cached : Nat → Bool) (console : Console) :
    Draws kernel console (kernel.setConsole cached console) := by
  have stored := storeVideo_draws onScreen cached (fun _ => True) console.cells
  have moved := stored.trans (setCursor_draws console.x console.y)
  have entered := moved.trans (setTerminal_draws
    { kernel.terminals kernel.oldTerminal with
      lineBuffer := console.lineBuffer, bufferI := console.bufferI } rfl rfl Iff.rfl)
  rw [moved.shown, stored.shown] at entered
  exact entered

/-- `irq1_wrapper` and the first line of `terminal_key_pressed`. -/
theorem keyMark_draws (shownActive : (kernel.terminals kernel.oldTerminal).active ≠ 0)
    (irq : IrqFrame) :
    Draws kernel kernel.shownConsole
      ({ kernel with esp_0 := irq.esp_0, ebp_0 := irq.ebp_0 }.setTerminal kernel.oldTerminal
        { kernel.terminals kernel.oldTerminal with active := 1 }) := by
  have saved : Draws kernel kernel.shownConsole
      { kernel with esp_0 := irq.esp_0, ebp_0 := irq.ebp_0 } :=
    ⟨rfl, rfl, rfl, rfl, rfl, rfl, rfl, rfl, fun _ => rfl, fun _ => rfl, fun _ => Iff.rfl, rfl,
      fun _ _ => rfl⟩
  exact saved.trans (setTerminal_draws { kernel.terminals kernel.oldTerminal with active := 1 }
    rfl rfl ⟨fun _ => shownActive, fun _ => Nat.one_ne_zero⟩)

theorem resetLine_draws :
    Draws kernel { kernel.shownConsole with bufferI := 0 }
      (kernel.setTerminal kernel.oldTerminal
        { kernel.terminals kernel.oldTerminal with bufferI := 0 }) :=
  setTerminal_draws { kernel.terminals kernel.oldTerminal with bufferI := 0 } rfl rfl Iff.rfl

/-- What the console needs of a state that a run reaches: every live process
can write to the terminal, and terminals that were never used show pid 0. -/
structure Attended (kernel : Kernel) (processes : Forest TerminalId Nat) : Prop
    extends Consistent kernel processes where
  mapped : Mapped kernel processes
  idle : ∀ term, (kernel.terminals term).active = 0 → (kernel.terminals term).programId = 0
  stdout : ∀ pid : Nat, 1 ≤ pid → pid ≤ 6 → kernel.openTasks pid ≠ -1 → Stdout (kernel.pcb pid).fd

variable {processes : Forest TerminalId Nat} {cur slot : Nat} {frame : CallFrame}

theorem Attended.onScreen (attended : Attended kernel processes) : kernel.OnScreen :=
  attended.mapped.running attended.toConsistent

theorem Attended.running (attended : Attended kernel processes) :
    ∃ cur, findProgramid kernel.cr3 = .done cur := by
  have directory := attended.current
  cases chain : processes.chain kernel.oldTerminal with
  | nil => exact absurd chain ((attended.active _).mp attended.shown)
  | cons leaf older =>
      rw [attended.leaf _ leaf (congrArg List.head? chain)] at directory
      exact ⟨leaf, pageDirectoryOf_findProgramid.mpr directory⟩

/-- `find_terminal` gives the running process the terminal that is shown. -/
theorem Attended.findTerminal (attended : Attended kernel processes)
    (current : findProgramid kernel.cr3 = .done cur) :
    kernel.findTerminal cur = kernel.oldTerminal := by
  obtain ⟨rest, chain⟩ := attended.currentLeaf current
  have newest : (processes.chain kernel.oldTerminal).head? = some cur := congrArg List.head? chain
  have shows := attended.leaf kernel.oldTerminal cur newest
  have low := (attended.range cur ⟨_, head_mem newest⟩).1
  rcases kernel.findTerminal_range cur with absent | ⟨term, found, same⟩
  · exact absurd shows.symm (findTerminal_eq_neg_one.mp absent kernel.oldTerminal)
  · rw [found]
    cases chainTerm : processes.chain term with
    | nil =>
        have unused : ¬ (kernel.terminals term).active ≠ 0 :=
          fun active => (attended.active term).mp active chainTerm
        have zero := attended.idle term (not_not.mp unused)
        omega
    | cons leaf older =>
        have ofTerm : (processes.chain term).head? = some leaf := congrArg List.head? chainTerm
        have leafShows := attended.leaf term leaf ofTerm
        obtain rfl : leaf = cur := Int.natCast_inj.mp (leafShows.symm.trans same.symm)
        rw [processes.owner_unique (head_mem ofTerm) (head_mem newest)]

theorem Attended.stdoutOfCurrent (attended : Attended kernel processes)
    (current : findProgramid kernel.cr3 = .done cur) : Stdout (kernel.pcb cur).fd := by
  obtain ⟨rest, chain⟩ := attended.currentLeaf current
  have member : cur ∈ processes := ⟨kernel.oldTerminal, by rw [chain]; exact List.mem_cons_self ..⟩
  obtain ⟨low, high⟩ := attended.range cur member
  exact attended.stdout cur low high ((attended.live cur low high).mpr member)

theorem Attended.draws (attended : Attended kernel processes)
    (draws : Draws kernel console after) : Attended after processes where
  toChains := by rw [draws.openTasks]; exact attended.toChains
  active term := (draws.active term).trans (attended.active term)
  leaf term pid newest := by rw [draws.programId]; exact attended.leaf term pid newest
  shown := by rw [draws.oldTerminal]; exact (draws.active _).mpr attended.shown
  current := by rw [draws.oldTerminal, draws.programId, draws.cr3]; exact attended.current
  stack := by rw [draws.oldTerminal, draws.programId, draws.tssEsp0]; exact attended.stack
  saved term active other := by
    rw [draws.oldTerminal] at other
    rw [draws.programId, draws.savedCr3]
    exact attended.saved term ((draws.active term).mp active) other
  newterminalFlag := draws.newterminalFlag.trans attended.newterminalFlag
  mapped :=
    { buffer := fun pid term => by
        rw [draws.videoPage, draws.oldTerminal]
        exact attended.mapped.buffer pid term
      cached := draws.tlbVideo.trans attended.mapped.cached }
  idle term unused := by
    rw [draws.programId]
    exact attended.idle term (not_not.mp fun active => (draws.active term).mpr active unused)
  stdout pid low high live := by
    rw [draws.openTasks] at live
    rw [draws.pcb]
    exact attended.stdout pid low high live

theorem Launched.stdout (launched : Launched kernel frame cur slot after) :
    Stdout (after.pcb slot).fd := by
  rw [launched.newFd]
  exact ⟨Nat.one_ne_zero, rfl⟩

/-- Only descriptors 2 to 7 of the parent are closed. -/
theorem Left.stdout {status : Byte} {parent : Nat} (left : Left kernel status cur parent after)
    {pid : Nat} (before : Stdout (kernel.pcb pid).fd) : Stdout (after.pcb pid).fd := by
  rw [left.pcb, Function.update_apply]
  split
  · rename_i same
    subst same
    exact before
  · exact before

theorem Launched.keepsStdout (launched : Launched kernel frame cur slot after)
    (stdout : ∀ pid : Nat, 1 ≤ pid → pid ≤ 6 → kernel.openTasks pid ≠ -1 →
      Stdout (kernel.pcb pid).fd) :
    ∀ pid : Nat, 1 ≤ pid → pid ≤ 6 → after.openTasks pid ≠ -1 → Stdout (after.pcb pid).fd := by
  intro pid low high live
  by_cases new : pid = slot
  · rw [new]
    exact launched.stdout
  · rw [launched.openTasks, Function.update_of_ne new] at live
    rw [launched.otherFd pid new]
    exact stdout pid low high live

theorem Launched.keepsIdle (launched : Launched kernel frame cur slot after)
    (shown : (kernel.terminals kernel.oldTerminal).active ≠ 0)
    (idle : ∀ term, (kernel.terminals term).active = 0 → (kernel.terminals term).programId = 0) :
    ∀ term, (after.terminals term).active = 0 → (after.terminals term).programId = 0 := by
  intro term unused
  rw [launched.terminals, Function.update_apply] at unused ⊢
  split
  · rename_i isShown
    rw [if_pos isShown] at unused
    exact absurd unused shown
  · rename_i other
    rw [if_neg other] at unused
    exact idle term unused

/-- Nobody starts to use a terminal that is not shown. -/
theorem LeftTerminal.idle {target : TerminalId} {irq : IrqFrame} {shown : Kernel}
    (leaving : LeftTerminal { kernel with esp_0 := irq.esp_0, ebp_0 := irq.ebp_0 } cur target shown)
    (active : (kernel.terminals kernel.oldTerminal).active ≠ 0)
    (idle : ∀ term, (kernel.terminals term).active = 0 → (kernel.terminals term).programId = 0) :
    ∀ term, (shown.terminals term).active = 0 → (shown.terminals term).programId = 0 := by
  intro term unused
  rw [leaving.terminals] at unused ⊢
  dsimp only at unused ⊢
  rw [Function.update_apply] at unused ⊢
  split
  · rename_i left
    rw [if_pos left] at unused
    exact absurd unused active
  · rename_i other
    rw [if_neg other] at unused
    exact idle term unused

theorem Attended.step {event : Event} (attended : Attended kernel processes)
    (starts : ShellStarts image kernel event) (stepped : kernel.step image event = some after) :
    ∃ grown, Attended after grown := by
  obtain ⟨grown, consistent, mapped⟩ :=
    mapped_step attended.toConsistent attended.mapped starts stepped
  refine ⟨grown, consistent, mapped, ?_, ?_⟩
  · cases step_effect stepped with
    | refused returned => exact attended.idle
    | quiet quiet other =>
        rw [quiet.terminals]
        exact attended.idle
    | launched returned launched => exact launched.keepsIdle attended.shown attended.idle
    | left left =>
        intro term unused
        rw [left.terminals, Function.update_apply] at unused ⊢
        split
        · rename_i isShown
          rw [if_pos isShown] at unused
          exact absurd unused attended.shown
        · rename_i other
          rw [if_neg other] at unused
          exact attended.idle term unused
    | restarted restarted =>
        rw [restarted.state]
        exact attended.idle
    | @opened irq callFrame tlb cur slot target shown _ different leaving inactive launched =>
        have idle := leaving.idle attended.shown attended.idle
        refine launched.keepsIdle ?_ ?_
        · have isTarget : (shown.openTerminal target).oldTerminal = target := leaving.oldTerminal
          rw [isTarget]
          simp only [openTerminal, Function.update_self]
          exact Nat.one_ne_zero
        · intro term unused
          simp only [openTerminal, Function.update_apply] at unused ⊢
          split
          · rename_i isTarget
            rw [if_pos isTarget] at unused
            cases unused
          · rename_i other
            rw [if_neg other] at unused
            exact idle term unused
    | abandoned different leaving inactive failed =>
        obtain ⟨other, returned⟩ := failed
        exact absurd returned (starts other)
    | resumed different leaving active =>
        rw [resumeTerminal_terminals]
        exact leaving.idle attended.shown attended.idle
  · cases step_effect stepped with
    | refused returned => exact attended.stdout
    | quiet quiet other =>
        intro pid low high live
        rw [quiet.openTasks] at live
        exact quiet.stdout pid (attended.stdout pid low high live)
    | launched returned launched => exact launched.keepsStdout attended.stdout
    | @left status cur parent _ left =>
        intro pid low high live
        rw [left.openTasks, Function.update_apply] at live
        split at live
        · exact absurd rfl live
        · exact left.stdout (attended.stdout pid low high live)
    | restarted restarted =>
        rw [restarted.state]
        exact attended.stdout
    | @opened irq callFrame tlb cur slot target shown _ different leaving inactive launched =>
        refine launched.keepsStdout ?_
        have sameTable : (shown.openTerminal target).openTasks = kernel.openTasks := leaving.openTasks
        have samePcb : (shown.openTerminal target).pcb = kernel.pcb := leaving.pcb
        rw [sameTable, samePcb]
        exact attended.stdout
    | abandoned different leaving inactive failed =>
        obtain ⟨other, returned⟩ := failed
        exact absurd returned (starts other)
    | resumed different leaving active =>
        rw [resumeTerminal_openTasks, resumeTerminal_pcb, leaving.openTasks, leaving.pcb]
        exact attended.stdout

end Kernel

theorem FirstShell.attended {image : Image} {first : Kernel} (started : FirstShell image first) :
    ∃ processes, Attended first processes := by
  obtain ⟨processes, consistent, mapped⟩ := started.mapped
  obtain ⟨memory, frame, slot, launched⟩ := started.launched
  refine ⟨processes, consistent, mapped, ?_, ?_⟩
  · refine launched.keepsIdle ?_ ?_
    · simp [initialTerminal]
    · intro term unused
      simp [initialTerminal]
  · refine launched.keepsStdout ?_
    intro pid low high live
    exact absurd (boot_openTasks memory pid (by omega)) live

end Ece391
