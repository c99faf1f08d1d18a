import Ece391.Terminal.Attended

namespace Ece391

open Library Kernel

/-! # Consoles across a switch

`save_terminal` maps the video page of the process to the backing buffer before
`clear` runs, so each byte that `clear` stores reaches the screen through the
cached entry or the copy just saved through the new one.
-/

/-- What `clear` stores at a byte of the video page. -/
def blankByte (offset : Nat) : Byte := if offset % 2 = 0 then 32 else ATTRIB

def CELL_BYTES : Nat := 2 * (NUM_ROWS * NUM_COLS)

namespace Kernel

variable {image : Image} {kernel shown after : Kernel} {processes : Forest TerminalId Nat}
  {frame : CallFrame} {irq : IrqFrame} {tlb : TlbUse} {target : TerminalId} {cur : Nat}

/-- What a switch to `target` does to the consoles. -/
structure Switches (kernel : Kernel) (target : TerminalId) (tlb : TlbUse) (after : Kernel) : Prop where
  different : target ≠ kernel.oldTerminal
  oldTerminal : after.oldTerminal = target
  active : ∀ term, (after.terminals term).active ≠ 0 ↔
    (kernel.terminals term).active ≠ 0 ∨ term = target
  left : after.consoleOf kernel.oldTerminal =
    { kernel.shownConsole with cells := (after.consoleOf kernel.oldTerminal).cells }
  leftCells : ∀ offset < MEM_4KB, (after.consoleOf kernel.oldTerminal).cells offset =
    if offset < CELL_BYTES ∧ tlb.clear offset = false then blankByte offset
    else kernel.shownConsole.cells offset
  others : ∀ term, term ≠ kernel.oldTerminal → term ≠ target →
    after.consoleOf term = kernel.consoleOf term
  resumed : (kernel.terminals target).active ≠ 0 →
    after.shownConsole = { kernel.consoleOf target with cells := after.shownConsole.cells } ∧
      ∀ offset < MEM_4KB, after.shownConsole.cells offset = (kernel.consoleOf target).cells offset
  opened : (kernel.terminals target).active = 0 →
    after.shownConsole = { kernel.consoleOf target with
      cells := after.shownConsole.cells, x := kernel.screenX, y := kernel.screenY } ∧
      ∀ offset < CELL_BYTES, tlb.clear offset = true →
        after.shownConsole.cells offset = blankByte offset

/-- `save_terminal` copies the screen and then turns the page of the process to
the copy. -/
theorem saveTerminal_video {saved : Kernel} (onScreen : kernel.OnScreen) (low : 1 ≤ cur)
    (high : cur ≤ 6) (current : findProgramid kernel.cr3 = .done cur)
    (saves : kernel.saveTerminal kernel.oldTerminal tlb.save = .done saved) :
    saved.video = Function.update kernel.video (.termBuffer kernel.oldTerminal) (fun offset =>
        if offset < MEM_4KB then kernel.video .screen offset
        else kernel.video (.termBuffer kernel.oldTerminal) offset) ∧
      ∀ cached : Bool, saved.videoFrame cached =
        if cached then .screen else .termBuffer kernel.oldTerminal := by
  obtain ⟨pid, found, stored⟩ := Outcome.bind_eq_done.mp saves
  obtain rfl : pid = cur := Outcome.done.inj (found.symm.trans current)
  cases stored
  constructor
  · have frame : ∀ offset, kernel.videoFrame (tlb.save offset) = .screen := fun _ => onScreen _
    simp only [nonVideoMapping, saveVideo]
    refine congrArg _ (funext fun offset => ?_)
    rw [← frame offset]
    rfl
  · intro cached
    cases cached with
    | true => exact onScreen true
    | false =>
        have table := pageTableOf_eq current
        have renamed : 1 ≤ (pid : Int) ∧ (pid : Int) ≤ 6 ∧ True := ⟨by omega, by omega, trivial⟩
        simp only [videoFrame, Bool.false_eq_true, if_false, nonVideoMapping, saveVideo, setTerminal,
          table]
        exact if_pos renamed

theorem leaveTerminal_video (onScreen : kernel.OnScreen) (low : 1 ≤ cur) (high : cur ≤ 6)
    (current : findProgramid kernel.cr3 = .done cur)
    (leaves : kernel.leaveTerminal target tlb = .done shown) :
    (∀ offset, shown.video .screen offset =
      if offset < CELL_BYTES ∧ tlb.clear offset = true then blankByte offset
      else kernel.video .screen offset) ∧
    (∀ offset < MEM_4KB, shown.video (.termBuffer kernel.oldTerminal) offset =
      if offset < CELL_BYTES ∧ tlb.clear offset = false then blankByte offset
      else kernel.video .screen offset) ∧
    ∀ term, term ≠ kernel.oldTerminal →
      shown.video (.termBuffer term) = kernel.video (.termBuffer term) := by
  obtain ⟨saved, saves, cleared⟩ := Outcome.bind_eq_done.mp leaves
  obtain ⟨savedVideo, savedFrame⟩ := saveTerminal_video onScreen low high current saves
  have shownVideo : ∀ frame offset, shown.video frame offset =
      if offset < CELL_BYTES ∧ saved.videoFrame (tlb.clear offset) = frame then blankByte offset
      else saved.video frame offset := by
    cases cleared
    exact fun _ _ => rfl
  refine ⟨fun offset => ?_, fun offset inside => ?_, fun term other => funext fun offset => ?_⟩
  · rw [shownVideo, savedFrame, savedVideo]
    cases tlb.clear offset <;> simp
  · rw [shownVideo, savedFrame, savedVideo, Function.update_self, if_pos inside]
    cases tlb.clear offset <;> simp
  · rw [shownVideo, savedFrame, savedVideo]
    have different : VideoFrame.termBuffer kernel.oldTerminal ≠ .termBuffer term :=
      fun same => other (VideoFrame.termBuffer.inj same).symm
    cases tlb.clear offset <;> simp [different, Ne.symm different]

/-- What both ways to show another terminal leave of the state after `clear`. -/
structure Arrives (shown : Kernel) (target : TerminalId) (after : Kernel) : Prop where
  oldTerminal : after.oldTerminal = target
  terminals : ∀ term, term ≠ target → after.terminals term = shown.terminals term
  buffers : ∀ term, after.video (.termBuffer term) = shown.video (.termBuffer term)
  lineBuffer : (after.terminals target).lineBuffer = (shown.terminals target).lineBuffer
  bufferI : (after.terminals target).bufferI = (shown.terminals target).bufferI
  active : (after.terminals target).active ≠ 0

theorem Launched.arrives {slot : Nat} (launched : Launched (shown.openTerminal target) frame cur slot after)
    (isShown : shown.oldTerminal = target) : Arrives shown target after := by
  have target' : (shown.openTerminal target).oldTerminal = target := isShown
  have terminals := launched.terminals
  rw [target'] at terminals
  refine ⟨launched.oldTerminal.trans target', ?_, ?_, ?_, ?_, ?_⟩
  · intro term other
    rw [terminals, Function.update_of_ne other]
    exact Function.update_of_ne other ..
  · intro term
    rw [launched.display.video]
    rfl
  · rw [terminals, Function.update_self]
    simp only [openTerminal, Function.update_self]
  · rw [terminals, Function.update_self]
    simp only [openTerminal, Function.update_self]
  · rw [terminals, Function.update_self]
    simp only [openTerminal, Function.update_self]
    exact Nat.one_ne_zero

/-- The screen of a terminal that is resumed is its backing buffer. -/
theorem resumeTerminal_screen (onScreen : (shown.resumeTerminal target tlb).2.OnScreen) :
    (shown.resumeTerminal target tlb).2.video = fun video offset =>
      if offset < MEM_4KB ∧ video = .screen then shown.video (.termBuffer target) offset
      else shown.video video offset := by
  let loaded := ((shown.videoMapping (shown.terminals target).programId).setCursor
    (shown.terminals target).x (shown.terminals target).y).loadCr3 (shown.terminals target).cr3
  have loadedOnScreen : loaded.OnScreen := fun cached => onScreen cached
  exact storeVideo_screen loadedOnScreen tlb.restore

theorem resumeTerminal_arrives (isShown : shown.oldTerminal = target)
    (active : (shown.terminals target).active ≠ 0)
    (onScreen : (shown.resumeTerminal target tlb).2.OnScreen) :
    Arrives shown target (shown.resumeTerminal target tlb).2 where
  oldTerminal := (resumeTerminal_oldTerminal ..).trans isShown
  terminals term _ := by rw [resumeTerminal_terminals]
  buffers term := by
    rw [resumeTerminal_screen onScreen]
    simp
  lineBuffer := by rw [resumeTerminal_terminals]
  bufferI := by rw [resumeTerminal_terminals]
  active := by rwa [resumeTerminal_terminals]

/-- The switch marks the terminal it shows as used, and no other. -/
theorem Arrives.activeIff {base : Kernel} (arrives : Arrives shown target after)
    (leaving : LeftTerminal base cur target shown) (term : TerminalId) :
    (after.terminals term).active ≠ 0 ↔ (base.terminals term).active ≠ 0 ∨ term = target := by
  by_cases isTarget : term = target
  · subst isTarget
    exact ⟨fun _ => .inr rfl, fun _ => arrives.active⟩
  · rw [arrives.terminals term isTarget, leaving.terminals, Function.update_apply]
    constructor
    · intro active
      split at active
      · rename_i left
        exact .inl (left ▸ active)
      · exact .inl active
    · intro active
      have before := active.resolve_right isTarget
      split
      · rename_i left
        exact left ▸ before
      · exact before

/-- The consoles of the terminals that are not shown after a switch. -/
theorem Arrives.hidden {base : Kernel} (arrives : Arrives shown target after)
    (leaving : LeftTerminal base cur target shown) (different : target ≠ base.oldTerminal)
    (onScreen : base.OnScreen) (low : 1 ≤ cur) (high : cur ≤ 6)
    (leaves : base.leaveTerminal target tlb = .done shown) :
    (after.consoleOf base.oldTerminal =
      { base.shownConsole with cells := (after.consoleOf base.oldTerminal).cells }) ∧
    (∀ offset < MEM_4KB, (after.consoleOf base.oldTerminal).cells offset =
      if offset < CELL_BYTES ∧ tlb.clear offset = false then blankByte offset
      else base.shownConsole.cells offset) ∧
    ∀ term, term ≠ base.oldTerminal → term ≠ target → after.consoleOf term = base.consoleOf term := by
  obtain ⟨_, leftBuffer, otherBuffers⟩ :=
    leaveTerminal_video onScreen low high leaving.current leaves
  have leftHidden : base.oldTerminal ≠ after.oldTerminal := by
    rw [arrives.oldTerminal]
    exact Ne.symm different
  refine ⟨?_, ?_, ?_⟩
  · rw [consoleOf_hidden leftHidden, shownConsole_eq, arrives.terminals _ (Ne.symm different),
      leaving.terminals, Function.update_self]
  · intro offset inside
    rw [consoleOf_hidden leftHidden, shownConsole_eq]
    dsimp only
    rw [arrives.buffers, leftBuffer offset inside]
  · intro term notLeft notTarget
    have hidden : term ≠ after.oldTerminal := by rwa [arrives.oldTerminal]
    rw [consoleOf_hidden hidden, consoleOf_hidden notLeft, arrives.terminals term notTarget,
      leaving.terminals, Function.update_of_ne notLeft, arrives.buffers, otherBuffers term notLeft]

theorem Attended.switches (attended : Attended kernel processes)
    (starts : ShellStarts image kernel (.terminalSwitch target irq frame tlb))
    (different : target ≠ kernel.oldTerminal)
    (stepped : kernel.step image (.terminalSwitch target irq frame tlb) = some after) :
    Switches kernel target tlb after := by
  obtain ⟨grown, settled⟩ := attended.step starts stepped
  have afterOnScreen := settled.onScreen
  obtain ⟨⟨control, _⟩, returned, rfl⟩ := Option.map_eq_some_iff.mp stepped
  have done := Outcome.toOption_eq_some.mp returned
  have switching := done
  rw [keyboardSwitch_other different] at switching
  obtain ⟨shown, leaves, rest⟩ := Outcome.bind_eq_done.mp switching
  obtain ⟨cur, leaving⟩ := leaveTerminal_eq_done leaves
  obtain ⟨chain, isLeaf⟩ := attended.currentLeaf leaving.current
  obtain ⟨low, high⟩ := attended.range cur
    ⟨kernel.oldTerminal, by rw [isLeaf]; exact List.mem_cons_self ..⟩
  let base : Kernel := { kernel with esp_0 := irq.esp_0, ebp_0 := irq.ebp_0 }
  have baseOnScreen : base.OnScreen := attended.onScreen
  obtain ⟨screen, _, otherBuffers⟩ :=
    leaveTerminal_video baseOnScreen low high leaving.current leaves
  have sameTarget : shown.terminals target = kernel.terminals target := by
    rw [leaving.terminals, Function.update_of_ne different]
  by_cases active : (shown.terminals target).active = 0
  · rw [if_pos active] at rest
    rcases execute_eq_done rest with ⟨rfl, _⟩ | ⟨entry, caller, slot, rfl, launched⟩
    · exact absurd done (starts _)
    have arrives := launched.arrives leaving.oldTerminal
    obtain ⟨left, leftCells, others⟩ :=
      arrives.hidden leaving different baseOnScreen low high leaves
    have used := arrives.activeIff leaving
    refine ⟨different, arrives.oldTerminal, used, left, leftCells, others,
      ?_, ?_⟩
    · intro already
      rw [sameTarget] at active
      exact absurd active already
    · intro _
      have cursorX : _ = kernel.screenX := launched.display.screenX.trans leaving.screenX
      have cursorY : _ = kernel.screenY := launched.display.screenY.trans leaving.screenY
      rw [shownConsole_eq, consoleOf_hidden different, arrives.oldTerminal, arrives.lineBuffer,
        arrives.bufferI, sameTarget, cursorX, cursorY]
      refine ⟨rfl, fun offset inside cleared => ?_⟩
      have sameVideo : _ = shown.video := launched.display.video
      dsimp only
      rw [sameVideo, screen, if_pos ⟨inside, cleared⟩]
  · rw [if_neg active] at rest
    obtain rfl := congrArg Prod.snd (Outcome.done.inj rest)
    have arrives := resumeTerminal_arrives leaving.oldTerminal active afterOnScreen
    obtain ⟨left, leftCells, others⟩ :=
      arrives.hidden leaving different baseOnScreen low high leaves
    have used := arrives.activeIff leaving
    refine ⟨different, arrives.oldTerminal, used, left, leftCells, others,
      ?_, ?_⟩
    · intro _
      have cursor : (shown.resumeTerminal target tlb).2.screenX = (shown.terminals target).x ∧
          (shown.resumeTerminal target tlb).2.screenY = (shown.terminals target).y := ⟨rfl, rfl⟩
      have isShown : (shown.resumeTerminal target tlb).2.shownConsole =
          { kernel.consoleOf target with
            cells := (shown.resumeTerminal target tlb).2.shownConsole.cells } := by
        rw [shownConsole_eq, consoleOf_hidden different, arrives.oldTerminal, arrives.lineBuffer,
          arrives.bufferI, cursor.1, cursor.2, sameTarget]
      refine ⟨isShown, fun offset inside => ?_⟩
      rw [shownConsole_eq, consoleOf_hidden different]
      have restored := congrFun (congrFun (resumeTerminal_screen afterOnScreen) .screen) offset
      rw [if_pos ⟨inside, rfl⟩, otherBuffers target different] at restored
      exact restored
    · intro unused
      rw [sameTarget] at active
      exact absurd unused active

/-- Any other step of the kernel leaves every console as it is. -/
theorem step_consoles {event : Event}
    (stays : ∀ (target : TerminalId) irq frame tlb,
      event = .terminalSwitch target irq frame tlb → target = kernel.oldTerminal)
    (stepped : kernel.step image event = some after) :
    after.oldTerminal = kernel.oldTerminal ∧
      (∀ term, after.consoleOf term = kernel.consoleOf term) ∧
      ∀ term, (after.terminals term).active = (kernel.terminals term).active := by
  have keeps : ∀ next : Kernel, next.oldTerminal = kernel.oldTerminal → SameDisplay kernel next →
      (∀ term, (next.terminals term).x = (kernel.terminals term).x ∧
        (next.terminals term).y = (kernel.terminals term).y ∧
        (next.terminals term).lineBuffer = (kernel.terminals term).lineBuffer ∧
        (next.terminals term).bufferI = (kernel.terminals term).bufferI) →
      ∀ term, next.consoleOf term = kernel.consoleOf term := by
    intro next sameTerminal display records term
    obtain ⟨x, y, lineBuffer, bufferI⟩ := records term
    by_cases isShown : term = kernel.oldTerminal
    · subst isShown
      have shows := shownConsole_eq next
      rw [shownConsole, sameTerminal] at shows
      rw [shows, lineBuffer, bufferI, display.video, display.screenX, display.screenY]
      exact (shownConsole_eq kernel).symm
    · have hidden : term ≠ next.oldTerminal := by rwa [sameTerminal]
      rw [consoleOf_hidden hidden, consoleOf_hidden isShown, x, y, lineBuffer, bufferI, display.video]
  cases step_effect stepped with
  | refused returned => exact ⟨rfl, fun _ => rfl, fun _ => rfl⟩
  | quiet quiet other =>
      refine ⟨quiet.oldTerminal, keeps _ quiet.oldTerminal quiet.display fun term => ?_, fun term => ?_⟩
      · rw [quiet.terminals]
        exact ⟨rfl, rfl, rfl, rfl⟩
      · rw [quiet.terminals]
  | launched returned launched =>
      refine ⟨launched.oldTerminal, keeps _ launched.oldTerminal launched.display fun term => ?_,
        fun term => ?_⟩
      · rw [launched.terminals, Function.update_apply]
        split
        · rename_i isShown; rw [isShown]; exact ⟨rfl, rfl, rfl, rfl⟩
        · exact ⟨rfl, rfl, rfl, rfl⟩
      · rw [launched.terminals, Function.update_apply]
        split
        · rename_i isShown; rw [isShown]
        · rfl
  | left left =>
      refine ⟨left.oldTerminal, keeps _ left.oldTerminal left.display fun term => ?_, fun term => ?_⟩
      · rw [left.terminals, Function.update_apply]
        split
        · rename_i isShown; rw [isShown]; exact ⟨rfl, rfl, rfl, rfl⟩
        · exact ⟨rfl, rfl, rfl, rfl⟩
      · rw [left.terminals, Function.update_apply]
        split
        · rename_i isShown; rw [isShown]
        · rfl
  | restarted restarted =>
      rw [restarted.state]
      exact ⟨rfl, fun _ => rfl, fun _ => rfl⟩
  | opened different leaving inactive launched => exact absurd (stays _ _ _ _ rfl) different
  | abandoned different leaving inactive failed => exact absurd (stays _ _ _ _ rfl) different
  | resumed different leaving active => exact absurd (stays _ _ _ _ rfl) different

end Kernel

end Ece391
