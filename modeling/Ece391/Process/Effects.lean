import Ece391.Process.Step

namespace Ece391

/-! # What each step can do

One inversion theorem for each system call says everything its successful
outcomes change; the invariants are derived from these alone.
-/

namespace Kernel

variable {image : Image} {kernel after : Kernel} {frame : CallFrame} {control : Control}

theorem searchSlot_eq_some {openTasks : Nat → Int} {remaining i slot : Nat} :
    (searchSlot openTasks remaining i).2 = some slot ↔
      i ≤ slot ∧ slot < i + remaining ∧ openTasks slot = -1 ∧
        ∀ j, i ≤ j → j < slot → openTasks j ≠ -1 := by
  induction remaining generalizing i with
  | zero => simp only [searchSlot, reduceCtorEq, false_iff]; omega
  | succ remaining ih =>
      simp only [searchSlot]
      split
      · rename_i free
        simp only [Option.some.injEq]
        constructor
        · rintro rfl
          exact ⟨Nat.le_refl _, by omega, free, fun j low high => by omega⟩
        · rintro ⟨low, _, _, first⟩
          by_contra different
          exact first i (Nat.le_refl _) (by omega) free
      · rename_i live
        dsimp only
        rw [ih]
        constructor
        · rintro ⟨low, high, free, first⟩
          refine ⟨by omega, by omega, free, fun j jLow jHigh => ?_⟩
          by_cases here : j = i
          · exact here ▸ live
          · exact first j (by omega) jHigh
        · rintro ⟨low, high, free, first⟩
          have moved : slot ≠ i := fun here => live (here ▸ free)
          exact ⟨by omega, by omega, free, fun j jLow jHigh => first j (by omega) jHigh⟩

/-- The slot found is the first free one of 1 to 7. -/
theorem findSlot_eq_some {openTasks : Nat → Int} {slot : Nat} :
    (findSlot openTasks).2 = some slot ↔
      1 ≤ slot ∧ slot ≤ 7 ∧ openTasks slot = -1 ∧ ∀ j, 1 ≤ j → j < slot → openTasks j ≠ -1 := by
  simp only [findSlot]
  rw [searchSlot_eq_some]
  constructor <;> rintro ⟨low, high, rest⟩ <;> exact ⟨low, by omega, rest⟩

theorem pageLoader_eq_done {file : CString} {slot : Nat}
    (loaded : kernel.pageLoader image file slot = .done after) :
    ∃ cr3 userPage, findProgramid cr3 = .done slot ∧
      after = { kernel.loadCr3 cr3 with userPage } := by
  unfold pageLoader at loaded
  obtain ⟨found, lookup, rest⟩ := Outcome.bind_eq_done.mp loaded
  cases found with
  | none => cases rest
  | some dentry =>
      obtain ⟨mapped, set, remaining⟩ := Outcome.bind_eq_done.mp rest
      obtain ⟨cr3, directory, rfl⟩ := setProgrampage_eq_done.mp set
      refine ⟨cr3, ?_⟩
      dsimp only at remaining
      split at remaining
      · cases remaining
      split at remaining
      · cases remaining
      · cases remaining
        exact ⟨_, pageDirectoryOf_findProgramid.mpr directory, rfl⟩

/-- Neither what is on the screens nor which of them a process writes to has changed. -/
structure SameDisplay (kernel after : Kernel) : Prop where
  videoPage : after.videoPage = kernel.videoPage
  video : after.video = kernel.video
  screenX : after.screenX = kernel.screenX
  screenY : after.screenY = kernel.screenY

theorem SameDisplay.trans {middle : Kernel} (first : SameDisplay kernel middle)
    (second : SameDisplay middle after) : SameDisplay kernel after where
  videoPage := second.videoPage.trans first.videoPage
  video := second.video.trans first.video
  screenX := second.screenX.trans first.screenX
  screenY := second.screenY.trans first.screenY

/-- The effect of an `execute` that starts a program in `slot` for the process
`cur`. -/
structure Launched (kernel : Kernel) (frame : CallFrame) (cur slot : Nat) (after : Kernel) :
    Prop where
  current : findProgramid kernel.cr3 = .done cur
  found : (findSlot kernel.openTasks).2 = some slot
  openTasks : after.openTasks = Function.update kernel.openTasks slot
    (if kernel.newterminalFlag = 1 then 0 else cur)
  newterminalFlag : after.newterminalFlag =
    if kernel.newterminalFlag = 1 then 0 else kernel.newterminalFlag
  terminals : after.terminals = Function.update kernel.terminals kernel.oldTerminal
    { kernel.terminals kernel.oldTerminal with programId := slot }
  oldTerminal : after.oldTerminal = kernel.oldTerminal
  tasks : after.tasks = ((kernel.claimSlot cur slot).scheduleLaunch cur slot).tasks
  cr3 : findProgramid after.cr3 = .done slot
  tssEsp0 : after.tssEsp0 = stackTop slot
  currStatus : after.currStatus = kernel.currStatus
  newFd : (after.pcb slot).fd = initialFd (kernel.pcb slot).fd
  otherFd : ∀ pid, pid ≠ slot → (after.pcb pid).fd = (kernel.pcb pid).fd
  callerStack : cur ≠ 0 → (after.pcb cur).esp = frame.esp ∧ (after.pcb cur).ebp = frame.ebp
  otherStack : ∀ pid, pid ≠ cur →
    (after.pcb pid).esp = (kernel.pcb pid).esp ∧ (after.pcb pid).ebp = (kernel.pcb pid).ebp
  display : SameDisplay kernel after
  tlbVideo : after.tlbVideo = kernel.videoPage slot

theorem pageTableOf_eq {cr3 : Cr3} {programId : Nat}
    (found : findProgramid cr3 = .done programId) : pageTableOf cr3 = programId := by
  rw [pageTableOf, found]
  rfl

theorem Launched.slot_range {cur slot : Nat} (launched : Launched kernel frame cur slot after) :
    1 ≤ slot ∧ slot ≤ 6 :=
  ⟨(findSlot_eq_some.mp launched.found).1, findProgramid_lt launched.cr3⟩

theorem Launched.slot_free {cur slot : Nat} (launched : Launched kernel frame cur slot after) :
    kernel.openTasks slot = -1 := (findSlot_eq_some.mp launched.found).2.2.1

/-- The state that `launch` leaves, up to the bytes of the user page. -/
theorem launch_inv {fileName savedArgument : CString} {entryPoint : Word}
    (done : kernel.launch image fileName savedArgument entryPoint frame = .done (control, after)) :
    ∃ cur slot shellEntry cr3 userPage, control = .iret entryPoint ∧
      findProgramid kernel.cr3 = .done cur ∧ (findSlot kernel.openTasks).2 = some slot ∧
      findProgramid cr3 = .done slot ∧
      after = enterProgram { loadCr3 (saveCaller (setUpPcb (scheduleLaunch (claimSlot
        { kernel with firstShellEntryPoint := shellEntry } cur slot) cur slot) slot savedArgument)
          cur frame) cr3 with userPage } cur slot := by
  unfold launch at done
  obtain ⟨cur, current, rest⟩ := Outcome.bind_eq_done.mp done
  dsimp only at rest
  -- storing the entry point changes none of the fields the later stages read
  obtain ⟨shellEntry, stored⟩ : ∃ shellEntry, (if cur = 0 then
      { kernel with firstShellEntryPoint := entryPoint } else kernel) =
      { kernel with firstShellEntryPoint := shellEntry } := by
    split <;> exact ⟨_, rfl⟩
  rw [stored] at rest
  cases found : (findSlot kernel.openTasks).2 with
  | none => simp [found] at rest
  | some slot =>
      simp only [found] at rest
      obtain ⟨loaded, loading, entered⟩ := Outcome.bind_eq_done.mp rest
      obtain ⟨cr3, userPage, directory, rfl⟩ := pageLoader_eq_done loading
      cases entered
      exact ⟨cur, slot, shellEntry, cr3, userPage, rfl, current, rfl, directory, rfl⟩

theorem launch_eq_done {fileName savedArgument : CString} {entryPoint : Word}
    (done : kernel.launch image fileName savedArgument entryPoint frame = .done (control, after)) :
    control = .iret entryPoint ∧ ∃ cur slot, Launched kernel frame cur slot after := by
  obtain ⟨cur, slot, shellEntry, cr3, userPage, left, current, found, directory, rfl⟩ :=
    launch_inv done
  refine ⟨left, cur, slot, current, found, rfl, rfl, rfl, rfl, rfl, directory, rfl, rfl,
    ?_, ?_, ?_, ?_, ⟨rfl, rfl, rfl, rfl⟩, congrArg kernel.videoPage (pageTableOf_eq directory)⟩
  · simp only [enterProgram, loadCr3, saveCaller, setUpPcb, claimSlot, scheduleLaunch,
      Function.update_self]
    by_cases kernelCall : cur = 0
    · simp only [kernelCall, ↓reduceIte, Function.update_self, initialPcb]
    · simp only [kernelCall, ↓reduceIte, Function.update_apply]
      split
      · rename_i same; simp only [same, ↓reduceIte, initialPcb]
      · rfl
  · intro pid other
    simp only [enterProgram, loadCr3, saveCaller, setUpPcb, claimSlot, scheduleLaunch,
      Function.update_of_ne other]
    by_cases kernelCall : cur = 0
    · simp only [kernelCall, ↓reduceIte, Function.update_of_ne other]
    · simp only [kernelCall, ↓reduceIte, Function.update_apply]
      split
      · rename_i same; simp only [← same, if_neg other]
      · rfl
  · intro userCall
    simp only [enterProgram, loadCr3, saveCaller, setUpPcb, claimSlot, scheduleLaunch,
      if_neg userCall, Function.update_apply]
    split
    · rename_i same; simp only [← same, ↓reduceIte, and_self]
    · simp only [↓reduceIte, and_self]
  · intro pid other
    simp only [enterProgram, loadCr3, saveCaller, setUpPcb, claimSlot, scheduleLaunch,
      Function.update_apply]
    by_cases kernelCall : cur = 0
    · simp only [kernelCall, ↓reduceIte, Function.update_apply]
      split
      · rename_i same; simp only [same, initialPcb, and_self]
      · simp only [and_self]
    · simp only [kernelCall, ↓reduceIte, Function.update_of_ne other, Function.update_apply]
      split
      · rename_i same
        subst same
        simp only [if_neg other, initialPcb, and_self]
      · simp only [and_self]

/-- `execute` returns -1, or it launches what the command names. -/
theorem execute_inv {command : Option CString}
    (done : kernel.execute image command frame = .done (control, after)) :
    (control = .returns (-1) ∧ after = kernel) ∨ ∃ fileName savedArgument entryPoint,
      kernel.launch image fileName savedArgument entryPoint frame = .done (control, after) := by
  cases command with
  | none => cases done
  | some command =>
      obtain ⟨parsed, _, rest⟩ := Outcome.bind_eq_done.mp done
      cases parsed with
      | none => cases rest; exact .inl ⟨rfl, rfl⟩
      | some words =>
          obtain ⟨entry, _, remaining⟩ := Outcome.bind_eq_done.mp rest
          cases entry with
          | none => cases remaining; exact .inl ⟨rfl, rfl⟩
          | some entry => exact .inr ⟨_, _, entry, remaining⟩

theorem execute_eq_done {command : Option CString}
    (done : kernel.execute image command frame = .done (control, after)) :
    (control = .returns (-1) ∧ after = kernel) ∨
      ∃ entry cur slot, control = .iret entry ∧ Launched kernel frame cur slot after := by
  rcases execute_inv done with refused | ⟨_, _, entry, launching⟩
  · exact .inl refused
  · obtain ⟨left, cur, slot, launched⟩ := launch_eq_done launching
    exact .inr ⟨entry, cur, slot, left, launched⟩

/-- A descriptor after `close` was called on it. -/
def closeDescriptor (descriptor : FileDescriptor) : FileDescriptor :=
  if descriptor.flags = 0 then descriptor else closed descriptor

theorem sysClose_eq {pid fd : Nat} (current : findProgramid kernel.cr3 = .done pid)
    (low : 2 ≤ fd) (high : fd ≤ 7) :
    ∃ value, kernel.sysClose fd = .done (value, kernel.setPcb pid
      ((kernel.pcb pid).setFd fd (closeDescriptor ((kernel.pcb pid).fd fd)))) := by
  simp only [sysClose]
  rw [if_neg (by omega), current]
  simp only [Outcome.done_bind, Int.toNat_natCast, closeDescriptor]
  split
  · refine ⟨-1, ?_⟩
    simp only [Outcome.pure_eq, setPcb, Pcb.setFd, Function.update_eq_self]
  · exact ⟨0, rfl⟩

/-- The descriptors of a table after `close` was called on each of `fds`. -/
def closeFds (fds : List Nat) (fd : Nat → FileDescriptor) (i : Nat) : FileDescriptor :=
  if i ∈ fds then closeDescriptor (fd i) else fd i

/-- The closing loop acts on the current process alone. -/
theorem closeDescriptors_eq {fds : List Nat} {pid : Nat}
    (current : findProgramid kernel.cr3 = .done pid) (range : ∀ fd ∈ fds, 2 ≤ fd ∧ fd ≤ 7)
    (distinct : fds.Nodup) :
    closeDescriptors fds kernel = .done (kernel.setPcb pid
      { kernel.pcb pid with fd := closeFds fds (kernel.pcb pid).fd }) := by
  induction fds generalizing kernel with
  | nil =>
      have untouched : closeFds [] (kernel.pcb pid).fd = (kernel.pcb pid).fd := by
        funext i; simp [closeFds]
      simp only [closeDescriptors, untouched, setPcb, Function.update_eq_self]
  | cons fd rest ih =>
      obtain ⟨low, high⟩ := range fd (by simp)
      obtain ⟨value, closing⟩ := sysClose_eq current low high
      obtain ⟨fresh, restDistinct⟩ := List.nodup_cons.mp distinct
      simp only [closeDescriptors, closing, Outcome.done_bind]
      rw [ih (by exact current) (fun other member => range other (by simp [member])) restDistinct]
      simp only [setPcb, Function.update_self, Function.update_idem, Pcb.setFd]
      congr 4
      funext i
      by_cases here : i = fd
      · subst here
        simp only [closeFds, if_neg fresh, Function.update_self, List.mem_cons_self, if_pos]
      · simp only [closeFds, Function.update_of_ne here, List.mem_cons, here, false_or]

/-- The effect of a `halt` that leaves for a parent. -/
structure Left (kernel : Kernel) (status : Byte) (cur parent : Nat) (after : Kernel) : Prop where
  current : findProgramid kernel.cr3 = .done cur
  parentTask : kernel.openTasks cur = parent
  notRoot : parent ≠ 0
  openTasks : after.openTasks = Function.update kernel.openTasks cur (-1)
  terminals : after.terminals = Function.update kernel.terminals kernel.oldTerminal
    { kernel.terminals kernel.oldTerminal with programId := parent }
  newterminalFlag : after.newterminalFlag = kernel.newterminalFlag
  oldTerminal : after.oldTerminal = kernel.oldTerminal
  tasks : after.tasks = (kernel.scheduleHalt cur parent).tasks
  currStatus : after.currStatus = status.toNat
  cr3 : findProgramid after.cr3 = .done parent
  tssEsp0 : after.tssEsp0 = stackTop parent
  pcb : after.pcb = Function.update kernel.pcb parent
    { kernel.pcb parent with fd := closeFds [2, 3, 4, 5, 6, 7] (kernel.pcb parent).fd }
  display : SameDisplay kernel after
  tlbVideo : after.tlbVideo = kernel.videoPage parent

/-- The effect of a `halt` of a root process, which starts again. -/
structure Restarted (kernel : Kernel) (status : Byte) (cur : Nat) (after : Kernel) : Prop where
  current : findProgramid kernel.cr3 = .done cur
  root : kernel.openTasks cur = 0
  state : after = { kernel with
    currStatus := status.toNat, tasks := (kernel.scheduleHalt cur 0).tasks }

theorem halt_eq_done {status : Byte} (done : kernel.halt status = .done (control, after)) :
    (∃ cur, control = .iret kernel.firstShellEntryPoint ∧ Restarted kernel status cur after) ∨
      ∃ cur parent, control = .haltRetLabel (kernel.pcb parent).esp (kernel.pcb parent).ebp ∧
        Left kernel status cur parent after := by
  unfold halt at done
  obtain ⟨cur, current, rest⟩ := Outcome.bind_eq_done.mp done
  dsimp only at rest
  by_cases root : kernel.openTasks cur = 0
  · rw [if_pos root] at rest
    cases rest
    exact .inl ⟨cur, rfl, current, root, by rw [root]; rfl⟩
  · rw [if_neg root] at rest
    obtain ⟨mapped, set, remaining⟩ := Outcome.bind_eq_done.mp rest
    obtain ⟨cr3, directory, rfl⟩ := setProgrampage_eq_done.mp set
    have range : 0 ≤ kernel.openTasks cur := by
      by_contra negative
      have absent := pageDirectoryOf_eq_none.mpr (.inl (Int.lt_of_not_ge negative))
      rw [directory] at absent
      cases absent
    obtain ⟨parent, parentTask⟩ := Int.eq_ofNat_of_zero_le range
    rw [parentTask] at directory remaining
    have parentCr3 : findProgramid cr3 = .done parent :=
      pageDirectoryOf_findProgramid.mpr directory
    rw [closeDescriptors_eq (show findProgramid _ = .done parent from parentCr3) (by decide) (by decide)] at remaining
    simp only [Outcome.done_bind, Outcome.pure_eq, Int.toNat_natCast, Outcome.done.injEq,
      Prod.mk.injEq] at remaining
    obtain ⟨rfl, rfl⟩ := remaining
    refine .inr ⟨cur, parent, ?_, ?_⟩
    · simp only [setPcb, Function.update_self]; rfl
    · refine ⟨current, parentTask, by omega, rfl, rfl, rfl, rfl, ?_, rfl, parentCr3, rfl, rfl,
        ⟨rfl, rfl, rfl, rfl⟩, congrArg kernel.videoPage (pageTableOf_eq parentCr3)⟩
      rfl

/-- The effect of saving the shown terminal and showing `term` instead. -/
structure LeftTerminal (kernel : Kernel) (cur : Nat) (term : TerminalId) (after : Kernel) :
    Prop where
  current : findProgramid kernel.cr3 = .done cur
  terminals : after.terminals = Function.update kernel.terminals kernel.oldTerminal
    { kernel.terminals kernel.oldTerminal with
      cr3 := kernel.cr3, esp := kernel.esp_0, ebp := kernel.ebp_0, kernelEsp := kernel.tssEsp0
      programId := cur, x := kernel.screenX, y := kernel.screenY }
  oldTerminal : after.oldTerminal = term
  openTasks : after.openTasks = kernel.openTasks
  newterminalFlag : after.newterminalFlag = kernel.newterminalFlag
  tasks : after.tasks = kernel.tasks
  currentTaskIdx : after.currentTaskIdx = kernel.currentTaskIdx
  cr3 : after.cr3 = kernel.cr3
  tssEsp0 : after.tssEsp0 = kernel.tssEsp0
  currStatus : after.currStatus = kernel.currStatus
  pcb : after.pcb = kernel.pcb
  videoPage : after.videoPage = (kernel.nonVideoMapping cur kernel.oldTerminal).videoPage
  tlbVideo : after.tlbVideo = kernel.tlbVideo
  screenX : after.screenX = kernel.screenX
  screenY : after.screenY = kernel.screenY

theorem leaveTerminal_eq_done {term : TerminalId} {tlb : TlbUse}
    (done : kernel.leaveTerminal term tlb = .done after) :
    ∃ cur, LeftTerminal kernel cur term after := by
  unfold leaveTerminal saveTerminal at done
  obtain ⟨saved, saving, rest⟩ := Outcome.bind_eq_done.mp done
  obtain ⟨cur, current, stored⟩ := Outcome.bind_eq_done.mp saving
  cases stored
  cases rest
  exact ⟨cur, current, rfl, rfl, rfl, rfl, rfl, rfl, rfl, rfl, rfl, rfl, rfl, rfl, rfl, rfl⟩

/-- A `terminal_switch` is ignored, starts a terminal or comes back to one. -/
theorem terminalSwitch_eq_done {term : Int} {tlb : TlbUse}
    (done : kernel.terminalSwitch image term frame tlb = .done (control, after)) :
    (control = .returns 0 ∧ after = kernel) ∨
      ∃ (target : TerminalId) (cur : Nat) (left : Kernel), target ≠ kernel.oldTerminal ∧
        (target : Int) = term ∧ LeftTerminal kernel cur target left ∧
        (((left.terminals target).active = 0 ∧
            (left.openTerminal target).execute image (some shellCommand) frame =
              .done (control, after)) ∨
          ((left.terminals target).active ≠ 0 ∧
            (control, after) = left.resumeTerminal target tlb)) := by
  unfold terminalSwitch at done
  split at done
  · rename_i range
    dsimp only at done
    split at done
    · cases done; exact .inl ⟨rfl, rfl⟩
    · rename_i different
      obtain ⟨left, leaving, rest⟩ := Outcome.bind_eq_done.mp done
      obtain ⟨cur, leftTerminal⟩ := leaveTerminal_eq_done leaving
      refine .inr ⟨_, cur, left, Ne.symm different, ?_, leftTerminal, ?_⟩
      · exact Int.toNat_of_nonneg range.1
      · split at rest
        · rename_i inactive; exact .inl ⟨inactive, rest⟩
        · rename_i active
          cases rest
          exact .inr ⟨active, rfl⟩
  · cases done; exact .inl ⟨rfl, rfl⟩

/-- The effect of an `open` that takes the descriptor `fd` of the process `cur`. -/
structure TakesDescriptor (image : Image) (kernel : Kernel) (filename : CString) (cur fd : Nat)
    (dentry : Dentry) (after : Kernel) : Prop where
  nonempty : filename.char 0 ≠ 0
  current : findProgramid kernel.cr3 = .done cur
  free : freeDescriptor (kernel.pcb cur) = some fd
  looking : readDentryByName image filename = .done (some dentry)
  state : ∃ taken : Kernel, taken = kernel.setPcb cur ((kernel.pcb cur).setFd fd
      (describe filename dentry ((kernel.pcb cur).fd fd))) ∧
    (after = taken ∨ after = (taken.rtcWrite 2).2)

theorem TakesDescriptor.pcb {filename : CString} {cur fd : Nat} {dentry : Dentry}
    (opens : TakesDescriptor image kernel filename cur fd dentry after) :
    after.pcb = (kernel.setPcb cur ((kernel.pcb cur).setFd fd
      (describe filename dentry ((kernel.pcb cur).fd fd)))).pcb := by
  obtain ⟨taken, rfl, rfl | rfl⟩ := opens.state
  · rfl
  · exact rtcWrite_pcb 2

/-- An `open` has done nothing, or it has taken the lowest free descriptor, for
which a type it does not know makes it return -1 all the same. -/
theorem sysOpen_eq_done {filename : CString} {value : Int}
    (opened : kernel.sysOpen image filename = .done (value, after)) :
    (value = -1 ∧ after = kernel) ∨ ∃ cur fd dentry,
      TakesDescriptor image kernel filename cur fd dentry after ∧
        value = if dentry.fileType > 2 then (-1 : Int) else fd := by
  by_cases nonempty : filename.char 0 = 0
  · rw [sysOpen, if_pos nonempty] at opened
    cases opened
    exact .inl ⟨rfl, rfl⟩
  have unfolded := opened
  rw [sysOpen, if_neg nonempty] at unfolded
  obtain ⟨cur, current, rest⟩ := Outcome.bind_eq_done.mp unfolded
  obtain ⟨found, looking, remaining⟩ := Outcome.bind_eq_done.mp rest
  cases found with
  | none =>
      cases remaining
      exact .inl ⟨rfl, rfl⟩
  | some dentry =>
      cases free : freeDescriptor (kernel.pcb cur) with
      | none =>
          simp only [free] at remaining
          cases remaining
          exact .inl ⟨rfl, rfl⟩
      | some fd =>
          by_cases unknown : dentry.fileType > 2
          · simp only [free, if_pos unknown] at remaining
            cases remaining
            exact .inr ⟨cur, fd, dentry, ⟨nonempty, current, free, looking, _, rfl, .inl rfl⟩,
              (if_pos unknown).symm⟩
          · have openable : Openable image filename dentry :=
              ⟨nonempty, looking, Nat.le_of_not_lt unknown⟩
            rw [sysOpen_openable openable current free] at opened
            cases opened
            refine .inr ⟨cur, fd, dentry, ⟨nonempty, current, free, looking, _, rfl, ?_⟩,
              (if_neg unknown).symm⟩
            split
            · exact .inr rfl
            · exact .inl rfl

/-- A `close` has done nothing, or it has closed a descriptor of the process. -/
theorem sysClose_eq_done {fd value : Int} (done : kernel.sysClose fd = .done (value, after)) :
    (value = -1 ∧ after = kernel) ∨ ∃ cur, 2 ≤ fd ∧ findProgramid kernel.cr3 = .done cur ∧
      value = 0 ∧ after = kernel.setPcb cur
        ((kernel.pcb cur).setFd fd.toNat (closed ((kernel.pcb cur).fd fd.toNat))) := by
  unfold sysClose at done
  split at done
  · cases done
    exact .inl ⟨rfl, rfl⟩
  rename_i inside
  obtain ⟨cur, current, rest⟩ := Outcome.bind_eq_done.mp done
  dsimp only at rest
  split at rest
  · cases rest
    exact .inl ⟨rfl, rfl⟩
  · cases rest
    exact .inr ⟨cur, by omega, current, rfl, rfl⟩

/-- Everything that a `read` through descriptor `fd` of the process `cur` can do
to the kernel. -/
inductive ReadEffect (kernel : Kernel) (cur : Nat) (fd : Int) : Kernel → Prop
  | same : ReadEffect kernel cur fd kernel
  | moved (filePosition : Nat) : ReadEffect kernel cur fd (kernel.setPcb cur
      ((kernel.pcb cur).setFd fd.toNat { (kernel.pcb cur).fd fd.toNat with filePosition }))
  | listed (accepted : ¬ (fd < 0 ∨ fd > 7 ∨ fd = 1 ∨ ((kernel.pcb cur).fd fd.toNat).flags = 0))
      (directory : ((kernel.pcb cur).fd fd.toNat).sysopsPtr = .directoryOps)
      (currentDirIndex : Nat) : ReadEffect kernel cur fd { kernel with currentDirIndex }
  | ticked : ReadEffect kernel cur fd { kernel with rtcInterruptFlag := 0 }

theorem readFile_effect {cur : Nat} {fd bytes value : Int} {buf result : Option (Nat → Byte)}
    (done : kernel.readFile image cur fd.toNat buf bytes = .done (value, result, after)) :
    ReadEffect kernel cur fd after := by
  unfold readFile at done
  dsimp only at done
  split at done
  · cases done
  obtain ⟨found, _, rest⟩ := Outcome.bind_eq_done.mp done
  cases found with
  | none =>
      cases rest
      exact .same
  | some dentry =>
      dsimp only at rest
      split at rest
      · cases rest
        exact .same
      · cases rest
        exact .moved _

theorem sysRead_effect {fd nbytes value : Int} {buf result : Option (Nat → Byte)}
    (done : kernel.sysRead image fd buf nbytes = .done (value, result, after)) :
    ∃ cur, findProgramid kernel.cr3 = .done cur ∧ ReadEffect kernel cur fd after := by
  unfold sysRead at done
  obtain ⟨cur, current, rest⟩ := Outcome.bind_eq_done.mp done
  refine ⟨cur, current, ?_⟩
  dsimp only at rest
  split at rest
  · cases rest
    exact .same
  rename_i accepted
  split at rest
  · exact readFile_effect rest
  · rename_i directory
    unfold readDirectory at rest
    split at rest
    · cases rest
      exact .listed accepted directory 0
    · split at rest
      · cases rest
        exact .listed accepted directory _
      · cases rest
      · cases rest
  · obtain ⟨⟨ticked, read⟩, reading, returned⟩ := Outcome.bind_eq_done.mp rest
    cases returned
    unfold rtcRead at reading
    split at reading
    · cases reading
    · cases reading
      exact .ticked
  · cases rest
  · cases rest
  · cases rest

/-- Descriptor 1 is open on the terminal. -/
def Stdout (fd : Nat → FileDescriptor) : Prop :=
  (fd 1).flags ≠ 0 ∧ (fd 1).sysopsPtr = .terminalOps

/-- The effect of a step that leaves the process structure alone and touches no
descriptors but those of the current process. -/
structure Quiet (kernel after : Kernel) : Prop where
  openTasks : after.openTasks = kernel.openTasks
  newterminalFlag : after.newterminalFlag = kernel.newterminalFlag
  terminals : after.terminals = kernel.terminals
  oldTerminal : after.oldTerminal = kernel.oldTerminal
  tasks : after.tasks = kernel.tasks
  currentTaskIdx : after.currentTaskIdx = kernel.currentTaskIdx
  cr3 : after.cr3 = kernel.cr3
  tssEsp0 : after.tssEsp0 = kernel.tssEsp0
  currStatus : after.currStatus = kernel.currStatus
  stack : ∀ pid, (after.pcb pid).esp = (kernel.pcb pid).esp ∧
    (after.pcb pid).ebp = (kernel.pcb pid).ebp
  otherFd : ∀ pid, findProgramid kernel.cr3 ≠ .done pid →
    (after.pcb pid).fd = (kernel.pcb pid).fd
  display : SameDisplay kernel after
  tlbVideo : after.tlbVideo = kernel.tlbVideo
  stdout : ∀ pid, Stdout (kernel.pcb pid).fd → Stdout (after.pcb pid).fd

theorem Quiet.refl (kernel : Kernel) : Quiet kernel kernel :=
  ⟨rfl, rfl, rfl, rfl, rfl, rfl, rfl, rfl, rfl, fun _ => ⟨rfl, rfl⟩, fun _ _ => rfl,
      ⟨rfl, rfl, rfl, rfl⟩, rfl, fun _ => id⟩

theorem Quiet.trans {middle : Kernel} (first : Quiet kernel middle) (second : Quiet middle after) :
    Quiet kernel after where
  openTasks := second.openTasks.trans first.openTasks
  newterminalFlag := second.newterminalFlag.trans first.newterminalFlag
  terminals := second.terminals.trans first.terminals
  oldTerminal := second.oldTerminal.trans first.oldTerminal
  tasks := second.tasks.trans first.tasks
  currentTaskIdx := second.currentTaskIdx.trans first.currentTaskIdx
  cr3 := second.cr3.trans first.cr3
  tssEsp0 := second.tssEsp0.trans first.tssEsp0
  currStatus := second.currStatus.trans first.currStatus
  stack pid :=
    ⟨(second.stack pid).1.trans (first.stack pid).1, (second.stack pid).2.trans (first.stack pid).2⟩
  otherFd pid other := by
    have still : findProgramid middle.cr3 ≠ .done pid := by rwa [first.cr3]
    exact (second.otherFd pid still).trans (first.otherFd pid other)
  display := first.display.trans second.display
  tlbVideo := second.tlbVideo.trans first.tlbVideo
  stdout pid before := second.stdout pid (first.stdout pid before)

/-- Storing to a descriptor of the current process is quiet. -/
theorem Quiet.ofSetFd {cur fd : Nat} {descriptor : FileDescriptor}
    (current : findProgramid kernel.cr3 = .done cur)
    (keeps : fd = 1 → Stdout (kernel.pcb cur).fd →
      descriptor.flags ≠ 0 ∧ descriptor.sysopsPtr = .terminalOps) :
    Quiet kernel (kernel.setPcb cur ((kernel.pcb cur).setFd fd descriptor)) := by
  refine ⟨rfl, rfl, rfl, rfl, rfl, rfl, rfl, rfl, rfl, fun pid => ?_, fun pid other => ?_,
    ⟨rfl, rfl, rfl, rfl⟩, rfl, fun pid before => ?_⟩
  · by_cases same : pid = cur
    · subst same
      simp only [setPcb, Pcb.setFd, Function.update_self, and_self]
    · simp only [setPcb, Function.update_of_ne same, and_self]
  · have different : pid ≠ cur := fun same => other (same ▸ current)
    simp only [setPcb, Function.update_of_ne different]
  · by_cases same : pid = cur
    · subst same
      simp only [setPcb, Pcb.setFd, Function.update_self, Stdout]
      by_cases one : fd = 1
      · subst one
        rw [Function.update_self]
        exact keeps rfl before
      · rw [Function.update_of_ne (Ne.symm one)]
        exact before
    · simp only [setPcb, Function.update_of_ne same]
      exact before

/-- What only the drivers of the RTC and of the directory use. -/
theorem Quiet.ofDrivers (kernel : Kernel) (rtcRegA rtcRegB : Byte)
    (rtcInterruptFlag currentDirIndex : Nat) :
    Quiet kernel { kernel with rtcRegA, rtcRegB, rtcInterruptFlag, currentDirIndex } :=
  ⟨rfl, rfl, rfl, rfl, rfl, rfl, rfl, rfl, rfl, fun _ => ⟨rfl, rfl⟩, fun _ _ => rfl,
    ⟨rfl, rfl, rfl, rfl⟩, rfl, fun _ => id⟩

theorem rtcWrite_quiet (kernel : Kernel) (freq : Int) : Quiet kernel (kernel.rtcWrite freq).2 := by
  unfold rtcWrite
  split
  · exact .refl kernel
  · dsimp only
    split
    · exact .refl kernel
    · exact .ofDrivers kernel _ _ kernel.rtcInterruptFlag kernel.currentDirIndex

theorem sysOpen_quiet {filename : CString} {value : Int}
    (opened : kernel.sysOpen image filename = .done (value, after)) : Quiet kernel after := by
  rcases sysOpen_eq_done opened with ⟨_, rfl⟩ | ⟨cur, fd, dentry, opens, _⟩
  · exact .refl _
  have low := (freeDescriptor_eq_some.mp opens.free).1
  have takes : Quiet kernel (kernel.setPcb cur ((kernel.pcb cur).setFd fd
      (describe filename dentry ((kernel.pcb cur).fd fd)))) :=
    .ofSetFd opens.current fun one => by omega
  obtain ⟨taken, rfl, rfl | rfl⟩ := opens.state
  · exact takes
  · exact takes.trans (rtcWrite_quiet _ 2)

theorem sysClose_quiet {fd value : Int} (done : kernel.sysClose fd = .done (value, after)) :
    Quiet kernel after := by
  rcases sysClose_eq_done done with ⟨_, rfl⟩ | ⟨cur, low, current, _, rfl⟩
  · exact .refl _
  · exact .ofSetFd current fun one => by omega

theorem sysRead_quiet {fd nbytes value : Int} {buf result : Option (Nat → Byte)}
    (done : kernel.sysRead image fd buf nbytes = .done (value, result, after)) :
    Quiet kernel after := by
  obtain ⟨cur, current, effect⟩ := sysRead_effect done
  cases effect with
  | same => exact .refl kernel
  | moved filePosition => exact .ofSetFd current fun one stdout => one ▸ stdout
  | listed accepted directory currentDirIndex =>
      exact .ofDrivers kernel kernel.rtcRegA kernel.rtcRegB kernel.rtcInterruptFlag currentDirIndex
  | ticked => exact .ofDrivers kernel kernel.rtcRegA kernel.rtcRegB 0 kernel.currentDirIndex

/-- Everything a step can do.  `abandoned` is the new terminal whose shell did
not load, the only case that `ShellStarts` rules out. -/
inductive StepEffect (image : Image) (kernel : Kernel) : Event → Kernel → Prop
  | refused {command : Option CString} {frame : CallFrame}
      (returned : kernel.execute image command frame = .done (.returns (-1), kernel)) :
      StepEffect image kernel (.execute command frame) kernel
  | quiet {event : Event} {after : Kernel} (quiet : Quiet kernel after)
      (other : ∀ command frame, event ≠ .execute command frame) :
      StepEffect image kernel event after
  | launched {command : Option CString} {frame : CallFrame} {entry : Word} {cur slot : Nat}
      {after : Kernel}
      (returned : kernel.execute image command frame = .done (.iret entry, after))
      (launched : Launched kernel frame cur slot after) :
      StepEffect image kernel (.execute command frame) after
  | left {status : Byte} {cur parent : Nat} {after : Kernel}
      (left : Left kernel status cur parent after) : StepEffect image kernel (.halt status) after
  | restarted {status : Byte} {cur : Nat} {after : Kernel}
      (restarted : Restarted kernel status cur after) :
      StepEffect image kernel (.halt status) after
  | opened {irq : IrqFrame} {frame : CallFrame} {tlb : TlbUse} {cur slot : Nat}
      {target : TerminalId} {shown after : Kernel} (different : target ≠ kernel.oldTerminal)
      (leaving : LeftTerminal { kernel with esp_0 := irq.esp_0, ebp_0 := irq.ebp_0 } cur target shown)
      (inactive : (shown.terminals target).active = 0)
      (launched : Launched (shown.openTerminal target) frame cur slot after) :
      StepEffect image kernel (.terminalSwitch target irq frame tlb) after
  | abandoned {irq : IrqFrame} {frame : CallFrame} {tlb : TlbUse} {cur : Nat}
      {target : TerminalId} {shown : Kernel} (different : target ≠ kernel.oldTerminal)
      (leaving : LeftTerminal { kernel with esp_0 := irq.esp_0, ebp_0 := irq.ebp_0 } cur target shown)
      (inactive : (shown.terminals target).active = 0)
      (failed : ∃ after, kernel.keyboardSwitch image target irq frame tlb =
        .done (.returns (-1), after)) :
      StepEffect image kernel (.terminalSwitch target irq frame tlb) (shown.openTerminal target)
  | resumed {irq : IrqFrame} {frame : CallFrame} {tlb : TlbUse} {cur : Nat}
      {target : TerminalId} {shown : Kernel} (different : target ≠ kernel.oldTerminal)
      (leaving : LeftTerminal { kernel with esp_0 := irq.esp_0, ebp_0 := irq.ebp_0 } cur target shown)
      (active : (shown.terminals target).active ≠ 0) :
      StepEffect image kernel (.terminalSwitch target irq frame tlb)
        (shown.resumeTerminal target tlb).2

theorem step_effect {event : Event} (stepped : kernel.step image event = some after) :
    StepEffect image kernel event after := by
  cases event with
  | execute command frame =>
      obtain ⟨⟨control, next⟩, returned, rfl⟩ := Option.map_eq_some_iff.mp stepped
      have done := Outcome.toOption_eq_some.mp returned
      rcases execute_eq_done done with ⟨rfl, rfl⟩ | ⟨entry, cur, slot, rfl, launched⟩
      · exact .refused done
      · exact .launched done launched
  | halt status =>
      obtain ⟨⟨control, next⟩, returned, rfl⟩ := Option.map_eq_some_iff.mp stepped
      rcases halt_eq_done (Outcome.toOption_eq_some.mp returned) with
        ⟨cur, _, restarted⟩ | ⟨cur, parent, _, left⟩
      · exact .restarted restarted
      · exact .left left
  | terminalSwitch term irq frame tlb =>
      obtain ⟨⟨control, next⟩, returned, rfl⟩ := Option.map_eq_some_iff.mp stepped
      have done := Outcome.toOption_eq_some.mp returned
      rcases terminalSwitch_eq_done done with
        ⟨_, rfl⟩ | ⟨target, cur, shown, different, rfl, leaving, ⟨inactive, started⟩ | ⟨active, resumed⟩⟩
      · exact .quiet
          ⟨rfl, rfl, rfl, rfl, rfl, rfl, rfl, rfl, rfl, fun _ => ⟨rfl, rfl⟩, fun _ _ => rfl,
      ⟨rfl, rfl, rfl, rfl⟩, rfl, fun _ => id⟩ nofun
      · rcases execute_eq_done started with ⟨rfl, rfl⟩ | ⟨entry, cur', slot, rfl, launched⟩
        · exact .abandoned different leaving inactive ⟨_, done⟩
        · have same : cur' = cur := by
            have shownCr3 : findProgramid shown.cr3 = .done cur' := launched.current
            rw [leaving.cr3, leaving.current] at shownCr3
            exact (Outcome.done.inj shownCr3).symm
          subst same
          exact .opened different leaving inactive launched
      · obtain ⟨rfl, rfl⟩ := Prod.mk.inj resumed
        exact .resumed different leaving active
  | sysOpen filename =>
      obtain ⟨⟨value, next⟩, returned, rfl⟩ := Option.map_eq_some_iff.mp stepped
      exact .quiet (sysOpen_quiet (Outcome.toOption_eq_some.mp returned)) nofun
  | sysClose fd =>
      obtain ⟨⟨value, next⟩, returned, rfl⟩ := Option.map_eq_some_iff.mp stepped
      exact .quiet (sysClose_quiet (Outcome.toOption_eq_some.mp returned)) nofun
  | sysRead fd buf nbytes =>
      obtain ⟨⟨value, result, next⟩, returned, rfl⟩ := Option.map_eq_some_iff.mp stepped
      exact .quiet (sysRead_quiet (Outcome.toOption_eq_some.mp returned)) nofun

end Kernel

end Ece391
