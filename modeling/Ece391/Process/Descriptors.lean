import Ece391.Process.Consistency

namespace Ece391

open Library Kernel

/-! # Descriptor tables of processes that start and halt

`execute` clears the descriptors 2 to 6 of the slot it takes, and `halt` closes
descriptors after it has made the parent the current process.
-/

/-- `open` of each name in turn by the current process. -/
def openAll (image : Image) : List CString → Kernel → Outcome (List Int × Kernel)
  | [], kernel => .done ([], kernel)
  | name :: rest, kernel => do
      let (fd, kernel) ← kernel.sysOpen image name
      let (fds, kernel) ← openAll image rest kernel
      return (fd :: fds, kernel)

section OpenAll

variable {image : Image} {kernel : Kernel} {cur start : Nat}

/-- From a table that is free from `start` on, `open` hands out the descriptors
in order. -/
theorem openAll_consecutive {names : List CString}
    (openable : ∀ name ∈ names, ∃ dentry, Openable image name dentry)
    (current : findProgramid kernel.cr3 = .done cur)
    (free : ∀ i, 2 ≤ i → i ≤ 7 → (((kernel.pcb cur).fd i).flags = 0 ↔ start ≤ i))
    (low : 2 ≤ start) (room : start + names.length ≤ 8) :
    ∃ last, openAll image names kernel =
        .done ((List.range' start names.length).map fun fd : Nat => (fd : Int), last) ∧
      Quiet kernel last ∧
      ∀ i, 2 ≤ i → i ≤ 7 → (((last.pcb cur).fd i).flags = 0 ↔ start + names.length ≤ i) := by
  induction names generalizing kernel start with
  | nil => exact ⟨kernel, rfl, .refl kernel, free⟩
  | cons name rest ih =>
      simp only [List.length_cons] at room
      obtain ⟨dentry, opens⟩ := openable name (List.mem_cons_self ..)
      have found : freeDescriptor (kernel.pcb cur) = some start := by
        refine freeDescriptor_eq_some.mpr ⟨low, by omega, (free start low (by omega)).mpr (by omega), ?_⟩
        intro i iLow below isFree
        have := (free i iLow (by omega)).mp isFree
        omega
      have opened := sysOpen_openable opens current found
      dsimp only at opened
      obtain ⟨next, nextState⟩ : ∃ next : Kernel, next = if dentry.fileType = 0 then
          ((kernel.setPcb cur ((kernel.pcb cur).setFd start
            (describe name dentry ((kernel.pcb cur).fd start)))).rtcWrite 2).2 else
          kernel.setPcb cur ((kernel.pcb cur).setFd start
            (describe name dentry ((kernel.pcb cur).fd start))) := ⟨_, rfl⟩
      have nextCurrent : findProgramid next.cr3 = .done cur := by
        rw [nextState]
        split
        · rw [rtcWrite_cr3]; exact current
        · exact current
      have nextFd : (next.pcb cur).fd = Function.update (kernel.pcb cur).fd start
          (describe name dentry ((kernel.pcb cur).fd start)) := by
        rw [nextState]
        split
        · simp only [rtcWrite_pcb, setPcb, Pcb.setFd, Function.update_self]
        · simp only [setPcb, Pcb.setFd, Function.update_self]
      have nextFree : ∀ i, 2 ≤ i → i ≤ 7 → (((next.pcb cur).fd i).flags = 0 ↔ start + 1 ≤ i) := by
        intro i iLow iHigh
        rw [nextFd, Function.update_apply]
        split
        · rename_i taken
          rw [describe_flags]
          omega
        · rw [free i iLow iHigh]
          omega
      obtain ⟨last, others, quiet, table⟩ :=
        ih (fun other member => openable other (List.mem_cons_of_mem _ member))
          nextCurrent nextFree (by omega) (by omega)
      rw [← nextState] at opened
      refine ⟨last, ?_, (sysOpen_quiet opened).trans quiet, fun i iLow iHigh => ?_⟩
      · simp only [openAll, opened, Outcome.done_bind, others, Outcome.pure_eq, List.length_cons,
          List.range'_succ, List.map_cons]
      · rw [table i iLow iHigh, List.length_cons]
        omega

theorem openAll_run {names : List CString} {fds : List Int} {last : Kernel}
    (opened : openAll image names kernel = .done (fds, last)) :
    (kernelSystem image).run kernel (names.map .sysOpen) = some last := by
  induction names generalizing kernel fds with
  | nil => cases opened; rfl
  | cons name rest ih =>
      obtain ⟨⟨fd, next⟩, first, others⟩ := Outcome.bind_eq_done.mp opened
      obtain ⟨⟨fds, final⟩, remaining, returned⟩ := Outcome.bind_eq_done.mp others
      cases returned
      refine Transitions.run_cons.mpr ⟨next, ?_, ih remaining⟩
      show (kernel.sysOpen image name).toOption.map Prod.snd = some next
      rw [first]
      rfl

end OpenAll

/-- The step creates a process in `slot`. -/
def Creates (image : Image) (kernel : Kernel) (event : Event) (slot : Nat) (next : Kernel) : Prop :=
  match event with
  | .execute command frame => ∃ entry, kernel.execute image command frame = .done (.iret entry, next) ∧
      findProgramid next.cr3 = .done slot
  | .terminalSwitch term irq frame tlb => ∃ entry,
      kernel.keyboardSwitch image term irq frame tlb = .done (.iret entry, next) ∧
        findProgramid next.cr3 = .done slot
  | _ => False

/-- The new process finds 0 and 1 open, 2 to 7 free, and can open six files. -/
structure StartsClean (image : Image) (kernel : Kernel) (slot : Nat) : Prop where
  flags : ∀ fd < NUM_FILE_DESCRIPTOR, ((kernel.pcb slot).fd fd).flags ≠ 0 ↔ fd < 2
  opens : ∀ names : List CString, names.length = 6 →
    (∀ name ∈ names, ∃ dentry, Openable image name dentry) →
    ∃ last, openAll image names kernel = .done ([2, 3, 4, 5, 6, 7], last)

/-- What a step that creates a process does to the slot. -/
theorem Creates.effect {image : Image} {kernel next : Kernel} {event : Event} {slot : Nat}
    (creates : Creates image kernel event slot next) :
    findProgramid next.cr3 = .done slot ∧ 1 ≤ slot ∧ slot ≤ 6 ∧ kernel.openTasks slot = -1 ∧
      (next.pcb slot).fd = initialFd (kernel.pcb slot).fd := by
  cases event with
  | execute command frame =>
      obtain ⟨entry, returned, current⟩ := creates
      rcases execute_eq_done returned with ⟨refused, _⟩ | ⟨_, cur, slot', _, launched⟩
      · cases refused
      · obtain rfl := Outcome.done.inj (launched.cr3.symm.trans current)
        obtain ⟨low, high⟩ := launched.slot_range
        exact ⟨current, low, high, launched.slot_free, launched.newFd⟩
  | terminalSwitch term irq frame tlb =>
      obtain ⟨entry, returned, current⟩ := creates
      rcases terminalSwitch_eq_done returned with
        ⟨ignored, _⟩ | ⟨target, cur, shown, _, _, leaving, ⟨_, started⟩ | ⟨_, resumed⟩⟩
      · cases ignored
      · rcases execute_eq_done started with ⟨refused, _⟩ | ⟨_, cur', slot', _, launched⟩
        · cases refused
        · obtain rfl := Outcome.done.inj (launched.cr3.symm.trans current)
          obtain ⟨low, high⟩ := launched.slot_range
          have free : shown.openTasks slot' = -1 := launched.slot_free
          have fd : (next.pcb slot').fd = initialFd (shown.pcb slot').fd := launched.newFd
          rw [leaving.openTasks] at free
          rw [leaving.pcb] at fd
          exact ⟨current, low, high, free, fd⟩
      · cases resumed
  | halt status => exact creates.elim
  | sysOpen filename => exact creates.elim
  | sysClose fd => exact creates.elim
  | sysRead fd buf nbytes => exact creates.elim

/-- Descriptor 7 is the one that the initialisation loop leaves out. -/
theorem Creates.startsClean_iff {image : Image} {kernel next : Kernel} {event : Event} {slot : Nat}
    (creates : Creates image kernel event slot next) :
    StartsClean image next slot ↔ ((kernel.pcb slot).fd 7).flags = 0 := by
  obtain ⟨current, _, _, _, fd⟩ := creates.effect
  have last : ((next.pcb slot).fd 7).flags = ((kernel.pcb slot).fd 7).flags := by
    rw [fd]; rfl
  constructor
  · intro clean
    by_contra stale
    have set := (clean.flags 7 (by decide)).mp (by rwa [last])
    omega
  · intro free
    have table : ∀ i, i < 8 → (((next.pcb slot).fd i).flags = 0 ↔ 2 ≤ i) := by
      intro i bound
      rw [fd]
      simp only [initialFd]
      split
      · rename_i standard
        simp only [terminalDescriptor, Nat.one_ne_zero, false_iff]
        omega
      · split
        · simp only [true_iff]; omega
        · obtain rfl : i = 7 := by omega
          simp only [free, true_iff]; omega
    refine ⟨fun i bound => ?_, fun names six openable => ?_⟩
    · rw [Ne, table i bound]; omega
    · obtain ⟨final, opened, _⟩ := openAll_consecutive openable current
        (fun i _ high => table i (by omega)) (Nat.le_refl 2) (by omega)
      exact ⟨final, by rw [opened, six]; rfl⟩

/-- A new process starts with a clean table exactly when descriptor 7 of its
slot was free; so all processes of a run do exactly when that is so at each step
that creates one. -/
theorem new_table_clean_iff {image : Image} :
    (∀ kernel event slot next, Creates image kernel event slot next →
      (StartsClean image next slot ↔ ((kernel.pcb slot).fd 7).flags = 0)) ∧
    ∀ first events,
      (kernelSystem image).Respects (fun kernel event => ∀ slot next,
        Creates image kernel event slot next → StartsClean image next slot) first events ↔
      (kernelSystem image).Respects (fun kernel event => ∀ slot next,
        Creates image kernel event slot next → ((kernel.pcb slot).fd 7).flags = 0) first events := by
  refine ⟨fun kernel event slot next creates => creates.startsClean_iff, fun first events => ?_⟩
  apply Transitions.respects_congr
  intro kernel event
  constructor
  · exact fun clean slot next creates => creates.startsClean_iff.mp (clean slot next creates)
  · exact fun free slot next creates => creates.startsClean_iff.mpr (free slot next creates)

theorem new_table_clean_iff_child_shell :
    ∃ kernel event next, Reachable shellImage kernel ∧ Creates shellImage kernel event 2 next ∧
      StartsClean shellImage next 2 := by
  obtain ⟨first, started, launched⟩ :=
    firstShell_exists shellImage_valid zeroedMemory zeroedFrame
  obtain ⟨entry, next, returned, created, _⟩ :=
    (nested_first launched).launched shellImage_valid zeroedFrame (by decide)
  have creates : Creates shellImage first (.execute (some shellCommand) zeroedFrame) 2 next :=
    ⟨entry, returned, created.cr3⟩
  have zeroed : ((first.pcb 2).fd 7).flags = 0 := by
    rw [launched.otherFd 2 (by decide), boot_pcb]
    rfl
  exact ⟨first, _, next, ⟨first, [], started, rfl⟩, creates,
    (new_table_clean_iff.1 first _ 2 next creates).mpr zeroed⟩

theorem halt_leaves {kernel : Kernel} {cur parent : Nat} (status : Byte)
    (current : findProgramid kernel.cr3 = .done cur) (childOf : kernel.openTasks cur = parent)
    (low : 1 ≤ parent) (high : parent ≤ 6) :
    ∃ control after, kernel.halt status = .done (control, after) ∧
      Left kernel status cur parent after := by
  obtain ⟨cr3, directory⟩ := pageDirectoryOf_exists high
  have parentCr3 : findProgramid cr3 = .done parent := pageDirectoryOf_findProgramid.mpr directory
  obtain ⟨control, after, done⟩ : ∃ control after, kernel.halt status = .done (control, after) := by
    simp only [halt, current, Outcome.done_bind, childOf, setProgrampage, directory]
    rw [if_neg (by omega), closeDescriptors_eq (show findProgramid _ = .done parent from parentCr3)
      (by decide) (by decide)]
    exact ⟨_, _, rfl⟩
  refine ⟨control, after, done, ?_⟩
  rcases halt_eq_done done with ⟨other, _, restarted⟩ | ⟨other, next, _, left⟩
  · obtain rfl := Outcome.done.inj (restarted.current.symm.trans current)
    have root := restarted.root
    omega
  · obtain rfl := Outcome.done.inj (left.current.symm.trans current)
    obtain rfl := Int.natCast_inj.mp (left.parentTask.symm.trans childOf)
    exact left

/-- The fields of a descriptor that a process can notice. -/
structure SameDescriptor (left right : FileDescriptor) : Prop where
  flags : left.flags = right.flags
  sysopsPtr : left.sysopsPtr = right.sysopsPtr
  filePosition : left.filePosition = right.filePosition
  fileName : left.fileName = right.fileName

def NoneOpen (fd : Nat → FileDescriptor) : Prop := ∀ i, 2 ≤ i → i ≤ 7 → (fd i).flags = 0

/-- The child is gone: its parent has the table `before`, and it left nothing open. -/
structure CleanExit (before : Nat → FileDescriptor) (kernel : Kernel) (child parent : Nat) :
    Prop where
  parentTable : ∀ i < NUM_FILE_DESCRIPTOR, SameDescriptor ((kernel.pcb parent).fd i) (before i)
  childClosed : NoneOpen (kernel.pcb child).fd

theorem closeFds_same {fd : Nat → FileDescriptor} :
    (∀ i < NUM_FILE_DESCRIPTOR, SameDescriptor (closeFds [2, 3, 4, 5, 6, 7] fd i) (fd i)) ↔
      NoneOpen fd := by
  constructor
  · intro same i low high
    have flags := (same i (by unfold NUM_FILE_DESCRIPTOR; omega)).flags
    have inRange : i ∈ [2, 3, 4, 5, 6, 7] := by simp; omega
    rw [closeFds, if_pos inRange, closeDescriptor] at flags
    split at flags
    · rename_i free; exact free
    · exact flags.symm
  · intro none i bound
    unfold NUM_FILE_DESCRIPTOR at bound
    have same : closeFds [2, 3, 4, 5, 6, 7] fd i = fd i := by
      simp only [closeFds]
      split
      · rename_i inRange
        rw [closeDescriptor, if_pos]
        exact none i (by simp at inRange; omega) (by omega)
      · rfl
    rw [same]
    exact ⟨rfl, rfl, rfl, rfl⟩

/-- The closing loop of `halt` works on the parent's table and never reaches
the child's. -/
theorem Kernel.Left.cleanExit_iff {kernel after : Kernel} {status : Byte} {child parent : Nat}
    {before : Nat → FileDescriptor} (left : Left kernel status child parent after)
    (different : parent ≠ child) (kept : (kernel.pcb parent).fd = before) :
    CleanExit before after child parent ↔ NoneOpen before ∧ NoneOpen (kernel.pcb child).fd := by
  have parentFd : (after.pcb parent).fd = closeFds [2, 3, 4, 5, 6, 7] before := by
    rw [left.pcb, Function.update_self, kept]
  have childFd : (after.pcb child).fd = (kernel.pcb child).fd := by
    rw [left.pcb, Function.update_of_ne (Ne.symm different)]
  constructor
  · rintro ⟨parentTable, childClosed⟩
    rw [parentFd] at parentTable
    rw [childFd] at childClosed
    exact ⟨closeFds_same.mp parentTable, childClosed⟩
  · rintro ⟨parentNone, childNone⟩
    refine ⟨?_, by rwa [childFd]⟩
    rw [parentFd]
    exact closeFds_same.mpr parentNone

/-- A child that halts, in any state of any run: its parent gets the table of
its `execute` call back and the child's files are closed exactly when neither of
them had a descriptor of 2 to 7 open. -/
theorem halt_keeps_parent_files_iff {image : Image} {first : Kernel} {events : List Event}
    {recorded : Recorded} (started : FirstShell image first)
    (starts : (kernelSystem image).Respects (ShellStarts image) first events)
    (ran : (recordedSystem image).run (.begin first) events = some recorded)
    {child parent : Nat} (current : findProgramid recorded.kernel.cr3 = .done child)
    (childOf : recorded.kernel.openTasks child = parent) (notRoot : parent ≠ 0) (status : Byte) :
    ∃ call control after, recorded.createdBy child = some call ∧ call.caller = parent ∧
      recorded.kernel.halt status = .done (control, after) ∧
      (CleanExit call.fd after child parent ↔
        NoneOpen call.fd ∧ NoneOpen (recorded.kernel.pcb child).fd) := by
  obtain ⟨processes, consistent, waiting⟩ := run_consistent started starts ran
  obtain ⟨rest, chain⟩ := consistent.currentLeaf current
  obtain ⟨low, high⟩ := consistent.range child
    ⟨_, by rw [chain]; exact List.mem_cons_self ..⟩
  obtain ⟨call, created, waits⟩ := waiting child parent low high notRoot childOf
  have different := consistent.parent_not_current current low high childOf notRoot
  obtain ⟨term, inside⟩ := consistent.parent_inside low high childOf notRoot
  obtain ⟨parentLow, parentHigh⟩ := consistent.range parent ⟨term, List.mem_of_mem_tail inside⟩
  obtain ⟨control, after, done, left⟩ := halt_leaves status current childOf parentLow parentHigh
  exact ⟨call, control, after, created, waits.caller, done, left.cleanExit_iff different waits.fd⟩

theorem halt_keeps_parent_files_iff_child_shell :
    ∃ (first : Kernel) (events : List Event) (recorded : Recorded), FirstShell shellImage first ∧
      (recordedSystem shellImage).run (.begin first) events = some recorded ∧
      ∃ call control after, recorded.createdBy 2 = some call ∧ call.caller = 1 ∧
        recorded.kernel.halt 0 = .done (control, after) ∧
        (CleanExit call.fd after 2 1 ↔
          NoneOpen call.fd ∧ NoneOpen (recorded.kernel.pcb 2).fd) := by
  obtain ⟨first, started, launched⟩ :=
    firstShell_exists shellImage_valid zeroedMemory zeroedFrame
  obtain ⟨kernel, ran, nested⟩ := nested_shells shellImage_valid launched 1 (by decide)
  obtain ⟨recorded, ranRecorded, rfl⟩ :=
    Recorded.run_exists (show (Recorded.begin first).kernel = first from rfl) ran
  have starts : (kernelSystem shellImage).Respects (ShellStarts shellImage) first
      (List.replicate 1 (.execute (some shellCommand) zeroedFrame)) :=
    ⟨trivial, fun _ _ => trivial⟩
  have childOf : recorded.kernel.openTasks 2 = (1 : Nat) :=
    nested.openTasks 2 (by decide) (by decide)
  exact ⟨first, _, recorded, started, ranRecorded,
    halt_keeps_parent_files_iff started starts ranRecorded nested.current childOf (by decide) 0⟩

theorem run_of_halt {image : Image} {kernel after : Kernel} {status : Byte} {control : Control}
    (done : kernel.halt status = .done (control, after)) :
    (kernelSystem image).run kernel [.halt status] = some after := by
  have stepped : kernel.step image (.halt status) = some after := by
    rw [step, done]
    rfl
  exact Transitions.run_singleton.trans stepped

/-- The first shell opens some of its six descriptors on the shell's own file. -/
theorem opens_own_file {kernel : Kernel} {pid : Nat} (count : Nat) (bound : count ≤ 6)
    (current : findProgramid kernel.cr3 = .done pid) (none : NoneOpen (kernel.pcb pid).fd) :
    ∃ last, (kernelSystem shellImage).run kernel
        (List.replicate count (.sysOpen shellCommand)) = some last ∧ Quiet kernel last ∧
      ∀ i, 2 ≤ i → i ≤ 7 → (((last.pcb pid).fd i).flags = 0 ↔ 2 + count ≤ i) := by
  have openable : ∀ name ∈ List.replicate count shellCommand,
      ∃ dentry, Openable shellImage name dentry := by
    intro name member
    rw [List.eq_of_mem_replicate member]
    exact ⟨_, shellImage_openable⟩
  have free : ∀ i, 2 ≤ i → i ≤ 7 → (((kernel.pcb pid).fd i).flags = 0 ↔ 2 ≤ i) :=
    fun i low high => ⟨fun _ => low, fun _ => none i low high⟩
  obtain ⟨last, opened, quiet, table⟩ := openAll_consecutive openable current free (Nat.le_refl 2)
    (by rw [List.length_replicate]; omega)
  have ran := openAll_run opened
  rw [List.map_replicate] at ran
  rw [List.length_replicate] at table
  exact ⟨last, ran, quiet, table⟩

theorem noneOpen_initialFd {fd : Nat → FileDescriptor} (zeroed : (fd 7).flags = 0) :
    NoneOpen (initialFd fd) := by
  intro i low high
  simp only [initialFd]
  rw [if_neg (by omega)]
  split
  · rfl
  · obtain rfl : i = 7 := by omega
    exact zeroed

/-- A shell with one open file executes a shell that halts at once: the file is
closed. -/
theorem parent_file_closed :
    ∃ (first : Kernel) (events : List Event) (recorded : Recorded) (call : ExecuteCall)
      (control : Control) (after : Kernel), FirstShell shellImage first ∧
      (kernelSystem shellImage).Respects (ShellStarts shellImage) first events ∧
      (recordedSystem shellImage).run (.begin first) events = some recorded ∧
      findProgramid recorded.kernel.cr3 = .done 2 ∧ recorded.kernel.openTasks 2 = 1 ∧
      recorded.createdBy 2 = some call ∧
      recorded.kernel.halt 0 = .done (control, after) ∧ ¬ CleanExit call.fd after 2 1 := by
  obtain ⟨first, started, launched⟩ :=
    firstShell_exists shellImage_valid zeroedMemory zeroedFrame
  have none : NoneOpen (first.pcb 1).fd := by
    rw [launched.newFd, boot_pcb]
    exact noneOpen_initialFd rfl
  obtain ⟨opened, opening, quiet, table⟩ := opens_own_file 1 (by decide) launched.cr3 none
  obtain ⟨entry, kernel, returned, child, nested⟩ :=
    ((nested_first launched).quiet quiet).launched shellImage_valid zeroedFrame (by decide)
  have ran : (kernelSystem shellImage).run first
      [.sysOpen shellCommand, .execute (some shellCommand) zeroedFrame] = some kernel :=
    Transitions.run_append.mpr
      ⟨opened, opening, run_of_execute returned⟩
  have starts : (kernelSystem shellImage).Respects (ShellStarts shellImage) first
      [.sysOpen shellCommand, .execute (some shellCommand) zeroedFrame] :=
    ⟨trivial, fun _ _ => ⟨trivial, fun _ _ => trivial⟩⟩
  obtain ⟨recorded, ranRecorded, rfl⟩ :=
    Recorded.run_exists (show (Recorded.begin first).kernel = first from rfl) ran
  have childOf : recorded.kernel.openTasks 2 = (1 : Nat) :=
    nested.openTasks 2 (by decide) (by decide)
  obtain ⟨_, _, waiting⟩ := run_consistent started starts ranRecorded
  obtain ⟨call, created, waits⟩ := waiting 2 1 (by decide) (by decide) (by decide) childOf
  obtain ⟨control, after, done, left⟩ :=
    halt_leaves 0 nested.current childOf (by decide) (by decide)
  refine ⟨first, _, recorded, call, control, after, started, starts, ranRecorded, nested.current,
    childOf, created, done, fun clean => ?_⟩
  have closed := ((left.cleanExit_iff (by decide) waits.fd).mp clean).1 2 (by decide) (by decide)
  rw [← waits.fd, child.otherFd 1 (by decide)] at closed
  have free := (table 2 (by decide) (by decide)).mp closed
  omega

/-- A shell executes a shell that opens six files and halts; the next one in
that slot finds descriptor 7 taken. -/
theorem stale_descriptor_found :
    ∃ kernel event next, Reachable shellImage kernel ∧ Creates shellImage kernel event 2 next ∧
      ¬ StartsClean shellImage next 2 := by
  obtain ⟨first, started, launched⟩ :=
    firstShell_exists shellImage_valid zeroedMemory zeroedFrame
  obtain ⟨entry, inner, returned, child, nested⟩ :=
    (nested_first launched).launched shellImage_valid zeroedFrame (by decide)
  have none : NoneOpen (inner.pcb 2).fd := by
    rw [child.newFd]
    apply noneOpen_initialFd
    rw [launched.otherFd 2 (by decide), boot_pcb]
    rfl
  obtain ⟨opened, opening, quiet, table⟩ := opens_own_file 6 (by decide) nested.current none
  have nestedOpened := nested.quiet quiet
  have childOf : opened.openTasks 2 = (1 : Nat) := nestedOpened.openTasks 2 (by decide) (by decide)
  obtain ⟨control, outer, done, left⟩ :=
    halt_leaves 0 nestedOpened.current childOf (by decide) (by decide)
  have nestedOuter : Nested 1 outer := by
    refine ⟨left.cr3, left.newterminalFlag.trans nestedOpened.newterminalFlag, ?_⟩
    intro pid low high
    rw [left.openTasks, Function.update_apply, nestedOpened.openTasks pid low high]
    split
    · rename_i freed; rw [freed]; rfl
    · rename_i other
      by_cases root : pid ≤ 1
      · rw [if_pos (by omega), if_pos root]
      · rw [if_neg (by omega), if_neg root]
  obtain ⟨newEntry, next, returnedNext, reused, _⟩ :=
    nestedOuter.launched shellImage_valid zeroedFrame (by decide)
  have reachable : Reachable shellImage outer := by
    refine ⟨first, .execute (some shellCommand) zeroedFrame ::
      (List.replicate 6 (.sysOpen shellCommand) ++ [.halt 0]), started, ?_⟩
    rw [← List.singleton_append, Transitions.run_append]
    refine ⟨inner, run_of_execute returned, ?_⟩
    exact Transitions.run_append.mpr
      ⟨opened, opening, run_of_halt done⟩
  have creates : Creates shellImage outer (.execute (some shellCommand) zeroedFrame) 2 next :=
    ⟨newEntry, returnedNext, reused.cr3⟩
  refine ⟨outer, _, next, reachable, creates, fun clean => ?_⟩
  have free := creates.startsClean_iff.mp clean
  rw [left.pcb, Function.update_of_ne (by decide)] at free
  have beyond := (table 7 (by decide) (by decide)).mp free
  omega

end Ece391
