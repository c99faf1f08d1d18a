import Ece391.Interrupt.Effects

namespace Ece391

open Library Kernel

/-! # Calls that are not interrupted

Steps taken in one go add up to the whole call: the interrupted kernel does
what `execute` and `halt` do when no interrupt comes.
-/

variable {image : Image} {machine next final : Machine} {thread : Thread}

theorem step_advance (here : machine.threads machine.kernel.oldTerminal = some thread)
    (advanced : machine.advance image thread = .done next) :
    (machineSystem image).step machine .advance = some next := by
  simp only [machineSystem, Machine.step, here, advanced]
  rfl

theorem step_call {request : Request}
    (here : machine.threads machine.kernel.oldTerminal = some thread)
    (user : thread.point = .user) (called : machine.call image thread request = .done next) :
    (machineSystem image).step machine (.call request) = some next := by
  simp only [machineSystem, Machine.step, here, user, called]
  rfl

theorem step_interrupt {term : Int} {irq : IrqFrame} {frame : CallFrame} {tlb : TlbUse}
    {scratch : Word} (here : machine.threads machine.kernel.oldTerminal = some thread)
    (running : thread.point ≠ .lost)
    (interrupted : machine.interrupt image thread term irq frame tlb scratch = some next) :
    (machineSystem image).step machine (.interrupt term irq frame tlb scratch) = some next := by
  simp only [machineSystem, Machine.step, here]
  exact interrupted

@[simp] theorem Machine.become_become (machine : Machine) (kernel after : Kernel)
    (thread moved : Thread) (same : kernel.oldTerminal = machine.kernel.oldTerminal) :
    (machine.become kernel thread).become after moved = machine.become after moved := by
  simp only [Machine.become, same, Function.update_idem]

/-- The machine takes some number of steps on the shown terminal. -/
def Advances (image : Image) (machine final : Machine) : Prop :=
  ∃ count, (machineSystem image).run machine (List.replicate count .advance) = some final

theorem Advances.refl (machine : Machine) : Advances image machine machine := ⟨0, rfl⟩

theorem Advances.head (here : machine.threads machine.kernel.oldTerminal = some thread)
    (advanced : machine.advance image thread = .done next) (rest : Advances image next final) :
    Advances image machine final := by
  obtain ⟨count, ran⟩ := rest
  exact ⟨count + 1, Transitions.run_cons.mpr ⟨next, step_advance here advanced, ran⟩⟩

theorem Advances.trans {middle : Machine} (first : Advances image machine middle)
    (second : Advances image middle final) : Advances image machine final := by
  obtain ⟨early, ranEarly⟩ := first
  obtain ⟨late, ranLate⟩ := second
  refine ⟨early + late, ?_⟩
  rw [← List.replicate_append_replicate, Transitions.run_append]
  exact ⟨middle, ranEarly, ranLate⟩

/-- The search loop comes to the slot that `searchSlot` finds. -/
theorem advances_search {locals : ExecuteLocals} {remaining i slot : Nat}
    (here : machine.threads machine.kernel.oldTerminal = some thread)
    (searches : thread.point = .search locals i) (length : i + remaining = 8)
    (found : (searchSlot machine.kernel.openTasks remaining i).2 = some slot) :
    Advances image machine
      (machine.become machine.kernel { thread with point := .claim locals slot }) := by
  induction remaining generalizing machine thread i with
  | zero => cases found
  | succ remaining ih =>
      simp only [searchSlot] at found
      split at found
      · rename_i free
        obtain rfl := Option.some.inj found
        refine .head here ?_ (.refl _)
        simp only [Machine.advance, searches, if_pos free]
      · rename_i taken
        have more : i ≠ 7 := by
          intro last
          obtain rfl : remaining = 0 := by omega
          cases found
        let onward := machine.become machine.kernel { thread with point := .search locals (i + 1) }
        have advanced : machine.advance image thread = .done onward := by
          simp only [Machine.advance, searches, if_neg taken, if_neg more, onward]
        have there : onward.threads onward.kernel.oldTerminal =
            some { thread with point := .search locals (i + 1) } := Function.update_self ..
        have later := ih there rfl (by omega) found
        rw [Machine.become_become machine machine.kernel _ _ _ rfl] at later
        exact .head here advanced later

/-- The stages from one on. -/
def LaunchStage.onward : LaunchStage → List LaunchStage
  | schedule => [schedule, setUp, save, load, enter]
  | setUp => [setUp, save, load, enter]
  | save => [save, load, enter]
  | load => [load, enter]
  | enter => [enter]

theorem LaunchStage.onward_of_next {stage following : LaunchStage}
    (next : stage.next = some following) : stage.onward = stage :: following.onward := by
  cases stage <;> cases next <;> rfl

/-- The shown terminal with its new process in user mode. -/
def Machine.entered (machine : Machine) (kernel : Kernel) (thread : Thread) : Machine :=
  { machine with
    kernel
    threads := Function.update
      (fun term => (machine.threads term).map (Thread.overrun · thread.pid))
      machine.kernel.oldTerminal (some { thread with point := .user }) }

theorem advances_enter {locals : ExecuteLocals} {after : Kernel}
    (here : machine.threads machine.kernel.oldTerminal = some thread)
    (launches : thread.point = .launching locals .enter)
    (through : Outcome.through (launchStage image locals thread.pid) LaunchStage.enter.onward
      machine.kernel = .done after) :
    Advances image machine (machine.entered after thread) := by
  cases through
  refine .head here ?_ (.refl _)
  simp only [Machine.advance, launches, Machine.launching]
  rfl

theorem advances_stage {locals : ExecuteLocals} {stage following : LaunchStage} {after : Kernel}
    (next : stage.next = some following)
    (later : ∀ machine thread, machine.threads machine.kernel.oldTerminal = some thread →
      thread.point = .launching locals following →
      Outcome.through (launchStage image locals thread.pid) following.onward machine.kernel =
        .done after →
      Advances image machine (machine.entered after thread))
    (here : machine.threads machine.kernel.oldTerminal = some thread)
    (launches : thread.point = .launching locals stage)
    (through : Outcome.through (launchStage image locals thread.pid) stage.onward
      machine.kernel = .done after) :
    Advances image machine (machine.entered after thread) := by
  rw [LaunchStage.onward_of_next next] at through
  obtain ⟨middle, staged, rest⟩ := Outcome.bind_eq_done.mp through
  have sameTerminal : middle.oldTerminal = machine.kernel.oldTerminal :=
    (launchStage_eq_done staged).oldTerminal
  let moved : Thread := { thread with point := .launching locals following }
  have advanced : machine.advance image thread = .done (machine.become middle moved) := by
    simp only [Machine.advance, launches, Machine.launching, staged, Outcome.done_bind, next]
    rfl
  have there : (machine.become middle moved).threads (machine.become middle moved).kernel.oldTerminal =
      some moved := by
    simp only [Machine.become, sameTerminal, Function.update_self]
  have onward := later _ moved there rfl rest
  have same : (machine.become middle moved).entered after moved = machine.entered after thread := by
    simp only [Machine.entered, Machine.become, sameTerminal, moved]
    congr 1
    funext term
    by_cases shown : term = machine.kernel.oldTerminal
    · subst shown
      simp only [Function.update_self]
    · simp only [Function.update_of_ne shown]
  rw [same] at onward
  exact .head here advanced onward

theorem advances_launching {locals : ExecuteLocals} {after : Kernel}
    (here : machine.threads machine.kernel.oldTerminal = some thread)
    (launches : thread.point = .launching locals .schedule)
    (through : Outcome.through (launchStage image locals thread.pid) LaunchStage.all
      machine.kernel = .done after) :
    Advances image machine (machine.entered after thread) :=
  advances_stage rfl (fun _ _ => advances_stage rfl fun _ _ => advances_stage rfl fun _ _ =>
    advances_stage rfl fun _ _ => advances_enter) here launches through

/-- From the search on, the steps of `execute` lead to a child in user mode. -/
theorem advances_execute {locals : ExecuteLocals} {slot : Nat} {after : Kernel}
    (here : machine.threads machine.kernel.oldTerminal = some thread)
    (searches : thread.point = .search locals 1)
    (isFirst : (findSlot machine.kernel.openTasks).2 = some slot)
    (through : Outcome.through (launchStage image locals slot) LaunchStage.all
      (machine.kernel.claimSlot locals.curProgramid slot) = .done after) :
    ∃ final, Advances image machine final ∧ final.kernel = after ∧
      final.threads machine.kernel.oldTerminal =
        some ⟨slot, .user, ⟨thread.pid, locals.frame.esp, locals.frame.ebp⟩ :: thread.waiting⟩ := by
  let claiming : Thread := { thread with point := .claim locals slot }
  let launching : Thread :=
    { pid := slot
      point := .launching locals .schedule
      waiting := ⟨thread.pid, locals.frame.esp, locals.frame.ebp⟩ :: thread.waiting }
  let found := machine.become machine.kernel claiming
  let claimed := machine.become (machine.kernel.claimSlot locals.curProgramid slot) launching
  have toClaim : Advances image machine found :=
    advances_search here searches rfl isFirst
  have claims : found.advance image claiming = .done claimed := by
    simp only [Machine.advance, claiming, found, claimed]
    exact congrArg Outcome.done (Machine.become_become machine machine.kernel _ claiming launching rfl)
  have starts : Advances image claimed (claimed.entered after launching) :=
    advances_launching (Function.update_self ..) rfl through
  have atUser : (claimed.entered after launching).threads claimed.kernel.oldTerminal =
      some { launching with point := .user } := by
    simp only [Machine.entered, Function.update_self]
  exact ⟨_, toClaim.trans (.head (Function.update_self ..) claims starts), rfl, atUser⟩

/-- An `execute` that is not interrupted starts its child as the whole call does. -/
theorem execute_uninterrupted {command : Option CString} {frame : CallFrame} {entry : Word}
    {after : Kernel} (here : machine.threads machine.kernel.oldTerminal = some thread)
    (user : thread.point = .user)
    (returned : machine.kernel.execute image command frame = .done (.iret entry, after)) :
    ∃ called slot final, (machineSystem image).step machine (.call (.execute command frame)) =
        some called ∧
      Advances image called final ∧ final.kernel = after ∧
      final.threads machine.kernel.oldTerminal =
        some ⟨slot, .user, ⟨thread.pid, frame.esp, frame.ebp⟩ :: thread.waiting⟩ := by
  rw [execute_eq_stages] at returned
  obtain ⟨⟨locals, kernel⟩, beginning, rest⟩ := Outcome.bind_eq_done.mp returned
  have begun := beginExecute_eq_done beginning
  have shown : kernel.oldTerminal = machine.kernel.oldTerminal := begun.own.oldTerminal
  cases locals with
  | none => cases rest
  | some locals =>
      dsimp only at rest
      cases found : (findSlot kernel.openTasks).2 with
      | none => rw [found] at rest; cases rest
      | some slot =>
          rw [found] at rest
          obtain ⟨launched, through, entered⟩ := Outcome.bind_eq_done.mp rest
          cases entered
          let called := machine.become kernel { thread with point := .search locals 1 }
          have stepped : machine.call image thread (.execute command frame) = .done called := by
            simp only [Machine.call, beginning, Outcome.done_bind]
            rfl
          have there : called.threads called.kernel.oldTerminal =
              some { thread with point := .search locals 1 } := by
            simp only [called, Machine.become, shown, Function.update_self]
          obtain ⟨final, advances, sameKernel, atUser⟩ := advances_execute there rfl found through
          refine ⟨called, slot, final, step_call here user stepped, advances, sameKernel, ?_⟩
          rw [← begun.frame locals rfl, ← shown]
          exact atUser

theorem halt_step {status : Byte} {cur : Nat} {parent : Int} {stage : HaltStage} {kernel : Kernel}
    (halts : thread.point = .halting status cur parent stage) (notJump : stage ≠ .jump)
    (notRoot : parent ≠ 0)
    (staged : machine.kernel.haltStage status cur parent stage = .done kernel) :
    machine.advance image thread = .done (machine.become kernel
      { thread with point := .halting status cur parent stage.next }) := by
  have goesOn : ¬ (stage = .schedule ∧ parent = 0) := fun both => notRoot both.2
  simp only [Machine.advance, halts, Machine.halting, staged, Outcome.done_bind, if_neg goesOn,
    if_neg notJump]
  rfl

theorem jump_point (thread : Thread) (point : Point) (status : Byte) (esp ebp : Word) :
    Machine.jump { thread with point } status esp ebp = Machine.jump thread status esp ebp := by
  simp only [Machine.jump]

/-- One stage of `halt` and all that follow it. -/
theorem advances_halt {status : Byte} {cur : Nat} {parent : Int} {stage : HaltStage}
    {stages : List HaltStage} {after : Kernel} (notJump : stage ≠ .jump) (notRoot : parent ≠ 0)
    (later : ∀ machine thread, machine.threads machine.kernel.oldTerminal = some thread →
      thread.point = .halting status cur parent stage.next →
      Outcome.through (haltStage status cur parent) stages machine.kernel = .done after →
      Advances image machine (machine.become after
        (Machine.jump thread status (after.pcb parent.toNat).esp (after.pcb parent.toNat).ebp)))
    (here : machine.threads machine.kernel.oldTerminal = some thread)
    (halts : thread.point = .halting status cur parent stage)
    (through : Outcome.through (haltStage status cur parent) (stage :: stages) machine.kernel =
      .done after) :
    Advances image machine (machine.become after
      (Machine.jump thread status (after.pcb parent.toNat).esp (after.pcb parent.toNat).ebp)) := by
  obtain ⟨middle, staged, rest⟩ := Outcome.bind_eq_done.mp through
  have shown : middle.oldTerminal = machine.kernel.oldTerminal :=
    (haltStage_eq_done staged).oldTerminal
  let moved : Thread := { thread with point := .halting status cur parent stage.next }
  have there : (machine.become middle moved).threads (machine.become middle moved).kernel.oldTerminal =
      some moved := by
    simp only [Machine.become, shown, Function.update_self]
  have onward := later _ moved there rfl rest
  rw [Machine.become_become machine middle after _ _ shown, jump_point] at onward
  exact .head here (halt_step halts notJump notRoot staged) onward

theorem advances_jump {status : Byte} {cur : Nat} {parent : Int} {after : Kernel}
    (here : machine.threads machine.kernel.oldTerminal = some thread)
    (halts : thread.point = .halting status cur parent .jump)
    (through : Outcome.through (haltStage status cur parent) [] machine.kernel = .done after) :
    Advances image machine (machine.become after
      (Machine.jump thread status (after.pcb parent.toNat).esp (after.pcb parent.toNat).ebp)) := by
  cases through
  refine .head here ?_ (.refl _)
  simp only [Machine.advance, halts, Machine.halting, haltStage, Outcome.done_bind]
  rfl

/-- From `halt_ret_label` on the status goes to the caller of `execute`. -/
theorem advances_haltRetLabel {result : Word}
    (here : machine.threads machine.kernel.oldTerminal = some thread)
    (label : thread.point = .haltRetLabel result) :
    ∃ final, Advances image machine final ∧ final.kernel = machine.kernel ∧
      final.threads machine.kernel.oldTerminal = some { thread with point := .user } ∧
      final.delivered = machine.delivered ++ [(result, BitVec.ofInt 32 machine.kernel.currStatus)] := by
  let value : Word := BitVec.ofInt 32 machine.kernel.currStatus
  let returned := machine.become machine.kernel { thread with point := .returned result value }
  let stored : Machine :=
    { machine.become machine.kernel { thread with point := .stored result } with returnValue := value }
  let popped := stored.become machine.kernel { thread with point := .popped result }
  let loaded := popped.become machine.kernel { thread with point := .loaded result value }
  let user : Machine :=
    { loaded.become machine.kernel { thread with point := .user } with
      delivered := machine.delivered ++ [(result, value)] }
  have toReturned : machine.advance image thread = .done returned := by
    simp only [Machine.advance, label, returned, value]
  have toStored : returned.advance image { thread with point := .returned result value } =
      .done stored := by
    simp only [Machine.advance, returned, stored, Machine.become, Function.update_idem]
  have toPopped : stored.advance image { thread with point := .stored result } = .done popped := rfl
  have toLoaded : popped.advance image { thread with point := .popped result } = .done loaded := rfl
  have toUser : loaded.advance image { thread with point := .loaded result value } = .done user := rfl
  have afterStore : Advances image stored user :=
    .head (Function.update_self ..) toPopped (.head (Function.update_self ..) toLoaded
      (.head (Function.update_self ..) toUser (.refl user)))
  exact ⟨user, .head here toReturned (.head (Function.update_self ..) toStored afterStore), rfl,
    Function.update_self .., rfl⟩

/-- A `halt` that is not interrupted leaves the kernel as the whole call does,
and its caller's `execute` returns the status. -/
theorem halt_uninterrupted {status : Byte} {esp ebp : Word} {after : Kernel} {caller : WaitingCall}
    {rest : List WaitingCall} (here : machine.threads machine.kernel.oldTerminal = some thread)
    (user : thread.point = .user) (waits : thread.waiting = caller :: rest)
    (saved : esp = caller.esp ∧ ebp = caller.ebp)
    (returned : machine.kernel.halt status = .done (.haltRetLabel esp ebp, after)) :
    ∃ called final, (machineSystem image).step machine (.call (.halt status)) = some called ∧
      Advances image called final ∧ final.kernel = after ∧
      final.threads machine.kernel.oldTerminal = some ⟨caller.pid, .user, rest⟩ ∧
      final.delivered =
        machine.delivered ++ [(BitVec.ofNat 32 status.toNat, BitVec.ofNat 32 status.toNat)] := by
  have stores : after.currStatus = status.toNat := by
    rcases halt_eq_done returned with ⟨_, restarts, _⟩ | ⟨_, _, _, left⟩
    · cases restarts
    · exact left.currStatus
  have shown : after.oldTerminal = machine.kernel.oldTerminal := by
    rcases halt_eq_done returned with ⟨_, restarts, _⟩ | ⟨_, _, _, left⟩
    · cases restarts
    · exact left.oldTerminal
  rw [halt_eq_stages] at returned
  obtain ⟨cur, current, remaining⟩ := Outcome.bind_eq_done.mp returned
  let parent := machine.kernel.openTasks cur
  let called := machine.become machine.kernel { thread with point := .halting status cur parent .status }
  have stepped : machine.call image thread (.halt status) = .done called := by
    simp only [Machine.call, current, Outcome.done_bind]
    rfl
  obtain ⟨scheduled, early, leaving⟩ := Outcome.bind_eq_done.mp remaining
  have notRoot : parent ≠ 0 := by
    intro root
    rw [if_pos root] at leaving
    cases leaving
  rw [if_neg notRoot] at leaving
  obtain ⟨last, late, jumps⟩ := Outcome.bind_eq_done.mp leaving
  cases jumps
  have through : Outcome.through (haltStage status cur parent)
      [.status, .schedule, .terminal, .page, .free, .close, .stack] machine.kernel = .done after := by
    simp only [Outcome.through] at early
    obtain ⟨stored, storing, queued⟩ := Outcome.bind_eq_done.mp early
    obtain ⟨_, queueing, same⟩ := Outcome.bind_eq_done.mp queued
    cases same
    exact Outcome.bind_eq_done.mpr ⟨_, storing, Outcome.bind_eq_done.mpr ⟨_, queueing, late⟩⟩
  have leaves : Advances image called (called.become after (Machine.jump
      { thread with point := .halting status cur parent .status } status
      (after.pcb parent.toNat).esp (after.pcb parent.toNat).ebp)) :=
    advances_halt (by decide) notRoot (fun _ _ => advances_halt (by decide) notRoot fun _ _ =>
      advances_halt (by decide) notRoot fun _ _ => advances_halt (by decide) notRoot fun _ _ =>
      advances_halt (by decide) notRoot fun _ _ => advances_halt (by decide) notRoot fun _ _ =>
      advances_halt (by decide) notRoot fun _ _ => advances_jump)
      (Function.update_self ..) rfl through
  have jumped : Machine.jump { thread with point := .halting status cur parent .status } status
      (after.pcb parent.toNat).esp (after.pcb parent.toNat).ebp =
      ⟨caller.pid, .haltRetLabel (BitVec.ofNat 32 status.toNat), rest⟩ := by
    simp only [Machine.jump, waits]
    exact if_pos saved
  rw [jumped] at leaves
  let landing := called.become after ⟨caller.pid, .haltRetLabel (BitVec.ofNat 32 status.toNat), rest⟩
  have there : landing.threads after.oldTerminal =
      some ⟨caller.pid, .haltRetLabel (BitVec.ofNat 32 status.toNat), rest⟩ := by
    rw [shown]
    exact Function.update_self ..
  obtain ⟨final, returns, sameKernel, atUser, delivers⟩ :
      ∃ final, Advances image landing final ∧ final.kernel = after ∧
        final.threads after.oldTerminal = some ⟨caller.pid, .user, rest⟩ ∧
        final.delivered = machine.delivered ++
          [(BitVec.ofNat 32 status.toNat, BitVec.ofInt 32 after.currStatus)] :=
    advances_haltRetLabel there rfl
  refine ⟨called, final, step_call here user stepped, leaves.trans returns, sameKernel, ?_, ?_⟩
  · rw [← shown]
    exact atUser
  · rw [delivers, stores, BitVec.ofInt_natCast]

end Ece391
