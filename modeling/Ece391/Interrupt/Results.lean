import Ece391.Interrupt.Allocation

namespace Ece391

open Library Kernel

/-! # Results of system calls

On their way to the caller the result of a handler and the status of a child
pass through EAX, `returnValue` and `curr_status`, which all terminals share.
They arrive as long as no step disturbs one on its way.
-/

/-- Every call that has returned got what its handler computed, and no call has
lost its way back. -/
structure Machine.ResultsArrive (machine : Machine) : Prop where
  delivered : ∀ call ∈ machine.delivered, call.2 = call.1
  underway : ∀ term thread, machine.threads term = some thread → thread.point ≠ .lost

namespace Thread

/-- The value that a call has in EAX. -/
def inEax (thread : Thread) : Option Word :=
  match thread.point with
  | .returned _ eax => some eax
  | .loaded _ eax => some eax
  | _ => none

/-- The result of a call is in `returnValue` and nowhere else. -/
def inReturnValue (thread : Thread) : Bool :=
  match thread.point with
  | .stored _ => true
  | .popped _ => true
  | _ => false

/-- The status of a child is in `curr_status` and nowhere else. -/
def inCurrStatus (thread : Thread) : Bool :=
  match thread.point, thread.waiting with
  | .halting _ _ _ .status, _ => false
  | .halting _ _ _ _, _ :: _ => true
  | .haltRetLabel _, _ => true
  | _, _ => false

/-- CR3 names a caller of `execute` whose control block must keep its registers. -/
def exposesCaller (thread : Thread) : Bool :=
  match thread.point with
  | .launching _ .load => true
  | .halting _ _ _ .free => true
  | .halting _ _ _ .close => true
  | .halting _ _ _ .stack => true
  | .halting _ _ _ .jump => true
  | _ => false

end Thread

/-- Neither a process nor the rest of a `halt` is on the kernel stack of the slot. -/
def Machine.StackUnused (machine : Machine) (slot : Nat) : Prop :=
  ∀ term thread, machine.threads term = some thread → slot ∉ thread.pids

/-- The step disturbs no result on its way. -/
def Undisturbed (machine : Machine) (input : Input) : Prop :=
  ∀ thread, machine.threads machine.kernel.oldTerminal = some thread →
    match input, thread.point with
    | .advance, .claim _ slot => machine.StackUnused slot
    | .advance, .returned _ eax =>
        ∀ term other, term ≠ machine.kernel.oldTerminal → machine.threads term = some other →
          other.inReturnValue → eax = machine.returnValue
    | .advance, .halting status _ _ .status =>
        ∀ term other, term ≠ machine.kernel.oldTerminal → machine.threads term = some other →
          other.inCurrStatus → (status.toNat : Int) = machine.kernel.currStatus
    | .interrupt term _ _ _ scratch, _ =>
        ∀ target : TerminalId, (target : Int) = term → target ≠ machine.kernel.oldTerminal →
          (∀ eax, thread.inEax = some eax → scratch = eax) ∧
          ((machine.kernel.terminals target).active = 0 → ¬ thread.exposesCaller ∧
            ∀ slot, (findSlot machine.kernel.openTasks).2 = some slot → machine.StackUnused slot)
    | _, _ => True

namespace Thread

/-- The value that is on its way is the one that was computed. -/
def Carries (currStatus : Int) (returnValue : Word) (thread : Thread) : Prop :=
  match thread.point with
  | .halting status _ _ stage =>
      stage ≠ .status → thread.waiting ≠ [] → currStatus = status.toNat
  | .haltRetLabel result => BitVec.ofInt 32 currStatus = result
  | .returned result eax => eax = result
  | .stored result => returnValue = result
  | .popped result => returnValue = result
  | .loaded result eax => eax = result
  | .launching locals _ =>
      ∃ rest, thread.waiting = ⟨locals.curProgramid, locals.frame.esp, locals.frame.ebp⟩ :: rest
  | .lost => False
  | _ => True

/-- The callers whose registers are in their control blocks. -/
def savedCallers (thread : Thread) : List WaitingCall :=
  match thread.point with
  | .launching _ .schedule => thread.waiting.tail
  | .launching _ .setUp => thread.waiting.tail
  | .launching _ .save => thread.waiting.tail
  | _ => thread.waiting

structure Safe (kernel : Kernel) (returnValue : Word) (thread : Thread) : Prop where
  distinct : thread.pids.Nodup
  carries : thread.Carries kernel.currStatus returnValue
  saved : ∀ caller ∈ thread.savedCallers, (kernel.pcb caller.pid).esp = caller.esp ∧
    (kernel.pcb caller.pid).ebp = caller.ebp

theorem savedCallers_subset (thread : Thread) : ∀ caller ∈ thread.savedCallers,
    caller ∈ thread.waiting := by
  intro caller member
  unfold savedCallers at member
  split at member
  · exact List.mem_of_mem_tail member
  · exact List.mem_of_mem_tail member
  · exact List.mem_of_mem_tail member
  · exact member

/-- What the code of another terminal must leave alone. -/
theorem Safe.transfer {kernel after : Kernel} {returnValue value : Word} {thread : Thread}
    (safe : thread.Safe kernel returnValue)
    (sameStatus : thread.inCurrStatus → after.currStatus = kernel.currStatus)
    (sameValue : thread.inReturnValue → value = returnValue)
    (stack : ∀ pid ∈ thread.waiting.map WaitingCall.pid,
      (after.pcb pid).esp = (kernel.pcb pid).esp ∧ (after.pcb pid).ebp = (kernel.pcb pid).ebp) :
    thread.Safe after value where
  distinct := safe.distinct
  carries := by
    have carries := safe.carries
    obtain ⟨pid, point, waiting⟩ := thread
    cases point with
    | halting status cur parent stage =>
        intro behind callers
        have isWaiting : Thread.inCurrStatus ⟨pid, .halting status cur parent stage, waiting⟩ := by
          cases waiting with
          | nil => exact absurd rfl callers
          | cons caller rest =>
              cases stage with
              | status => exact absurd rfl behind
              | _ => rfl
        exact (sameStatus isWaiting).trans (carries behind callers)
    | haltRetLabel result =>
        have same : after.currStatus = kernel.currStatus := sameStatus rfl
        simp only [Carries, same] at carries ⊢
        exact carries
    | stored result => exact (sameValue rfl).trans carries
    | popped result => exact (sameValue rfl).trans carries
    | _ => exact carries
  saved caller member := by
    obtain ⟨esp, ebp⟩ := stack caller.pid (List.mem_map_of_mem (thread.savedCallers_subset caller member))
    rw [esp, ebp]
    exact safe.saved caller member

end Thread

structure Machine.Faithful (machine : Machine) : Prop where
  safe : ∀ term thread, machine.threads term = some thread →
    thread.Safe machine.kernel machine.returnValue
  apart : ∀ term other thread neighbour, term ≠ other → machine.threads term = some thread →
    machine.threads other = some neighbour → ∀ pid ∈ thread.pids, pid ∉ neighbour.pids
  delivered : ∀ call ∈ machine.delivered, call.2 = call.1

variable {image : Image} {machine next : Machine} {processes : Forest TerminalId Nat}
  {thread moved : Thread} {after : Kernel} {value : Word}

/-- A step that moves one terminal. -/
theorem Machine.Faithful.become {target : TerminalId} {delivered : List (Word × Word)}
    (faithful : machine.Faithful) (safe : moved.Safe after value)
    (apart : ∀ other neighbour, other ≠ target → machine.threads other = some neighbour →
      ∀ pid ∈ moved.pids, pid ∉ neighbour.pids)
    (others : ∀ other neighbour, other ≠ target → machine.threads other = some neighbour →
      (neighbour.inCurrStatus → after.currStatus = machine.kernel.currStatus) ∧
      (neighbour.inReturnValue → value = machine.returnValue) ∧
      ∀ pid ∈ neighbour.waiting.map WaitingCall.pid,
        (after.pcb pid).esp = (machine.kernel.pcb pid).esp ∧
          (after.pcb pid).ebp = (machine.kernel.pcb pid).ebp)
    (arrived : ∀ call ∈ delivered, call.2 = call.1) :
    Machine.Faithful
      { kernel := after
        returnValue := value
        threads := Function.update machine.threads target (some moved)
        delivered } where
  safe term thread here := by
    dsimp only at here ⊢
    by_cases same : term = target
    · subst same
      rw [Function.update_self] at here
      obtain rfl := Option.some.inj here
      exact safe
    · rw [Function.update_of_ne same] at here
      obtain ⟨status, result, stack⟩ := others term thread same here
      exact (faithful.safe term thread here).transfer status result stack
  apart term other thread neighbour different here there := by
    dsimp only at here there
    by_cases same : term = target
    · subst same
      rw [Function.update_self] at here
      obtain rfl := Option.some.inj here
      rw [Function.update_of_ne (Ne.symm different)] at there
      exact apart other neighbour (Ne.symm different) there
    · rw [Function.update_of_ne same] at here
      by_cases otherMoved : other = target
      · subst otherMoved
        rw [Function.update_self] at there
        obtain rfl := Option.some.inj there
        intro pid inside inMoved
        exact apart term thread same here pid inMoved inside
      · rw [Function.update_of_ne otherMoved] at there
        exact faithful.apart term other thread neighbour different here there
  delivered := arrived

/-- A step that takes no other process's slot and stores to nothing shared. -/
theorem Machine.Faithful.move (faithful : machine.Faithful)
    (here : machine.threads machine.kernel.oldTerminal = some thread)
    (samePids : ∀ pid ∈ moved.pids, pid ∈ thread.pids) (safe : moved.Safe after machine.returnValue)
    (sameStatus : after.currStatus = machine.kernel.currStatus)
    (stack : ∀ pid, pid ∉ thread.pids → (after.pcb pid).esp = (machine.kernel.pcb pid).esp ∧
      (after.pcb pid).ebp = (machine.kernel.pcb pid).ebp) :
    (machine.become after moved).Faithful := by
  refine faithful.become safe ?_ ?_ faithful.delivered
  · intro other neighbour different there pid inMoved
    exact faithful.apart _ other thread neighbour (Ne.symm different) here there pid (samePids pid inMoved)
  · intro other neighbour different there
    refine ⟨fun _ => sameStatus, fun _ => rfl, fun pid inside => stack pid fun mine => ?_⟩
    exact faithful.apart _ other thread neighbour (Ne.symm different) here there pid mine
      (List.mem_cons_of_mem _ inside)

/-- A move to a point of the same process that has all its callers saved. -/
theorem Thread.Safe.at {kernel : Kernel} {returnValue : Word} {point : Point}
    (safe : thread.Safe kernel returnValue)
    (sameStack : ∀ pid, (after.pcb pid).esp = (kernel.pcb pid).esp ∧
      (after.pcb pid).ebp = (kernel.pcb pid).ebp)
    (carries : Thread.Carries after.currStatus value { thread with point })
    (callers : thread.savedCallers = thread.waiting) :
    Thread.Safe after value { thread with point } where
  distinct := safe.distinct
  carries := carries
  saved caller member := by
    obtain ⟨esp, ebp⟩ := sameStack caller.pid
    rw [esp, ebp]
    have waits := Thread.savedCallers_subset { thread with point } caller member
    exact safe.saved caller (callers ▸ waits)

theorem Machine.Faithful.call {request : Request} (faithful : machine.Faithful)
    (here : machine.threads machine.kernel.oldTerminal = some thread)
    (user : thread.point = .user) (called : machine.call image thread request = .done next) :
    next.Faithful := by
  have safe := faithful.safe _ _ here
  have callers : thread.savedCallers = thread.waiting := by simp only [Thread.savedCallers, user]
  cases request with
  | halt status =>
      obtain ⟨cur, _, returned⟩ := Outcome.bind_eq_done.mp called
      cases returned
      exact faithful.move here (fun _ => id)
        (safe.at (fun _ => ⟨rfl, rfl⟩) (fun behind => absurd rfl behind) callers) rfl
        fun _ _ => ⟨rfl, rfl⟩
  | execute command frame =>
      obtain ⟨⟨locals, kernel⟩, beginning, returned⟩ := Outcome.bind_eq_done.mp called
      obtain ⟨shellEntry, rfl⟩ := (beginExecute_eq_done beginning).state
      cases locals with
      | none =>
          cases returned
          exact faithful.move here (fun _ => id)
            (safe.at (fun _ => ⟨rfl, rfl⟩) rfl callers) rfl fun _ _ => ⟨rfl, rfl⟩
      | some locals =>
          cases returned
          exact faithful.move here (fun _ => id)
            (safe.at (fun _ => ⟨rfl, rfl⟩) trivial callers) rfl fun _ _ => ⟨rfl, rfl⟩
  | service service =>
      cases called
      exact faithful.move here (fun _ => id)
        (safe.at (fun _ => ⟨rfl, rfl⟩) trivial callers) rfl fun _ _ => ⟨rfl, rfl⟩
  | invalid =>
      cases called
      exact faithful.move here (fun _ => id)
        (safe.at (fun _ => ⟨rfl, rfl⟩) rfl callers) rfl fun _ _ => ⟨rfl, rfl⟩

theorem Machine.Faithful.claim {locals : ExecuteLocals} {slot : Nat} (faithful : machine.Faithful)
    (here : machine.threads machine.kernel.oldTerminal = some thread)
    (claims : thread.point = .claim locals slot) (unused : machine.StackUnused slot)
    (caller : locals.curProgramid = thread.pid) :
    (machine.become (machine.kernel.claimSlot locals.curProgramid slot)
      { pid := slot
        point := .launching locals .schedule
        waiting := ⟨thread.pid, locals.frame.esp, locals.frame.ebp⟩ :: thread.waiting }).Faithful := by
  have safe := faithful.safe _ _ here
  have callers : thread.savedCallers = thread.waiting := by simp only [Thread.savedCallers, claims]
  refine faithful.become ⟨?_, ⟨thread.waiting, by rw [caller]⟩, ?_⟩ ?_ ?_ faithful.delivered
  · exact List.nodup_cons.mpr ⟨unused _ thread here, safe.distinct⟩
  · intro waiting member
    exact safe.saved waiting (by rw [callers]; exact member)
  · intro other neighbour different there pid inNew
    rcases List.mem_cons.mp inNew with rfl | older
    · exact unused other neighbour there
    · exact faithful.apart _ other thread neighbour (Ne.symm different) here there pid older
  · exact fun other neighbour _ _ => ⟨fun _ => rfl, fun _ => rfl, fun _ _ => ⟨rfl, rfl⟩⟩

/-- No terminal but the shown one has a stack in the slot being entered. -/
theorem Machine.Faithful.overrun_eq (faithful : machine.Faithful)
    (here : machine.threads machine.kernel.oldTerminal = some thread) :
    Function.update (fun term => (machine.threads term).map (Thread.overrun · thread.pid))
        machine.kernel.oldTerminal (some { thread with point := .user }) =
      Function.update machine.threads machine.kernel.oldTerminal
        (some { thread with point := .user }) := by
  funext term
  by_cases same : term = machine.kernel.oldTerminal
  · subst same
    simp only [Function.update_self]
  · simp only [Function.update_of_ne same]
    cases there : machine.threads term with
    | none => rfl
    | some neighbour =>
        have outside := faithful.apart _ term thread neighbour (Ne.symm same) here there thread.pid
          (List.mem_cons_self ..)
        simp only [Option.map_some, Thread.overrun, if_neg outside]

theorem Machine.Faithful.launching {locals : ExecuteLocals} {stage : LaunchStage}
    (faithful : machine.Faithful) (placed : machine.Placed processes)
    (here : machine.threads machine.kernel.oldTerminal = some thread)
    (launches : thread.point = .launching locals stage)
    (launched : machine.launching image thread locals stage = .done next) : next.Faithful := by
  obtain ⟨kernel, staged, rest⟩ := Outcome.bind_eq_done.mp launched
  have effect := launchStage_eq_done staged
  have safe := faithful.safe _ _ here
  have overrun := faithful.overrun_eq here
  have range : ∀ caller ∈ thread.waiting, 1 ≤ caller.pid := by
    intro caller member
    refine (placed.claimed caller.pid ⟨machine.kernel.oldTerminal, ?_⟩).1.1
    rw [placed.chain_eq here]
    simp only [Thread.live, Thread.freed, launches, Bool.false_eq_true, if_false]
    exact List.mem_cons_of_mem _ (List.mem_map_of_mem member)
  obtain ⟨pid, point, waiting⟩ := thread
  dsimp only at launches
  subst launches
  obtain ⟨others, rfl⟩ := safe.carries
  have userCall : locals.curProgramid ≠ 0 := by
    have positive := range _ (List.mem_cons_self ..)
    dsimp only at positive
    omega
  have quiet : ∀ caller, stage ≠ .save → (kernel.pcb caller).esp = (machine.kernel.pcb caller).esp ∧
      (kernel.pcb caller).ebp = (machine.kernel.pcb caller).ebp :=
    fun caller notSave => effect.stack caller fun saves => notSave saves.1
  cases stage with
  | schedule | setUp =>
      cases rest
      refine faithful.move here (fun _ => id) ⟨safe.distinct, ⟨others, rfl⟩, fun caller member => ?_⟩
        effect.currStatus fun caller _ => quiet caller (by decide)
      obtain ⟨esp, ebp⟩ := quiet caller.pid (by decide)
      rw [esp, ebp]
      exact safe.saved caller member
  | save =>
      cases rest
      have apart : locals.curProgramid ∉ others.map WaitingCall.pid :=
        (List.nodup_cons.mp (List.nodup_cons.mp safe.distinct).2).1
      refine faithful.move here (fun _ => id) ⟨safe.distinct, ⟨others, rfl⟩, fun caller member => ?_⟩
        effect.currStatus fun caller outside => effect.stack caller fun saves => ?_
      · rcases List.mem_cons.mp member with rfl | older
        · exact effect.saved rfl userCall
        · have different : caller.pid ≠ locals.curProgramid := fun same =>
            apart (same ▸ List.mem_map_of_mem older)
          obtain ⟨esp, ebp⟩ := effect.stack caller.pid fun saves => different saves.2.1
          rw [esp, ebp]
          exact safe.saved caller older
      · refine outside ?_
        rw [saves.2.1]
        exact List.mem_cons_of_mem _ (List.mem_cons_self ..)
  | load =>
      cases rest
      refine faithful.move here (fun _ => id) ⟨safe.distinct, ⟨others, rfl⟩, fun caller member => ?_⟩
        effect.currStatus fun caller _ => quiet caller (by decide)
      obtain ⟨esp, ebp⟩ := quiet caller.pid (by decide)
      rw [esp, ebp]
      exact safe.saved caller member
  | enter =>
      cases rest
      simp only [Machine.become]
      rw [overrun]
      refine faithful.move here (fun _ => id) ⟨safe.distinct, trivial, fun caller member => ?_⟩
        effect.currStatus fun caller _ => quiet caller (by decide)
      obtain ⟨esp, ebp⟩ := quiet caller.pid (by decide)
      rw [esp, ebp]
      exact safe.saved caller member

/-- The jump finds the stack of the caller, which `execute` saved. -/
theorem Machine.Faithful.jumped {status : Byte} {cur pid : Nat} {caller : WaitingCall}
    {others : List WaitingCall} (faithful : machine.Faithful)
    (here : machine.threads machine.kernel.oldTerminal =
      some ⟨pid, .halting status cur caller.pid .jump, caller :: others⟩)
    (effect : HaltStep machine.kernel status cur caller.pid .jump after)
    (sameStatus : after.currStatus = machine.kernel.currStatus)
    (stored : after.currStatus = status.toNat) :
    (machine.become after
      (Machine.jump ⟨pid, .halting status cur caller.pid .jump, caller :: others⟩ status
        (after.pcb caller.pid).esp (after.pcb caller.pid).ebp)).Faithful := by
  have safe := faithful.safe _ _ here
  obtain ⟨esp, ebp⟩ := effect.stack caller.pid
  have back : Machine.jump ⟨pid, .halting status cur caller.pid .jump, caller :: others⟩ status
      (after.pcb caller.pid).esp (after.pcb caller.pid).ebp =
      ⟨caller.pid, .haltRetLabel (BitVec.ofNat 32 status.toNat), others⟩ := by
    rw [esp, ebp]
    exact if_pos (safe.saved caller (List.mem_cons_self ..))
  rw [back]
  refine faithful.move here (fun _ member => List.mem_cons_of_mem _ member)
    ⟨(List.nodup_cons.mp safe.distinct).2, ?_, fun waits member => ?_⟩ sameStatus
    fun other _ => effect.stack other
  · simp only [Thread.Carries, stored, BitVec.ofInt_natCast]
  · obtain ⟨espSame, ebpSame⟩ := effect.stack waits.pid
    rw [espSame, ebpSame]
    exact safe.saved waits (List.mem_cons_of_mem _ member)

theorem Machine.Faithful.halting {status : Byte} {cur : Nat} {parent : Int} {stage : HaltStage}
    (faithful : machine.Faithful) (placed : machine.Placed processes)
    (undisturbed : Undisturbed machine .advance)
    (here : machine.threads machine.kernel.oldTerminal = some thread)
    (halts : thread.point = .halting status cur parent stage)
    (halted : machine.halting thread status cur parent stage = .done next) : next.Faithful := by
  obtain ⟨kernel, staged, rest⟩ := Outcome.bind_eq_done.mp halted
  have effect := haltStage_eq_done staged
  have safe := faithful.safe _ _ here
  have allowed := undisturbed thread here
  have holds := (placed.fits _ _ here).locals
  simp only [Thread.Locals, halts] at holds
  obtain ⟨_, family⟩ := holds
  have neighbours := fun other neighbour different there => faithful.apart
    machine.kernel.oldTerminal other thread neighbour (Ne.symm different) here there
  obtain ⟨pid, point, waiting⟩ := thread
  dsimp only at halts
  subst halts
  have carries : stage ≠ .status → waiting ≠ [] → machine.kernel.currStatus = status.toNat :=
    safe.carries
  have stored : waiting ≠ [] → kernel.currStatus = status.toNat := by
    intro callers
    rw [effect.currStatus]
    split
    · rfl
    · rename_i behind
      exact carries behind callers
  by_cases first : stage = .status
  · subst first
    cases rest
    refine faithful.become
      (safe.at effect.stack (fun _ callers => stored callers) rfl)
      neighbours
      (fun other neighbour different there => ⟨fun underway => ?_, fun _ => rfl,
        fun caller _ => effect.stack caller⟩) faithful.delivered
    rw [effect.currStatus, if_pos rfl]
    exact allowed other neighbour different there underway
  · have sameStatus : kernel.currStatus = machine.kernel.currStatus := by
      rw [effect.currStatus, if_neg first]
    by_cases root : stage = .schedule ∧ parent = 0
    · rw [if_pos root] at rest
      cases rest
      exact faithful.move here (fun _ => id) (safe.at effect.stack trivial rfl) sameStatus
        fun caller _ => effect.stack caller
    rw [if_neg root] at rest
    by_cases last : stage = .jump
    · rw [if_pos last] at rest
      cases rest
      subst last
      obtain ⟨caller, others, rfl, ofCaller⟩ : ∃ caller rest, waiting = caller :: rest ∧
          parent = caller.pid := by
        rcases family with ⟨_, _, early | early⟩ | callers
        · cases early
        · cases early
        · exact callers
      subst ofCaller
      exact faithful.jumped here effect sameStatus (stored (List.cons_ne_nil _ _))
    · rw [if_neg last] at rest
      cases rest
      exact faithful.move here (fun _ => id)
        (safe.at effect.stack (fun _ callers => stored callers) rfl) sameStatus
        fun caller _ => effect.stack caller

theorem Machine.Faithful.advance (faithful : machine.Faithful) (placed : machine.Placed processes)
    (undisturbed : Undisturbed machine .advance)
    (here : machine.threads machine.kernel.oldTerminal = some thread)
    (advanced : machine.advance image thread = .done next) : next.Faithful := by
  have safe := faithful.safe _ _ here
  have allowed := undisturbed thread here
  have holds := (placed.fits _ _ here).locals
  have neighbours := fun other neighbour different there => faithful.apart
    machine.kernel.oldTerminal other thread neighbour (Ne.symm different) here there
  obtain ⟨pid, point, waiting⟩ := thread
  cases point with
  | user => cases advanced
  | lost => cases advanced
  | handler service =>
      obtain ⟨⟨value, kernel⟩, serving, returned⟩ := Outcome.bind_eq_done.mp advanced
      have quiet := serve_quiet serving
      cases returned
      exact faithful.move here (fun _ => id) (safe.at quiet.stack rfl rfl) quiet.currStatus
        fun caller _ => quiet.stack caller
  | search locals i =>
      simp only [Machine.advance] at advanced
      split at advanced
      · cases advanced
        exact faithful.move here (fun _ => id)
          (safe.at (fun _ => ⟨rfl, rfl⟩) trivial rfl) rfl fun _ _ => ⟨rfl, rfl⟩
      split at advanced
      · cases advanced
      · cases advanced
        exact faithful.move here (fun _ => id)
          (safe.at (fun _ => ⟨rfl, rfl⟩) trivial rfl) rfl fun _ _ => ⟨rfl, rfl⟩
  | claim locals slot =>
      cases advanced
      exact faithful.claim here rfl allowed holds.1
  | launching locals stage => exact faithful.launching placed here rfl advanced
  | halting status cur parent stage => exact faithful.halting placed undisturbed here rfl advanced
  | haltRetLabel result =>
      cases advanced
      exact faithful.move here (fun _ => id)
        (safe.at (fun _ => ⟨rfl, rfl⟩) safe.carries rfl) rfl fun _ _ => ⟨rfl, rfl⟩
  | returned result eax =>
      cases advanced
      exact faithful.become (safe.at (fun _ => ⟨rfl, rfl⟩) safe.carries rfl) neighbours
        (fun other neighbour different there => ⟨fun _ => rfl,
          allowed other neighbour different there, fun _ _ => ⟨rfl, rfl⟩⟩) faithful.delivered
  | stored result =>
      cases advanced
      exact faithful.move here (fun _ => id)
        (safe.at (fun _ => ⟨rfl, rfl⟩) safe.carries rfl) rfl fun _ _ => ⟨rfl, rfl⟩
  | popped result =>
      cases advanced
      exact faithful.move here (fun _ => id)
        (safe.at (fun _ => ⟨rfl, rfl⟩) safe.carries rfl) rfl fun _ _ => ⟨rfl, rfl⟩
  | loaded result eax =>
      cases advanced
      refine faithful.become (safe.at (fun _ => ⟨rfl, rfl⟩) trivial rfl) neighbours
        (fun _ _ _ _ => ⟨fun _ => rfl, fun _ => rfl, fun _ _ => ⟨rfl, rfl⟩⟩) fun call member => ?_
      rcases List.mem_append.mp member with older | newest
      · exact faithful.delivered call older
      · obtain rfl := List.mem_singleton.mp newest
        exact safe.carries

theorem Thread.spill_eq (thread : Thread) {scratch : Word}
    (kept : ∀ eax, thread.inEax = some eax → scratch = eax) : thread.spill scratch = thread := by
  obtain ⟨pid, point, waiting⟩ := thread
  cases point with
  | returned result eax => rw [kept eax rfl]; rfl
  | loaded result eax => rw [kept eax rfl]; rfl
  | _ => rfl

theorem Thread.directory_mem (thread : Thread) : thread.directory ∈ thread.pids := by
  simp only [Thread.directory, Thread.pids]
  split
  case h_1 | h_7 => exact List.mem_cons_self
  all_goals
    rename_i waiting
    rw [waiting]
    exact List.mem_cons_of_mem _ List.mem_cons_self

/-- The `execute` of a new terminal saves its registers for a process that no
call is to come back to. -/
theorem Thread.directory_not_saved (distinct : thread.pids.Nodup) (hidden : ¬ thread.exposesCaller)
    {caller : WaitingCall} (member : caller ∈ thread.savedCallers) :
    caller.pid ≠ thread.directory := by
  have fresh : ∀ waits ∈ thread.waiting, waits.pid ≠ thread.pid := by
    intro waits inside same
    exact (List.nodup_cons.mp distinct).1 (same ▸ List.mem_map_of_mem inside)
  obtain ⟨pid, point, waiting⟩ := thread
  cases point with
  | launching locals stage =>
      cases stage with
      | load => exact absurd rfl hidden
      | enter => exact fresh caller member
      | schedule | setUp | save =>
          cases waiting with
          | nil => cases member
          | cons newest older =>
              have apart := (List.nodup_cons.mp (List.nodup_cons.mp distinct).2).1
              have behind : caller.pid ∈ older.map WaitingCall.pid := List.mem_map_of_mem member
              intro same
              rw [same] at behind
              exact apart behind
  | halting status cur parent stage =>
      cases stage with
      | free | close | stack | jump => exact absurd rfl hidden
      | _ => exact fresh caller member
  | _ => exact fresh caller member

theorem Machine.Faithful.startShell {target : TerminalId} {slot : Nat} (faithful : machine.Faithful)
    (unused : machine.StackUnused slot) : (machine.startShell target slot).Faithful := by
  have spared : (fun term => (machine.threads term).map (Thread.overrun · slot)) = machine.threads := by
    funext term
    cases here : machine.threads term with
    | none => rfl
    | some thread => simp only [Option.map_some, Thread.overrun, if_neg (unused term thread here)]
  unfold Machine.startShell
  rw [spared]
  refine faithful.become ⟨List.nodup_singleton slot, trivial, nofun⟩
    (fun other neighbour _ there pid inside => ?_)
    (fun _ _ _ _ => ⟨fun _ => rfl, fun _ => rfl, fun _ _ => ⟨rfl, rfl⟩⟩) faithful.delivered
  obtain rfl := List.mem_singleton.mp inside
  exact unused other neighbour there

theorem Machine.Faithful.interrupted {term : Int} {irq : IrqFrame} {frame : CallFrame}
    {tlb : TlbUse} {scratch : Word} (faithful : machine.Faithful)
    (placed : machine.Placed processes)
    (undisturbed : Undisturbed machine (.interrupt term irq frame tlb scratch))
    (here : machine.threads machine.kernel.oldTerminal = some thread)
    (running : thread.point ≠ .lost)
    (interrupted : Interrupted machine thread term irq frame scratch next) : next.Faithful := by
  have safe := faithful.safe _ _ here
  have allowed := undisturbed thread here
  cases interrupted with
  | ignored =>
      exact ⟨fun term thread there => (faithful.safe term thread there).transfer (fun _ => rfl)
        (fun _ => rfl) fun _ _ => ⟨rfl, rfl⟩, faithful.apart, faithful.delivered⟩
  | resumed isTerm resumed =>
      obtain ⟨kept, _⟩ := allowed _ isTerm resumed.different
      rw [thread.spill_eq kept]
      refine faithful.move here (fun _ => id) (safe.transfer (fun _ => resumed.currStatus)
        (fun _ => rfl) fun _ _ => ?_) resumed.currStatus fun _ _ => ?_
      · rw [resumed.pcb]
        exact ⟨rfl, rfl⟩
      · rw [resumed.pcb]
        exact ⟨rfl, rfl⟩
  | opened isTerm found opened =>
      obtain ⟨kept, whenNew⟩ := allowed _ isTerm opened.different
      obtain ⟨hidden, unused⟩ := whenNew opened.notInUse
      rw [thread.spill_eq kept]
      have current := (placed.fits _ _ here).directory running
      rw [Kernel.cr3Of, if_pos rfl] at current
      rename_i target slot after
      have stack : ∀ pid, pid ≠ thread.directory → (after.pcb pid).esp = (machine.kernel.pcb pid).esp ∧
          (after.pcb pid).ebp = (machine.kernel.pcb pid).ebp :=
        fun pid other => opened.stack pid fun same =>
          other (Outcome.done.inj (same.symm.trans current))
      have carries : thread.Carries after.currStatus machine.returnValue := by
        rw [opened.currStatus]
        exact safe.carries
      have left : (machine.become after thread).Faithful := by
        refine faithful.move here (fun _ => id) ⟨safe.distinct, carries, fun caller member => ?_⟩
          opened.currStatus fun pid outside => stack pid fun same => ?_
        · obtain ⟨esp, ebp⟩ :=
            stack caller.pid (Thread.directory_not_saved safe.distinct hidden member)
          rw [esp, ebp]
          exact safe.saved caller member
        · exact outside (same ▸ thread.directory_mem)
      refine left.startShell fun other neighbour there => ?_
      have before : machine.threads other = some neighbour := by
        simp only [Machine.become] at there
        rwa [← here, Function.update_eq_self] at there
      exact unused slot found other neighbour before

/-- A slot without a stack is free: the slots of live processes have one. -/
theorem Undisturbed.claimsFreeSlot {input : Input} (placed : machine.Placed processes)
    (undisturbed : Undisturbed machine input) : ClaimsFreeSlot machine input := by
  intro thread locals slot here claims isAdvance
  subst isAdvance
  have unused := undisturbed thread here
  simp only [claims] at unused
  have holds := (placed.fits _ _ here).locals
  simp only [Thread.Locals, claims] at holds
  refine holds.2.2.resolve_right fun live => ?_
  obtain ⟨owner, inside⟩ := live
  rw [placed.chain] at inside
  cases there : machine.threads owner with
  | none => simp [there] at inside
  | some neighbour =>
      rw [there] at inside
      refine unused owner neighbour there ?_
      have live : slot ∈ neighbour.live := inside
      unfold Thread.live at live
      split at live
      · exact List.mem_cons_of_mem _ live
      · exact live

theorem Machine.Faithful.step {input : Input} (faithful : machine.Faithful)
    (placed : machine.Placed processes) (undisturbed : Undisturbed machine input)
    (stepped : machine.step image input = some next) : next.Faithful := by
  obtain ⟨thread, here⟩ := placed.shown
  simp only [Machine.step, here] at stepped
  split at stepped
  · rename_i user
    exact faithful.call here user (Outcome.toOption_eq_some.mp stepped)
  · cases stepped
  · exact faithful.advance placed undisturbed here (Outcome.toOption_eq_some.mp stepped)
  · cases stepped
  · rename_i running
    exact faithful.interrupted placed undisturbed here running (interrupt_eq_some stepped)

theorem Machine.Faithful.start {first : Kernel} {slot : Nat} (returnValue : Word)
    (current : findProgramid first.cr3 = .done slot) : (Machine.start first returnValue).Faithful := by
  have threads : (Machine.start first returnValue).threads =
      Function.update (fun _ => none) first.oldTerminal (some ⟨slot, .user, []⟩) := by
    simp only [Machine.start, current, Outcome.toOption_done, Option.map_some]
  have only : ∀ term thread, (Machine.start first returnValue).threads term = some thread →
      term = first.oldTerminal ∧ thread = ⟨slot, .user, []⟩ := by
    intro term thread here
    rw [threads] at here
    by_cases same : term = first.oldTerminal
    · subst same
      rw [Function.update_self] at here
      exact ⟨rfl, (Option.some.inj here).symm⟩
    · rw [Function.update_of_ne same] at here
      cases here
  constructor
  · intro term thread here
    obtain ⟨_, rfl⟩ := only term thread here
    exact ⟨List.nodup_singleton slot, trivial, fun _ member => by cases member⟩
  · intro term other thread neighbour different here there
    exact absurd ((only term thread here).1.trans (only other neighbour there).1.symm) different
  · intro call member
    cases member

theorem Machine.Faithful.resultsArrive (faithful : machine.Faithful) : machine.ResultsArrive where
  delivered := faithful.delivered
  underway term thread here lost := by
    have carries := (faithful.safe term thread here).carries
    simp only [Thread.Carries, lost] at carries

end Ece391
