import Ece391.Interrupt.Effects
import Ece391.Process.Consistency

namespace Ece391

open Library Kernel

/-! # Where the processes are while they are interrupted

The live processes of the terminals are disjoint chains, linked by the task
table, as long as every slot that `execute` fills is still free at that moment.
-/

variable {image : Image} {kernel after : Kernel}

/-- The process whose page directory the code of a terminal runs with. -/
def Thread.directory (thread : Thread) : Nat :=
  match thread.point, thread.waiting with
  | .launching _ .enter, _ => thread.pid
  | .launching _ _, caller :: _ => caller.pid
  | .halting _ _ _ .free, caller :: _ => caller.pid
  | .halting _ _ _ .close, caller :: _ => caller.pid
  | .halting _ _ _ .stack, caller :: _ => caller.pid
  | .halting _ _ _ .jump, caller :: _ => caller.pid
  | _, _ => thread.pid

/-- What the holds of `execute` and `halt` hold. -/
def Thread.Locals (openTasks : Nat → Int) (processes : Forest TerminalId Nat) (thread : Thread) :
    Prop :=
  match thread.point with
  | .search locals i => locals.curProgramid = thread.pid ∧ 1 ≤ i ∧ i ≤ 7
  | .claim locals slot =>
      -- another `execute` may have filled the slot since it was tested
      locals.curProgramid = thread.pid ∧ (1 ≤ slot ∧ slot ≤ 7) ∧
        (openTasks slot = -1 ∨ slot ∈ processes)
  | .launching locals _ =>
      ∃ caller rest, thread.waiting = caller :: rest ∧ locals.curProgramid = caller.pid
  | .halting _ cur parent stage =>
      cur = thread.pid ∧
        ((thread.waiting = [] ∧ parent = 0 ∧ (stage = .status ∨ stage = .schedule)) ∨
          ∃ caller rest, thread.waiting = caller :: rest ∧ parent = caller.pid)
  | _ => True

structure Thread.Fits (openTasks : Nat → Int) (processes : Forest TerminalId Nat) (cr3 : Cr3)
    (thread : Thread) : Prop where
  directory : thread.point ≠ .lost → findProgramid cr3 = .done thread.directory
  locals : thread.Locals openTasks processes

/-- The live processes of the terminals and where the kernel has them. -/
structure Placed (kernel : Kernel) (threads : TerminalId → Option Thread)
    (processes : Forest TerminalId Nat) : Prop where
  chain : ∀ term, processes.chain term = ((threads term).map Thread.live).getD []
  claimed : ∀ pid ∈ processes, (1 ≤ pid ∧ pid ≤ 7) ∧ kernel.openTasks pid ≠ -1
  linked : ∀ term, Linked (fun child parent => kernel.openTasks child = parent)
    (fun pid => kernel.openTasks pid = 0) (processes.chain term)
  shown : ∃ thread, threads kernel.oldTerminal = some thread
  active : ∀ term, (kernel.terminals term).active ≠ 0 ↔ ∃ thread, threads term = some thread
  newterminalFlag : kernel.newterminalFlag = 0
  fits : ∀ term thread, threads term = some thread →
    thread.Fits kernel.openTasks processes (kernel.cr3Of term)

theorem Thread.Locals.mono {openTasks changed : Nat → Int} {processes grown : Forest TerminalId Nat}
    {thread : Thread} (locals : thread.Locals openTasks processes)
    (pending : ∀ slot, openTasks slot = -1 ∨ slot ∈ processes → changed slot = -1 ∨ slot ∈ grown) :
    thread.Locals changed grown := by
  unfold Thread.Locals at locals ⊢
  split at locals
  · exact locals
  · exact ⟨locals.1, locals.2.1, pending _ locals.2.2⟩
  · exact locals
  · exact locals
  · trivial

section Placed

variable {threads : TerminalId → Option Thread} {processes grown : Forest TerminalId Nat}
  {thread moved : Thread}

theorem Placed.chain_eq (placed : Placed kernel threads processes) {term : TerminalId}
    (here : threads term = some thread) : processes.chain term = thread.live := by
  rw [placed.chain, here]
  rfl

/-- A step of the shown terminal: what is to be shown of the other terminals is
that the slots their code is about to fill are still accounted for. -/
theorem Placed.become (placed : Placed kernel threads processes) (own : Own kernel after)
    (chain : grown.chain kernel.oldTerminal = moved.live)
    (others : ∀ term, term ≠ kernel.oldTerminal → grown.chain term = processes.chain term)
    (claimed : ∀ pid ∈ grown, (1 ≤ pid ∧ pid ≤ 7) ∧ after.openTasks pid ≠ -1)
    (linked : ∀ term, Linked (fun child parent => after.openTasks child = parent)
      (fun pid => after.openTasks pid = 0) (grown.chain term))
    (pending : ∀ slot, kernel.openTasks slot = -1 ∨ slot ∈ processes →
      after.openTasks slot = -1 ∨ slot ∈ grown)
    (fits : moved.Fits after.openTasks grown after.cr3) :
    Placed after (Function.update threads kernel.oldTerminal (some moved)) grown where
  chain term := by
    by_cases same : term = kernel.oldTerminal
    · subst same
      rw [Function.update_self, chain]
      rfl
    · rw [Function.update_of_ne same, others term same, placed.chain]
  claimed := claimed
  linked := linked
  shown := ⟨moved, by rw [own.oldTerminal, Function.update_self]⟩
  active term := by
    rw [own.active, placed.active]
    by_cases same : term = kernel.oldTerminal
    · subst same
      rw [Function.update_self]
      exact ⟨fun _ => ⟨moved, rfl⟩, fun _ => placed.shown⟩
    · rw [Function.update_of_ne same]
  newterminalFlag := own.newterminalFlag placed.newterminalFlag
  fits term thread here := by
    by_cases same : term = kernel.oldTerminal
    · subst same
      rw [Function.update_self] at here
      obtain rfl := Option.some.inj here
      rwa [Kernel.cr3Of, own.oldTerminal, if_pos rfl]
    · rw [Function.update_of_ne same] at here
      rw [own.cr3Of same]
      have older := placed.fits term thread here
      exact ⟨older.directory, older.locals.mono pending⟩

/-- A step that leaves the task table and the set of live processes alone. -/
theorem Placed.move (placed : Placed kernel threads processes)
    (here : threads kernel.oldTerminal = some thread) (own : Own kernel after)
    (openTasks : after.openTasks = kernel.openTasks) (live : moved.live = thread.live)
    (fits : moved.Fits kernel.openTasks processes after.cr3) :
    Placed after (Function.update threads kernel.oldTerminal (some moved)) processes := by
  refine placed.become own ?_ (fun _ _ => rfl) ?_ ?_ ?_ ?_
  · rw [live, placed.chain_eq here]
  · rw [openTasks]
    exact placed.claimed
  · rw [openTasks]
    exact placed.linked
  · rw [openTasks]
    exact fun _ => id
  · rw [openTasks]
    exact fits

/-- Another process takes a slot that no other live process has. -/
theorem Thread.live_overrun {slot : Nat} (thread : Thread) (fresh : slot ∉ thread.live) :
    (thread.overrun slot).live = thread.live := by
  unfold Thread.overrun
  split
  · rename_i inside
    cases freed : thread.freed with
    | true =>
        unfold Thread.live
        rw [freed]
        rfl
    | false =>
        have alive : slot ∈ thread.live := by
          simpa only [Thread.live, freed, Bool.false_eq_true, if_false] using inside
        exact absurd alive fresh
  · rfl

theorem Thread.Fits.overrun {openTasks : Nat → Int} {cr3 : Cr3} {slot : Nat}
    (fits : thread.Fits openTasks processes cr3) :
    (thread.overrun slot).Fits openTasks processes cr3 := by
  unfold Thread.overrun
  split
  · exact ⟨fun found => absurd rfl found, trivial⟩
  · exact fits

/-- Entering a slot harms none of the live processes of the other terminals. -/
theorem Placed.overrun {slot : Nat} {spared : TerminalId}
    (placed : Placed kernel threads processes) (alive : slot ∈ processes.chain spared) :
    Placed kernel (fun term => if term = spared then threads term
      else (threads term).map (Thread.overrun · slot)) processes := by
  have fresh : ∀ term thread, term ≠ spared → threads term = some thread → slot ∉ thread.live := by
    intro term thread other here inside
    rw [← placed.chain_eq here] at inside
    exact other (Forest.owner_unique inside alive)
  have present : ∀ term, (∃ thread, (if term = spared then threads term
      else (threads term).map (Thread.overrun · slot)) = some thread) ↔
      ∃ thread, threads term = some thread := by
    intro term
    split
    · rfl
    · cases threads term <;> simp
  refine ⟨fun term => ?_, placed.claimed, placed.linked, (present _).mpr placed.shown,
    fun term => (placed.active term).trans (present term).symm, placed.newterminalFlag,
    fun term moved here => ?_⟩
  · rw [placed.chain]
    split
    · rfl
    · rename_i other
      cases here : threads term with
      | none => rfl
      | some thread =>
          exact (thread.live_overrun (fresh term thread other here)).symm
  · split at here
    · exact placed.fits term moved here
    · obtain ⟨thread, there, rfl⟩ := Option.map_eq_some_iff.mp here
      exact (placed.fits term thread there).overrun

section Steps

variable {machine next : Machine}

/-- What holds of the machine whose parts `Placed` is about. -/
def Machine.Placed (machine : Machine) (processes : Forest TerminalId Nat) : Prop :=
  Ece391.Placed machine.kernel machine.threads processes

theorem Placed.call {request : Request} (placed : machine.Placed processes)
    (here : machine.threads machine.kernel.oldTerminal = some thread)
    (user : thread.point = .user) (called : machine.call image thread request = .done next) :
    next.Placed processes := by
  have directory := (placed.fits _ _ here).directory (by rw [user]; nofun)
  rw [Kernel.cr3Of, if_pos rfl] at directory
  have current : findProgramid machine.kernel.cr3 = .done thread.pid := by
    simpa only [Thread.directory, user] using directory
  have alive : thread.live = thread.pids := by simp [Thread.live, Thread.freed, user]
  cases request with
  | halt status =>
      obtain ⟨cur, found, returned⟩ := Outcome.bind_eq_done.mp called
      obtain rfl := Outcome.done.inj (found.symm.trans current)
      cases returned
      have linked := placed.linked machine.kernel.oldTerminal
      rw [placed.chain_eq here, alive, Thread.pids] at linked
      refine placed.move here (.refl _) rfl alive.symm ⟨fun _ => current, rfl, ?_⟩
      cases waits : thread.waiting with
      | nil =>
          rw [waits] at linked
          exact .inl ⟨rfl, linked, .inl rfl⟩
      | cons caller rest =>
          rw [waits] at linked
          exact .inr ⟨caller, rest, rfl, linked.1⟩
  | execute command frame =>
      obtain ⟨⟨locals, kernel⟩, beginning, returned⟩ := Outcome.bind_eq_done.mp called
      have begun := beginExecute_eq_done beginning
      obtain ⟨shellEntry, same⟩ := begun.state
      have sameTable : kernel.openTasks = machine.kernel.openTasks := by rw [same]
      have stays : findProgramid kernel.cr3 = .done thread.pid := by rw [same]; exact current
      cases locals with
      | none =>
          cases returned
          exact placed.move here begun.own sameTable alive.symm ⟨fun _ => stays, trivial⟩
      | some locals =>
          cases returned
          have caller := Outcome.done.inj ((begun.current locals rfl).symm.trans current)
          exact placed.move here begun.own sameTable alive.symm
            ⟨fun _ => stays, caller, by omega, by omega⟩
  | service service =>
      cases called
      exact placed.move here (.refl _) rfl alive.symm ⟨fun _ => current, trivial⟩
  | invalid =>
      cases called
      exact placed.move here (.refl _) rfl alive.symm ⟨fun _ => current, trivial⟩

/-- The slot that `execute` is about to fill has not been filled since it was
tested. -/
def ClaimsFreeSlot (machine : Machine) (input : Input) : Prop :=
  ∀ thread locals slot, machine.threads machine.kernel.oldTerminal = some thread →
    thread.point = .claim locals slot → input = .advance → machine.kernel.openTasks slot = -1

theorem Placed.claim {locals : ExecuteLocals} {slot : Nat}
    (placed : Placed kernel threads processes) (here : threads kernel.oldTerminal = some thread)
    (claims : thread.point = .claim locals slot) (free : kernel.openTasks slot = -1) :
    ∃ grown, Placed (kernel.claimSlot locals.curProgramid slot)
      (Function.update threads kernel.oldTerminal (some
        { pid := slot
          point := .launching locals .schedule
          waiting := ⟨thread.pid, locals.frame.esp, locals.frame.ebp⟩ :: thread.waiting })) grown := by
  have fits := placed.fits _ _ here
  have directory := fits.directory (by rw [claims]; nofun)
  rw [Kernel.cr3Of, if_pos rfl] at directory
  have holds := fits.locals
  simp only [Thread.Locals, claims] at holds
  obtain ⟨caller, range, _⟩ := holds
  have fresh : slot ∉ processes := fun member => (placed.claimed slot member).2 free
  have chain := placed.chain_eq here
  have alive : thread.live = thread.pids := by simp [Thread.live, Thread.freed, claims]
  have filled : (kernel.claimSlot locals.curProgramid slot).openTasks =
      Function.update kernel.openTasks slot locals.curProgramid := by
    simp only [claimSlot, placed.newterminalFlag]
    rfl
  refine ⟨processes.push kernel.oldTerminal slot fresh,
    placed.become (claimSlot_own _ _ _) ?_ ?_ ?_ ?_ ?_ ⟨fun _ => ?_, ?_⟩⟩
  · rw [Forest.push_chain_self, chain, alive]
    rfl
  · exact fun term other => Forest.push_chain_of_ne fresh other
  · intro pid member
    rw [filled]
    rcases (Forest.mem_push fresh).mp member with rfl | older
    · rw [Function.update_self]
      exact ⟨range, by omega⟩
    · have different : pid ≠ slot := fun same => fresh (same ▸ older)
      rw [Function.update_of_ne different]
      exact placed.claimed pid older
  · intro term
    rw [filled]
    refine linked_push placed.linked fresh (.inr ⟨thread.waiting.map WaitingCall.pid, ?_, rfl⟩) term
    rw [chain, alive, caller]
    rfl
  · intro other pending
    rw [filled]
    by_cases same : other = slot
    · exact .inr ((Forest.mem_push fresh).mpr (.inl same))
    · rw [Function.update_of_ne same]
      exact pending.imp_right fun older => (Forest.mem_push fresh).mpr (.inr older)
  · have current : findProgramid kernel.cr3 = .done thread.pid := by
      simpa only [Thread.directory, claims] using directory
    exact current
  · exact ⟨_, _, rfl, caller⟩

theorem Placed.launching {locals : ExecuteLocals} {stage : LaunchStage}
    (placed : machine.Placed processes)
    (here : machine.threads machine.kernel.oldTerminal = some thread)
    (launches : thread.point = .launching locals stage)
    (launched : machine.launching image thread locals stage = .done next) :
    next.Placed processes := by
  obtain ⟨kernel, staged, rest⟩ := Outcome.bind_eq_done.mp launched
  have effect := launchStage_eq_done staged
  have fits := placed.fits _ _ here
  have directory := fits.directory (by rw [launches]; nofun)
  rw [Kernel.cr3Of, if_pos rfl] at directory
  have holds := fits.locals
  simp only [Thread.Locals, launches] at holds
  obtain ⟨caller, others, waits, ofCaller⟩ := holds
  have alive : thread.live = thread.pids := by simp [Thread.live, Thread.freed, launches]
  cases stage with
  | enter =>
      cases rest
      have inside : thread.pid ∈ processes.chain machine.kernel.oldTerminal := by
        rw [placed.chain_eq here, alive]
        exact List.mem_cons_self ..
      have spared := Placed.overrun placed inside
      have overwritten : Function.update (fun term => (machine.threads term).map
            (Thread.overrun · thread.pid)) machine.kernel.oldTerminal
            (some { thread with point := .user }) =
          Function.update (fun term => if term = machine.kernel.oldTerminal then machine.threads term
            else (machine.threads term).map (Thread.overrun · thread.pid))
            machine.kernel.oldTerminal (some { thread with point := .user }) := by
        funext term
        by_cases same : term = machine.kernel.oldTerminal
        · subst same
          simp only [Function.update_self]
        · simp only [Function.update_of_ne same, if_neg same]
      have stays : findProgramid kernel.cr3 = .done thread.pid := by
        rw [effect.cr3 (by decide)]
        simpa only [Thread.directory, launches] using directory
      simp only [Machine.Placed, Machine.become]
      rw [overwritten]
      exact spared.move ((if_pos rfl).trans here) effect.toOwn effect.openTasks alive.symm
        ⟨fun _ => stays, trivial⟩
  | load =>
      cases rest
      exact placed.move here effect.toOwn effect.openTasks alive.symm
        ⟨fun _ => effect.loaded rfl, caller, others, waits, ofCaller⟩
  | schedule | setUp | save =>
      cases rest
      have stays : findProgramid kernel.cr3 = .done caller.pid := by
        rw [effect.cr3 (by decide)]
        simpa only [Thread.directory, launches, waits] using directory
      obtain ⟨pid, point, waiting⟩ := thread
      cases waits
      exact placed.move here effect.toOwn effect.openTasks alive.symm
        ⟨fun _ => stays, caller, others, rfl, ofCaller⟩

/-- `halt` comes back to the caller of `execute` or loses its way. -/
theorem Thread.jump_cases (thread : Thread) (status : Byte) (esp ebp : Word) :
    Machine.jump thread status esp ebp = { thread with point := .lost } ∨
      ∃ caller rest, thread.waiting = caller :: rest ∧ esp = caller.esp ∧ ebp = caller.ebp ∧
        Machine.jump thread status esp ebp =
          ⟨caller.pid, .haltRetLabel (BitVec.ofNat 32 status.toNat), rest⟩ := by
  simp only [Machine.jump]
  cases thread.waiting with
  | nil => exact .inl rfl
  | cons caller rest =>
      dsimp only
      split
      · rename_i same
        exact .inr ⟨caller, rest, rfl, same.1, same.2, rfl⟩
      · exact .inl rfl

theorem Placed.free {cur : Nat} {rest : List Nat} (placed : Placed kernel threads processes)
    (own : Own kernel after) (freed : after.openTasks = Function.update kernel.openTasks cur (-1))
    (leaf : processes.chain kernel.oldTerminal = cur :: rest) (live : moved.live = rest)
    (fits : moved.Fits after.openTasks (processes.pop kernel.oldTerminal) after.cr3) :
    Placed after (Function.update threads kernel.oldTerminal (some moved))
      (processes.pop kernel.oldTerminal) := by
  refine placed.become own ?_ (fun term other => Forest.pop_chain_of_ne other) ?_ ?_ ?_ fits
  · rw [Forest.pop_chain_self, leaf, live, List.tail_cons]
  · intro pid member
    obtain ⟨different, older⟩ := (Forest.mem_pop leaf).mp member
    rw [freed, Function.update_of_ne different]
    exact placed.claimed pid older
  · intro term
    rw [freed]
    exact linked_pop placed.linked leaf (-1) term
  · intro slot pending
    rw [freed]
    by_cases same : slot = cur
    · exact .inl (same ▸ Function.update_self ..)
    · rw [Function.update_of_ne same]
      exact pending.imp_right fun older => (Forest.mem_pop leaf).mpr ⟨same, older⟩

/-- Only the stage that loads the page of the parent changes the directory. -/
theorem HaltStep.stays {before after : Kernel} {status : Byte} {cur pid : Nat} {parent : Int}
    {stage : HaltStage} (effect : HaltStep before status cur parent stage after)
    (notPage : stage ≠ .page) (directory : findProgramid before.cr3 = .done pid) :
    findProgramid after.cr3 = .done pid := by
  rw [effect.cr3 notPage]
  exact directory

/-- Every stage but the one that frees the slot leaves the processes. -/
theorem Machine.Placed.staged {status : Byte} {cur : Nat} {parent : Int} {stage : HaltStage}
    (placed : machine.Placed processes)
    (here : machine.threads machine.kernel.oldTerminal = some thread)
    (effect : HaltStep machine.kernel status cur parent stage after) (keeps : stage ≠ .free)
    (live : moved.live = thread.live)
    (fits : moved.Fits machine.kernel.openTasks processes after.cr3) :
    (machine.become after moved).Placed processes :=
  placed.move here effect.toOwn (effect.openTasks keeps) live fits

/-- The jump goes back to the caller or is lost. -/
theorem Machine.Placed.jumped {status : Byte} {pid : Nat} {parent : Int} {caller : WaitingCall}
    {others : List WaitingCall} (placed : machine.Placed processes)
    (here : machine.threads machine.kernel.oldTerminal =
      some ⟨pid, .halting status pid parent .jump, caller :: others⟩)
    (effect : HaltStep machine.kernel status pid parent .jump after)
    (stays : findProgramid after.cr3 = .done caller.pid) (esp ebp : Word) :
    (machine.become after
      (Machine.jump ⟨pid, .halting status pid parent .jump, caller :: others⟩ status esp ebp)).Placed
        processes := by
  rcases Thread.jump_cases ⟨pid, .halting status pid parent .jump, caller :: others⟩ status esp ebp
    with lost | ⟨_, _, waits, _, _, back⟩
  · rw [lost]
    exact placed.staged here effect (by decide) rfl ⟨fun found => absurd rfl found, trivial⟩
  · cases waits
    rw [back]
    exact placed.staged here effect (by decide) rfl ⟨fun _ => stays, trivial⟩

theorem Placed.halting {status : Byte} {cur : Nat} {parent : Int} {stage : HaltStage}
    (placed : machine.Placed processes)
    (here : machine.threads machine.kernel.oldTerminal = some thread)
    (halts : thread.point = .halting status cur parent stage)
    (halted : machine.halting thread status cur parent stage = .done next) :
    ∃ grown, next.Placed grown := by
  obtain ⟨kernel, staged, rest⟩ := Outcome.bind_eq_done.mp halted
  have effect := haltStage_eq_done staged
  have fits := placed.fits _ _ here
  have directory := fits.directory (by rw [halts]; nofun)
  rw [Kernel.cr3Of, if_pos rfl] at directory
  have holds := fits.locals
  simp only [Thread.Locals, halts] at holds
  obtain ⟨rfl, family⟩ := holds
  have chain := placed.chain_eq here
  obtain ⟨pid, point, waiting⟩ := thread
  dsimp only at halts
  subst halts
  rcases family with ⟨rfl, rfl, early⟩ | ⟨caller, others, waits, ofCaller⟩
  · -- a root process goes back to its start
    rcases early with rfl | rfl
    · cases rest
      have stays : findProgramid kernel.cr3 = .done pid := effect.stays (by decide) directory
      exact ⟨_, placed.staged here effect (by decide) rfl
        ⟨fun _ => stays, rfl, .inl ⟨rfl, rfl, .inr rfl⟩⟩⟩
    · rw [if_pos ⟨rfl, rfl⟩] at rest
      cases rest
      have stays : findProgramid kernel.cr3 = .done pid := effect.stays (by decide) directory
      exact ⟨_, placed.staged here effect (by decide) rfl ⟨fun _ => stays, trivial⟩⟩
  · cases waits
    have member : caller.pid ∈ processes := by
      refine ⟨machine.kernel.oldTerminal, ?_⟩
      rw [chain]
      cases stage <;> simp [Thread.live, Thread.freed, Thread.pids]
    have notRoot : ¬ (stage = .schedule ∧ parent = 0) := by
      have range := (placed.claimed _ member).1
      omega
    rw [if_neg notRoot] at rest
    cases stage with
    | status | schedule | terminal =>
        cases rest
        have stays : findProgramid kernel.cr3 = .done pid := effect.stays (by decide) directory
        exact ⟨_, placed.staged here effect (by decide) rfl
          ⟨fun _ => stays, rfl, .inr ⟨caller, others, rfl, ofCaller⟩⟩⟩
    | page =>
        cases rest
        have loaded : findProgramid kernel.cr3 = .done caller.pid := by
          rw [pageDirectoryOf_findProgramid, ← ofCaller]
          exact effect.paged rfl
        exact ⟨_, placed.staged here effect (by decide) rfl
          ⟨fun _ => loaded, rfl, .inr ⟨caller, others, rfl, ofCaller⟩⟩⟩
    | close | stack =>
        cases rest
        have stays : findProgramid kernel.cr3 = .done caller.pid := effect.stays (by decide) directory
        exact ⟨_, placed.staged here effect (by decide) rfl
          ⟨fun _ => stays, rfl, .inr ⟨caller, others, rfl, ofCaller⟩⟩⟩
    | jump =>
        cases rest
        have stays : findProgramid kernel.cr3 = .done caller.pid := effect.stays (by decide) directory
        exact ⟨processes, placed.jumped here effect stays _ _⟩
    | free =>
        cases rest
        have stays : findProgramid kernel.cr3 = .done caller.pid := effect.stays (by decide) directory
        exact ⟨_, placed.free effect.toOwn (effect.freed rfl) chain rfl
          ⟨fun _ => stays, rfl, .inr ⟨caller, others, rfl, ofCaller⟩⟩⟩

/-- Moving on inside a handler or the wrapper, without a word about CR3 or the
task table. -/
theorem Placed.quietMove (placed : Placed kernel threads processes)
    (here : threads kernel.oldTerminal = some thread) (quiet : Quiet kernel after)
    (samePid : moved.pid = thread.pid) (sameWaiting : moved.waiting = thread.waiting)
    (running : findProgramid kernel.cr3 = .done thread.pid) (alive : thread.freed = false)
    (plain : moved.freed = false ∧ moved.directory = moved.pid ∧
      moved.Locals kernel.openTasks processes) :
    Placed after (Function.update threads kernel.oldTerminal (some moved)) processes := by
  obtain ⟨stillAlive, directory, locals⟩ := plain
  refine placed.move here (.ofQuiet quiet) quiet.openTasks ?_ ⟨fun _ => ?_, locals⟩
  · simp only [Thread.live, alive, stillAlive, Thread.pids, samePid, sameWaiting]
  · rw [quiet.cr3, directory, samePid]
    exact running

theorem Placed.advance (placed : machine.Placed processes)
    (here : machine.threads machine.kernel.oldTerminal = some thread)
    (allowed : ClaimsFreeSlot machine .advance)
    (advanced : machine.advance image thread = .done next) : ∃ grown, next.Placed grown := by
  have fits := placed.fits _ _ here
  have directory := fits.directory
  rw [Kernel.cr3Of, if_pos rfl] at directory
  have holds := fits.locals
  have free := fun locals slot at_claim => allowed thread locals slot here at_claim rfl
  obtain ⟨pid, point, waiting⟩ := thread
  cases point with
  | user => cases advanced
  | lost => cases advanced
  | handler service =>
      obtain ⟨⟨value, kernel⟩, serving, returned⟩ := Outcome.bind_eq_done.mp advanced
      cases returned
      exact ⟨_, placed.quietMove here (serve_quiet serving) rfl rfl (directory (by simp)) rfl
        ⟨rfl, rfl, trivial⟩⟩
  | search locals i =>
      obtain ⟨caller, low, high⟩ := holds
      simp only [Machine.advance] at advanced
      split at advanced
      · rename_i isFree
        cases advanced
        exact ⟨_, placed.quietMove here (.refl _) rfl rfl (directory (by simp)) rfl
          ⟨rfl, rfl, caller, ⟨low, high⟩, .inl isFree⟩⟩
      split at advanced
      · cases advanced
      · cases advanced
        exact ⟨_, placed.quietMove here (.refl _) rfl rfl (directory (by simp)) rfl
          ⟨rfl, rfl, caller, by omega, by omega⟩⟩
  | claim locals slot =>
      cases advanced
      exact Placed.claim placed here rfl (free locals slot rfl)
  | launching locals stage => exact ⟨_, Placed.launching placed here rfl advanced⟩
  | halting status cur parent stage => exact Placed.halting placed here rfl advanced
  | haltRetLabel result =>
      cases advanced
      exact ⟨_, placed.quietMove here (.refl _) rfl rfl (directory (by simp)) rfl ⟨rfl, rfl, trivial⟩⟩
  | returned result eax =>
      cases advanced
      exact ⟨_, placed.quietMove here (.refl _) rfl rfl (directory (by simp)) rfl ⟨rfl, rfl, trivial⟩⟩
  | stored result =>
      cases advanced
      exact ⟨_, placed.quietMove here (.refl _) rfl rfl (directory (by simp)) rfl ⟨rfl, rfl, trivial⟩⟩
  | popped result =>
      cases advanced
      exact ⟨_, placed.quietMove here (.refl _) rfl rfl (directory (by simp)) rfl ⟨rfl, rfl, trivial⟩⟩
  | loaded result eax =>
      cases advanced
      exact ⟨_, placed.quietMove here (.refl _) rfl rfl (directory (by simp)) rfl ⟨rfl, rfl, trivial⟩⟩

@[simp] theorem Thread.live_spill (thread : Thread) (scratch : Word) :
    (thread.spill scratch).live = thread.live := by
  obtain ⟨pid, point, waiting⟩ := thread
  cases point <;> rfl

theorem Thread.Fits.spill {openTasks : Nat → Int} {cr3 : Cr3}
    (fits : thread.Fits openTasks processes cr3) (scratch : Word) :
    (thread.spill scratch).Fits openTasks processes cr3 := by
  obtain ⟨pid, point, waiting⟩ := thread
  cases point with
  | returned result eax => exact ⟨fun _ => fits.directory nofun, trivial⟩
  | loaded result eax => exact ⟨fun _ => fits.directory nofun, trivial⟩
  | _ => exact fits

/-- The terminal that is left keeps all but the value in EAX. -/
theorem Placed.spill (placed : Placed kernel threads processes)
    (here : threads kernel.oldTerminal = some thread) (scratch : Word) :
    Placed kernel (Function.update threads kernel.oldTerminal (some (thread.spill scratch)))
      processes := by
  refine placed.move here (.refl kernel) rfl (thread.live_spill scratch) ?_
  have fits := (placed.fits _ _ here).spill scratch
  rwa [Kernel.cr3Of, if_pos rfl] at fits

theorem Placed.resumed {irq : IrqFrame} {target : TerminalId}
    (placed : Placed kernel threads processes) (resumed : Resumed kernel irq target after) :
    Placed after threads processes where
  chain := placed.chain
  claimed := by rw [resumed.openTasks]; exact placed.claimed
  linked := by rw [resumed.openTasks]; exact placed.linked
  shown := by
    rw [resumed.oldTerminal]
    exact (placed.active target).mp resumed.inUse
  active term := by rw [resumed.active]; exact placed.active term
  newterminalFlag := resumed.newterminalFlag placed.newterminalFlag
  fits term thread here := by
    have sameCr3 : after.cr3Of term = kernel.cr3Of term := by
      by_cases same : term = target
      · rw [same, resumed.targetCr3]
      · exact resumed.cr3Of term same
    rw [resumed.openTasks, sameCr3]
    exact placed.fits term thread here

theorem Placed.opened {irq : IrqFrame} {frame : CallFrame} {target : TerminalId} {slot : Nat}
    (placed : Placed kernel threads processes) (opened : Opened kernel irq frame target slot after) :
    ∃ grown, Placed after (Function.update (fun other => (threads other).map (Thread.overrun · slot))
      target (some ⟨slot, .user, []⟩)) grown := by
  have fresh : slot ∉ processes := fun member => (placed.claimed slot member).2 opened.free
  have absent : threads target = none := by
    cases here : threads target with
    | none => rfl
    | some thread => exact absurd opened.notInUse ((placed.active target).mpr ⟨thread, here⟩)
  have noChain : processes.chain target = [] := by rw [placed.chain, absent]; rfl
  have filled := opened.openTasks
  refine ⟨processes.push target slot fresh, fun term => ?_, fun pid member => ?_, fun term => ?_,
    ?_, fun term => ?_, opened.newterminalFlag placed.newterminalFlag, fun term moved here => ?_⟩
  · by_cases same : term = target
    · subst same
      rw [Forest.push_chain_self, noChain, Function.update_self]
      rfl
    · rw [Forest.push_chain_of_ne fresh same, Function.update_of_ne same, placed.chain]
      cases here : threads term with
      | none => rfl
      | some thread =>
          refine (thread.live_overrun fun inside => fresh ⟨term, ?_⟩).symm
          rwa [placed.chain_eq here]
  · rw [filled]
    rcases (Forest.mem_push fresh).mp member with rfl | older
    · rw [Function.update_self]
      have range := opened.range
      omega
    · have different : pid ≠ slot := fun same => fresh (same ▸ older)
      rw [Function.update_of_ne different]
      exact placed.claimed pid older
  · have asRoot : (processes.chain target = [] ∧ (0 : Int) = 0) ∨
        ∃ rest, processes.chain target = 0 :: rest ∧ (0 : Int) = (0 : Nat) := .inl ⟨noChain, rfl⟩
    rw [filled]
    exact linked_push placed.linked fresh asRoot term
  · exact ⟨_, by rw [opened.oldTerminal, Function.update_self]⟩
  · by_cases same : term = target
    · subst same
      rw [opened.targetActive, Function.update_self]
      simp
    · rw [opened.active term same, Function.update_of_ne same, placed.active]
      cases threads term <;> simp
  · by_cases same : term = target
    · subst same
      rw [Function.update_self] at here
      obtain rfl := Option.some.inj here
      exact ⟨fun _ => opened.targetCr3, trivial⟩
    · rw [Function.update_of_ne same] at here
      obtain ⟨thread, there, rfl⟩ := Option.map_eq_some_iff.mp here
      have older := placed.fits term thread there
      rw [opened.cr3Of term same]
      refine Thread.Fits.overrun ⟨older.directory, older.locals.mono fun other pending => ?_⟩
      rw [filled]
      by_cases taken : other = slot
      · exact .inr ((Forest.mem_push fresh).mpr (.inl taken))
      · rw [Function.update_of_ne taken]
        exact pending.imp_right fun member => (Forest.mem_push fresh).mpr (.inr member)

theorem Placed.interrupted {term : Int} {irq : IrqFrame} {frame : CallFrame} {scratch : Word}
    (placed : machine.Placed processes)
    (here : machine.threads machine.kernel.oldTerminal = some thread)
    (interrupted : Interrupted machine thread term irq frame scratch next) :
    ∃ grown, next.Placed grown := by
  cases interrupted with
  | ignored =>
      exact ⟨_, placed.chain, placed.claimed, placed.linked, placed.shown, placed.active,
        placed.newterminalFlag, placed.fits⟩
  | resumed isTerm resumed => exact ⟨_, Placed.resumed (placed.spill here scratch) resumed⟩
  | opened isTerm found opened => exact Placed.opened (placed.spill here scratch) opened

theorem Placed.step {input : Input} (placed : machine.Placed processes)
    (allowed : ClaimsFreeSlot machine input) (stepped : machine.step image input = some next) :
    ∃ grown, next.Placed grown := by
  obtain ⟨thread, here⟩ := placed.shown
  simp only [Machine.step, here] at stepped
  split at stepped
  · rename_i user
    exact ⟨_, Placed.call placed here user (Outcome.toOption_eq_some.mp stepped)⟩
  · cases stepped
  · exact Placed.advance placed here allowed (Outcome.toOption_eq_some.mp stepped)
  · cases stepped
  · exact Placed.interrupted placed here (interrupt_eq_some stepped)

theorem Placed.start {first : Kernel} (started : FirstShell image first) (returnValue : Word) :
    ∃ processes, (Machine.start first returnValue).Placed processes := by
  obtain ⟨memory, frame, slot, launched⟩ := started.launched
  have fresh : slot ∉ (Forest.empty : Forest TerminalId Nat) := Forest.not_mem_empty slot
  have shown : first.oldTerminal = 0 := launched.oldTerminal.trans (boot_oldTerminal memory)
  have filled : first.openTasks = Function.update (boot memory).openTasks slot 0 := by
    rw [launched.openTasks, boot_newterminalFlag]
    rfl
  have threads : (Machine.start first returnValue).threads =
      Function.update (fun _ => none) first.oldTerminal (some ⟨slot, .user, []⟩) := by
    simp only [Machine.start, launched.cr3, Outcome.toOption_done, Option.map_some]
  have asRoot : ((Forest.empty : Forest TerminalId Nat).chain first.oldTerminal = [] ∧ (0 : Int) = 0) ∨
      ∃ rest, (Forest.empty : Forest TerminalId Nat).chain first.oldTerminal = 0 :: rest ∧
        (0 : Int) = (0 : Nat) := .inl ⟨rfl, rfl⟩
  simp only [Machine.Placed]
  rw [threads]
  refine ⟨Forest.empty.push first.oldTerminal slot fresh, fun term => ?_, fun pid member => ?_,
    fun term => ?_, ⟨_, Function.update_self ..⟩, fun term => ?_, ?_, fun term thread here => ?_⟩
  · by_cases same : term = first.oldTerminal
    · subst same
      rw [Forest.push_chain_self, Function.update_self]
      rfl
    · rw [Forest.push_chain_of_ne fresh same, Function.update_of_ne same]
      rfl
  · rcases (Forest.mem_push fresh).mp member with rfl | older
    · have range := launched.slot_range
      simp only [Machine.start, filled, Function.update_self]
      omega
    · exact absurd older (Forest.not_mem_empty pid)
  · have noLinks : ∀ other, Linked (fun child parent => (boot memory).openTasks child = parent)
        (fun pid => (boot memory).openTasks pid = 0)
        ((Forest.empty : Forest TerminalId Nat).chain other) := fun _ => trivial
    simp only [Machine.start, filled]
    exact linked_push noLinks fresh asRoot term
  · simp only [Machine.start, launched.terminals, boot_oldTerminal, shown]
    by_cases same : term = 0
    · subst same
      simp [initialTerminal]
    · simp [initialTerminal, same]
  · simp only [Machine.start, launched.newterminalFlag, boot_newterminalFlag]
    rfl
  · by_cases same : term = first.oldTerminal
    · subst same
      rw [Function.update_self] at here
      obtain rfl := Option.some.inj here
      refine ⟨fun _ => ?_, trivial⟩
      simp only [Machine.start, Kernel.cr3Of, if_true]
      exact launched.cr3
    · rw [Function.update_of_ne same] at here
      cases here

end Steps

end Placed

end Ece391
