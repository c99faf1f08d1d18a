import Ece391.Library.Forest
import Ece391.Process.Starting
import Ece391.Process.Calls

namespace Ece391

open Library

/-! # Who is running on which terminal

The abstract state is a `Forest` of pids: one chain of processes for each
terminal, the newest first.  `Consistent` ties to it the four places where the
kernel keeps track of the running process: the task table, `program_id`, CR3
and the kernel stack in the TSS.
-/

/-- The task table is the parent relation of the chains. -/
structure Chains (openTasks : Nat → Int) (processes : Forest TerminalId Nat) : Prop where
  live : ∀ pid, 1 ≤ pid → pid ≤ 6 → (openTasks pid ≠ -1 ↔ pid ∈ processes)
  range : ∀ pid ∈ processes, 1 ≤ pid ∧ pid ≤ 6
  linked : ∀ term, Linked (fun child parent => openTasks child = parent)
    (fun pid => openTasks pid = 0) (processes.chain term)

/-- Every terminal in use shows the newest process of its chain. -/
structure Consistent (kernel : Kernel) (processes : Forest TerminalId Nat) : Prop
    extends Chains kernel.openTasks processes where
  active : ∀ term, (kernel.terminals term).active ≠ 0 ↔ processes.chain term ≠ []
  leaf : ∀ term pid, (processes.chain term).head? = some pid →
    (kernel.terminals term).programId = pid
  shown : (kernel.terminals kernel.oldTerminal).active ≠ 0
  current : pageDirectoryOf (kernel.terminals kernel.oldTerminal).programId = some kernel.cr3
  stack : kernel.tssEsp0 = stackTop (kernel.terminals kernel.oldTerminal).programId
  saved : ∀ term, (kernel.terminals term).active ≠ 0 → term ≠ kernel.oldTerminal →
    pageDirectoryOf (kernel.terminals term).programId = some (kernel.terminals term).cr3
  newterminalFlag : kernel.newterminalFlag = 0

/-- Between two terminals: the one left has been saved like all the others. -/
structure Suspended (kernel : Kernel) (processes : Forest TerminalId Nat) : Prop
    extends Chains kernel.openTasks processes where
  active : ∀ term, (kernel.terminals term).active ≠ 0 ↔ processes.chain term ≠ []
  leaf : ∀ term pid, (processes.chain term).head? = some pid →
    (kernel.terminals term).programId = pid
  saved : ∀ term, (kernel.terminals term).active ≠ 0 →
    pageDirectoryOf (kernel.terminals term).programId = some (kernel.terminals term).cr3
  newterminalFlag : kernel.newterminalFlag = 0

/-- What `execute` needs of the state to give the shown terminal a new leaf:
it is in use, and its chain is either that of the caller or still empty. -/
structure Launchable (kernel : Kernel) (processes : Forest TerminalId Nat) (cur : Nat) : Prop
    extends Chains kernel.openTasks processes where
  shown : (kernel.terminals kernel.oldTerminal).active ≠ 0
  active : ∀ term, term ≠ kernel.oldTerminal →
    ((kernel.terminals term).active ≠ 0 ↔ processes.chain term ≠ [])
  leaf : ∀ term, term ≠ kernel.oldTerminal → ∀ pid, (processes.chain term).head? = some pid →
    (kernel.terminals term).programId = pid
  saved : ∀ term, (kernel.terminals term).active ≠ 0 → term ≠ kernel.oldTerminal →
    pageDirectoryOf (kernel.terminals term).programId = some (kernel.terminals term).cr3
  place : (processes.chain kernel.oldTerminal = [] ∧
      (kernel.newterminalFlag = 1 ∨ kernel.newterminalFlag = 0 ∧ cur = 0)) ∨
    (kernel.newterminalFlag = 0 ∧ ∃ rest, processes.chain kernel.oldTerminal = cur :: rest)

section Chains

variable {openTasks : Nat → Int} {processes : Forest TerminalId Nat} {owner : TerminalId}
  {slot cur : Nat}

theorem Chains.fresh (chains : Chains openTasks processes) (low : 1 ≤ slot) (high : slot ≤ 6)
    (free : openTasks slot = -1) : slot ∉ processes :=
  fun member => (chains.live slot low high).mpr member free

/-- A filled slot links to the newest process of its chain, or is a root. -/
theorem linked_push
    (linked : ∀ term, Linked (fun child parent => openTasks child = parent)
      (fun pid => openTasks pid = 0) (processes.chain term))
    (fresh : slot ∉ processes) {value : Int}
    (place : (processes.chain owner = [] ∧ value = 0) ∨
      ∃ rest, processes.chain owner = cur :: rest ∧ value = cur) (term : TerminalId) :
    Linked (fun child parent => Function.update openTasks slot value child = parent)
      (fun pid => Function.update openTasks slot value pid = 0)
      ((processes.push owner slot fresh).chain term) := by
  have older : ∀ other, Linked
      (fun child parent => Function.update openTasks slot value child = parent)
      (fun pid => Function.update openTasks slot value pid = 0) (processes.chain other) := by
    intro other
    have apart : ∀ pid ∈ processes.chain other, pid ≠ slot :=
      fun pid member same => fresh ⟨other, same ▸ member⟩
    apply (linked other).congr
    · intro child childMem parent _ link
      rwa [Function.update_of_ne (apart child childMem)]
    · intro pid member root
      rwa [Function.update_of_ne (apart pid member)]
  by_cases same : term = owner
  · subst same
    rw [Forest.push_chain_self fresh]
    rcases place with ⟨empty, rfl⟩ | ⟨rest, chain, rfl⟩
    · rw [empty]
      exact Function.update_self ..
    · have below := older term
      rw [chain] at below ⊢
      exact ⟨Function.update_self .., below⟩
  · rw [Forest.push_chain_of_ne fresh same]
    exact older term

/-- Dropping a leaf breaks no link of the others. -/
theorem linked_pop
    (linked : ∀ term, Linked (fun child parent => openTasks child = parent)
      (fun pid => openTasks pid = 0) (processes.chain term))
    {rest : List Nat} (leaf : processes.chain owner = cur :: rest) (value : Int)
    (term : TerminalId) :
    Linked (fun child parent => Function.update openTasks cur value child = parent)
      (fun pid => Function.update openTasks cur value pid = 0)
      ((processes.pop owner).chain term) := by
  have apart : ∀ pid ∈ (processes.pop owner).chain term, pid ≠ cur :=
    fun pid member => ((Forest.mem_pop leaf).mp ⟨term, member⟩).1
  have older : Linked (fun child parent => openTasks child = parent)
      (fun pid => openTasks pid = 0) ((processes.pop owner).chain term) := by
    by_cases same : term = owner
    · subst same
      rw [Forest.pop_chain_self, leaf]
      exact (leaf ▸ linked term).tail
    · rw [Forest.pop_chain_of_ne same]
      exact linked term
  apply older.congr
  · intro child childMem parent _ link
    rwa [Function.update_of_ne (apart child childMem)]
  · intro pid member root
    rwa [Function.update_of_ne (apart pid member)]

/-- Filling a free slot adds a leaf to a chain. -/
theorem Chains.push (chains : Chains openTasks processes) (low : 1 ≤ slot) (high : slot ≤ 6)
    (fresh : slot ∉ processes) {value : Int}
    (place : (processes.chain owner = [] ∧ value = 0) ∨
      ∃ rest, processes.chain owner = cur :: rest ∧ value = cur) :
    Chains (Function.update openTasks slot value) (processes.push owner slot fresh) where
  live pid pidLow pidHigh := by
    rw [Forest.mem_push fresh]
    by_cases same : pid = slot
    · subst same
      rw [Function.update_self]
      refine ⟨fun _ => .inl rfl, fun _ => ?_⟩
      rcases place with ⟨_, rfl⟩ | ⟨_, _, rfl⟩ <;> omega
    · rw [Function.update_of_ne same, chains.live pid pidLow pidHigh]
      exact ⟨.inr, fun member => member.resolve_left same⟩
  range pid member := by
    rcases (Forest.mem_push fresh).mp member with rfl | older
    · exact ⟨low, high⟩
    · exact chains.range pid older
  linked := linked_push chains.linked fresh place

/-- Freeing the slot of a leaf drops it from its chain. -/
theorem Chains.pop (chains : Chains openTasks processes) {rest : List Nat}
    (leaf : processes.chain owner = cur :: rest) :
    Chains (Function.update openTasks cur (-1)) (processes.pop owner) where
  live pid low high := by
    rw [Forest.mem_pop leaf]
    by_cases same : pid = cur
    · subst same
      simp only [Function.update_self, ne_eq, not_true_eq_false, false_and]
    · rw [Function.update_of_ne same, chains.live pid low high]
      simp only [ne_eq, same, not_false_eq_true, true_and]
  range pid member := chains.range pid ((Forest.mem_pop leaf).mp member).2
  linked := linked_pop chains.linked leaf (-1)

end Chains

open Kernel

variable {image : Image} {kernel shown after : Kernel} {processes : Forest TerminalId Nat}
  {frame : CallFrame} {cur slot : Nat} {target : TerminalId}

/-- The process CR3 names is the newest one of the shown terminal. -/
theorem Consistent.currentLeaf (consistent : Consistent kernel processes)
    (current : findProgramid kernel.cr3 = .done cur) :
    ∃ rest, processes.chain kernel.oldTerminal = cur :: rest := by
  cases chain : processes.chain kernel.oldTerminal with
  | nil => exact absurd chain ((consistent.active _).mp consistent.shown)
  | cons pid rest =>
      have shows := consistent.leaf kernel.oldTerminal pid (by rw [chain]; rfl)
      have ofLeaf := consistent.current
      rw [shows] at ofLeaf
      obtain rfl : pid = cur :=
        pageDirectoryOf_injective ofLeaf (pageDirectoryOf_findProgramid.mp current)
      exact ⟨rest, rfl⟩

theorem Consistent.launchable (consistent : Consistent kernel processes)
    (current : findProgramid kernel.cr3 = .done cur) : Launchable kernel processes cur where
  toChains := consistent.toChains
  shown := consistent.shown
  active term _ := consistent.active term
  leaf term _ := consistent.leaf term
  saved := consistent.saved
  place := .inr ⟨consistent.newterminalFlag, consistent.currentLeaf current⟩

/-- Nothing the invariant speaks of changes in a quiet step. -/
theorem Consistent.quiet (consistent : Consistent kernel processes)
    (quiet : Quiet kernel after) : Consistent after processes where
  toChains := by rw [quiet.openTasks]; exact consistent.toChains
  active term := by rw [quiet.terminals]; exact consistent.active term
  leaf term pid := by rw [quiet.terminals]; exact consistent.leaf term pid
  shown := by rw [quiet.terminals, quiet.oldTerminal]; exact consistent.shown
  current := by rw [quiet.terminals, quiet.oldTerminal, quiet.cr3]; exact consistent.current
  stack := by rw [quiet.terminals, quiet.oldTerminal, quiet.tssEsp0]; exact consistent.stack
  saved term := by rw [quiet.terminals, quiet.oldTerminal]; exact consistent.saved term
  newterminalFlag := quiet.newterminalFlag.trans consistent.newterminalFlag

theorem Launchable.launched (launchable : Launchable kernel processes cur)
    (launched : Launched kernel frame cur slot after) :
    ∃ fresh, Consistent after (processes.push kernel.oldTerminal slot fresh) := by
  obtain ⟨low, high⟩ := launched.slot_range
  have fresh := launchable.fresh low high launched.slot_free
  have shows : after.terminals kernel.oldTerminal =
      { kernel.terminals kernel.oldTerminal with programId := slot } := by
    rw [launched.terminals, Function.update_self]
  have others : ∀ term, term ≠ kernel.oldTerminal →
      after.terminals term = kernel.terminals term := by
    intro term other
    rw [launched.terminals, Function.update_of_ne other]
  have newPlace : (processes.chain kernel.oldTerminal = [] ∧
        (if kernel.newterminalFlag = 1 then 0 else (cur : Int)) = 0) ∨
      ∃ rest, processes.chain kernel.oldTerminal = cur :: rest ∧
        (if kernel.newterminalFlag = 1 then 0 else (cur : Int)) = cur := by
    rcases launchable.place with ⟨empty, fromSwitch | ⟨unset, fromKernel⟩⟩ | ⟨unset, rest, chain⟩
    · exact .inl ⟨empty, if_pos fromSwitch⟩
    · exact .inl ⟨empty, by rw [fromKernel]; split <;> rfl⟩
    · exact .inr ⟨rest, chain, if_neg (by omega)⟩
  refine ⟨fresh, ?_, ?_, ?_, ?_, ?_, ?_, ?_, ?_⟩
  · rw [launched.openTasks]
    exact launchable.push low high fresh newPlace
  · intro term
    by_cases same : term = kernel.oldTerminal
    · subst same
      rw [shows, Forest.push_chain_self fresh]
      exact ⟨fun _ => List.cons_ne_nil _ _, fun _ => launchable.shown⟩
    · rw [others term same, Forest.push_chain_of_ne fresh same]
      exact launchable.active term same
  · intro term pid newest
    by_cases same : term = kernel.oldTerminal
    · subst same
      rw [Forest.push_chain_self fresh, List.head?_cons, Option.some.injEq] at newest
      rw [shows, newest]
    · rw [Forest.push_chain_of_ne fresh same] at newest
      rw [others term same]
      exact launchable.leaf term same pid newest
  · rw [launched.oldTerminal, shows]
    exact launchable.shown
  · rw [launched.oldTerminal, shows]
    exact pageDirectoryOf_findProgramid.mp launched.cr3
  · rw [launched.oldTerminal, shows]
    exact launched.tssEsp0
  · intro term active other
    rw [launched.oldTerminal] at other
    rw [others term other] at active ⊢
    exact launchable.saved term active other
  · rw [launched.newterminalFlag]
    rcases launchable.place with ⟨_, fromSwitch | ⟨unset, _⟩⟩ | ⟨unset, _⟩
    · rw [if_pos fromSwitch]
    · rw [unset]; rfl
    · rw [unset]; rfl

theorem Consistent.left {status : Byte} {parent : Nat} (consistent : Consistent kernel processes)
    (left : Left kernel status cur parent after) :
    Consistent after (processes.pop kernel.oldTerminal) := by
  obtain ⟨rest, chain⟩ := consistent.currentLeaf left.current
  have shows : after.terminals kernel.oldTerminal =
      { kernel.terminals kernel.oldTerminal with programId := parent } := by
    rw [left.terminals, Function.update_self]
  have others : ∀ term, term ≠ kernel.oldTerminal →
      after.terminals term = kernel.terminals term := by
    intro term other
    rw [left.terminals, Function.update_of_ne other]
  -- the process has a parent, which is therefore the next one of the chain
  obtain ⟨older, below⟩ : ∃ older, rest = parent :: older := by
    have linked := consistent.linked kernel.oldTerminal
    rw [chain] at linked
    cases rest with
    | nil =>
        have root : kernel.openTasks cur = 0 := linked
        rw [left.parentTask] at root
        exact absurd (Int.natCast_eq_zero.mp root) left.notRoot
    | cons next older =>
        have link : kernel.openTasks cur = next := linked.1
        rw [left.parentTask] at link
        exact ⟨older, by rw [Int.natCast_inj.mp link]⟩
  have remaining : (processes.pop kernel.oldTerminal).chain kernel.oldTerminal = parent :: older := by
    rw [Forest.pop_chain_self, chain, List.tail_cons, below]
  refine ⟨?_, ?_, ?_, ?_, ?_, ?_, ?_, ?_⟩
  · rw [left.openTasks]
    exact consistent.pop chain
  · intro term
    by_cases same : term = kernel.oldTerminal
    · subst same
      rw [shows, remaining]
      exact ⟨fun _ => List.cons_ne_nil _ _, fun _ => consistent.shown⟩
    · rw [others term same, Forest.pop_chain_of_ne same]
      exact consistent.active term
  · intro term pid newest
    by_cases same : term = kernel.oldTerminal
    · subst same
      rw [remaining, List.head?_cons, Option.some.injEq] at newest
      rw [shows, newest]
    · rw [Forest.pop_chain_of_ne same] at newest
      rw [others term same]
      exact consistent.leaf term pid newest
  · rw [left.oldTerminal, shows]
    exact consistent.shown
  · rw [left.oldTerminal, shows]
    exact pageDirectoryOf_findProgramid.mp left.cr3
  · rw [left.oldTerminal, shows]
    exact left.tssEsp0
  · intro term active other
    rw [left.oldTerminal] at other
    rw [others term other] at active ⊢
    exact consistent.saved term active other
  · exact left.newterminalFlag.trans consistent.newterminalFlag

theorem Consistent.restarted {status : Byte} (consistent : Consistent kernel processes)
    (restarted : Restarted kernel status cur after) : Consistent after processes := by
  rw [restarted.state]
  exact ⟨consistent.toChains, consistent.active, consistent.leaf, consistent.shown,
    consistent.current, consistent.stack, consistent.saved, consistent.newterminalFlag⟩

/-- Saving the shown terminal makes it one like all the others. -/
theorem Consistent.suspended {irq : IrqFrame} (consistent : Consistent kernel processes)
    (leaving : LeftTerminal { kernel with esp_0 := irq.esp_0, ebp_0 := irq.ebp_0 } cur target shown) :
    Suspended shown processes := by
  obtain ⟨rest, chain⟩ := consistent.currentLeaf leaving.current
  have others : ∀ term, term ≠ kernel.oldTerminal →
      shown.terminals term = kernel.terminals term := by
    intro term other
    rw [leaving.terminals]
    exact Function.update_of_ne other ..
  have left : (shown.terminals kernel.oldTerminal).active =
        (kernel.terminals kernel.oldTerminal).active ∧
      (shown.terminals kernel.oldTerminal).programId = cur ∧
      (shown.terminals kernel.oldTerminal).cr3 = kernel.cr3 := by
    rw [leaving.terminals]
    dsimp only
    rw [Function.update_self]
    exact ⟨rfl, rfl, rfl⟩
  obtain ⟨leftActive, leftProgram, leftCr3⟩ := left
  refine ⟨?_, ?_, ?_, ?_, ?_⟩
  · rw [leaving.openTasks]
    exact consistent.toChains
  · intro term
    by_cases same : term = kernel.oldTerminal
    · subst same
      rw [leftActive]
      exact consistent.active _
    · rw [others term same]
      exact consistent.active term
  · intro term pid newest
    by_cases same : term = kernel.oldTerminal
    · subst same
      rw [chain, List.head?_cons, Option.some.injEq] at newest
      rw [leftProgram, newest]
    · rw [others term same]
      exact consistent.leaf term pid newest
  · intro term active
    by_cases same : term = kernel.oldTerminal
    · subst same
      rw [leftProgram, leftCr3]
      exact pageDirectoryOf_findProgramid.mp leaving.current
    · rw [others term same] at active ⊢
      exact consistent.saved term active same
  · exact leaving.newterminalFlag.trans consistent.newterminalFlag

theorem Suspended.launchable (suspended : Suspended shown processes)
    (inactive : (shown.terminals shown.oldTerminal).active = 0) :
    Launchable (shown.openTerminal shown.oldTerminal) processes cur := by
  have others : ∀ term, term ≠ shown.oldTerminal →
      (shown.openTerminal shown.oldTerminal).terminals term = shown.terminals term :=
    fun term other => Function.update_of_ne other ..
  refine ⟨suspended.toChains, ?_, ?_, ?_, ?_, ?_⟩
  · simp [openTerminal]
  · intro term other
    rw [others term other]
    exact suspended.active term
  · intro term other
    rw [others term other]
    exact suspended.leaf term
  · intro term active other
    rw [others term other] at active ⊢
    exact suspended.saved term active
  · refine .inl ⟨?_, .inl rfl⟩
    by_contra occupied
    exact (suspended.active shown.oldTerminal).mpr occupied inactive

theorem Suspended.resumed {tlb : TlbUse} (suspended : Suspended shown processes)
    (isShown : shown.oldTerminal = target) (active : (shown.terminals target).active ≠ 0) :
    Consistent (shown.resumeTerminal target tlb).2 processes := by
  refine ⟨?_, ?_, ?_, ?_, ?_, ?_, ?_, ?_⟩
  · simpa only [resumeTerminal_openTasks] using suspended.toChains
  · simpa only [resumeTerminal_terminals] using suspended.active
  · simpa only [resumeTerminal_terminals] using suspended.leaf
  · simpa only [resumeTerminal_terminals, resumeTerminal_oldTerminal, isShown] using active
  · simpa only [resumeTerminal_terminals, resumeTerminal_oldTerminal, resumeTerminal_cr3,
      isShown] using suspended.saved target active
  · simp only [resumeTerminal_terminals, resumeTerminal_oldTerminal, resumeTerminal_tssEsp0,
      isShown]
  · intro term active _
    simp only [resumeTerminal_terminals] at active ⊢
    exact suspended.saved term active
  · simpa only [resumeTerminal_newterminalFlag] using suspended.newterminalFlag

/-- Every step but a failed start of a terminal keeps the four records in
agreement, over chains that grow and shrink at their leaves. -/
theorem Consistent.step {event : Event} (consistent : Consistent kernel processes)
    (starts : ShellStarts image kernel event) (stepped : kernel.step image event = some after) :
    ∃ grown, Consistent after grown := by
  cases step_effect stepped with
  | refused returned => exact ⟨_, consistent⟩
  | quiet quiet other => exact ⟨_, consistent.quiet quiet⟩
  | launched _ launched =>
      obtain ⟨fresh, kept⟩ := (consistent.launchable launched.current).launched launched
      exact ⟨_, kept⟩
  | left left => exact ⟨_, consistent.left left⟩
  | restarted restarted => exact ⟨_, consistent.restarted restarted⟩
  | opened different leaving inactive launched =>
      have suspended := consistent.suspended leaving
      rw [← leaving.oldTerminal] at inactive launched
      obtain ⟨fresh, kept⟩ := (suspended.launchable inactive).launched launched
      exact ⟨_, kept⟩
  | abandoned different leaving inactive failed =>
      obtain ⟨other, returned⟩ := failed
      exact absurd returned (starts other)
  | resumed different leaving active =>
      exact ⟨_, (consistent.suspended leaving).resumed leaving.oldTerminal active⟩

/-- A parent is in the chain of its child, behind it. -/
theorem Chains.parent_inside {openTasks : Nat → Int} (chains : Chains openTasks processes)
    {child parent : Nat} (low : 1 ≤ child) (high : child ≤ 6)
    (childOf : openTasks child = parent) (notRoot : parent ≠ 0) :
    ∃ term, parent ∈ (processes.chain term).tail := by
  obtain ⟨term, member⟩ := (chains.live child low high).mp (by omega)
  rcases (chains.linked term).parent_mem member with root | ⟨next, inside, link⟩
  · omega
  · rw [childOf] at link
    exact ⟨term, Int.natCast_inj.mp link ▸ inside⟩

theorem Chains.parent_live {openTasks : Nat → Int} (chains : Chains openTasks processes)
    {child parent : Nat} (low : 1 ≤ child) (high : child ≤ 6)
    (childOf : openTasks child = parent) (notRoot : parent ≠ 0) : openTasks parent ≠ -1 := by
  obtain ⟨term, inside⟩ := chains.parent_inside low high childOf notRoot
  have member : parent ∈ processes := ⟨term, List.mem_of_mem_tail inside⟩
  obtain ⟨parentLow, parentHigh⟩ := chains.range parent member
  exact (chains.live parent parentLow parentHigh).mpr member

/-- The running process waits for no child. -/
theorem Consistent.parent_not_current (consistent : Consistent kernel processes)
    (current : findProgramid kernel.cr3 = .done cur) {child parent : Nat} (low : 1 ≤ child)
    (high : child ≤ 6) (childOf : kernel.openTasks child = parent) (notRoot : parent ≠ 0) :
    parent ≠ cur := by
  rintro rfl
  obtain ⟨term, inside⟩ := consistent.parent_inside low high childOf notRoot
  obtain ⟨rest, chain⟩ := consistent.currentLeaf current
  obtain rfl : kernel.oldTerminal = term :=
    Forest.owner_unique (by rw [chain]; exact List.mem_cons_self ..) (List.mem_of_mem_tail inside)
  have distinct := processes.nodup kernel.oldTerminal
  rw [chain] at distinct inside
  exact (List.nodup_cons.mp distinct).1 inside

/-- The control block of `call.caller` is as `call` left it. -/
structure WaitsIn (kernel : Kernel) (parent : Nat) (call : ExecuteCall) : Prop where
  caller : call.caller = parent
  esp : (kernel.pcb parent).esp = call.esp
  ebp : (kernel.pcb parent).ebp = call.ebp
  fd : (kernel.pcb parent).fd = call.fd

/-- Every process with a live child waits in the call that created the child. -/
def Waiting (recorded : Recorded) : Prop :=
  ∀ child parent : Nat, 1 ≤ child → child ≤ 6 → parent ≠ 0 →
    recorded.kernel.openTasks child = parent →
      ∃ call, recorded.createdBy child = some call ∧ WaitsIn recorded.kernel parent call

theorem WaitsIn.congr {parent : Nat} {call : ExecuteCall} (waits : WaitsIn kernel parent call)
    (stack : (after.pcb parent).esp = (kernel.pcb parent).esp ∧
      (after.pcb parent).ebp = (kernel.pcb parent).ebp)
    (fd : (after.pcb parent).fd = (kernel.pcb parent).fd) : WaitsIn after parent call :=
  ⟨waits.caller, stack.1.trans waits.esp, stack.2.trans waits.ebp, fd.trans waits.fd⟩

section Waiting

variable {recorded next : Recorded}

/-- Parents keep waiting when the live children and the control blocks of their
parents stay as they are. -/
theorem Waiting.congr (waiting : Waiting recorded)
    (createdBy : next.createdBy = recorded.createdBy)
    (children : ∀ child parent : Nat, 1 ≤ child → child ≤ 6 → parent ≠ 0 →
      next.kernel.openTasks child = parent → recorded.kernel.openTasks child = parent)
    (pcb : ∀ child parent : Nat, 1 ≤ child → child ≤ 6 → parent ≠ 0 →
      next.kernel.openTasks child = parent →
      ((next.kernel.pcb parent).esp = (recorded.kernel.pcb parent).esp ∧
        (next.kernel.pcb parent).ebp = (recorded.kernel.pcb parent).ebp) ∧
      (next.kernel.pcb parent).fd = (recorded.kernel.pcb parent).fd) : Waiting next := by
  intro child parent low high notRoot childOf
  obtain ⟨call, created, waits⟩ :=
    waiting child parent low high notRoot (children child parent low high notRoot childOf)
  obtain ⟨stack, fd⟩ := pcb child parent low high notRoot childOf
  exact ⟨call, by rw [createdBy, created], waits.congr stack fd⟩

theorem Waiting.launched (waiting : Waiting recorded)
    (consistent : Consistent recorded.kernel processes)
    (launched : Launched recorded.kernel frame cur slot next.kernel)
    (createdBy : next.createdBy = Function.update recorded.createdBy slot
      (some ⟨cur, frame.esp, frame.ebp, (recorded.kernel.pcb cur).fd⟩)) : Waiting next := by
  obtain ⟨slotLow, slotHigh⟩ := launched.slot_range
  intro child parent low high notRoot childOf
  rw [launched.openTasks, if_neg (by rw [consistent.newterminalFlag]; decide)] at childOf
  by_cases new : child = slot
  · subst new
    rw [Function.update_self] at childOf
    obtain rfl := Int.natCast_inj.mp childOf
    have apart : cur ≠ child := by
      rintro rfl
      obtain ⟨rest, chain⟩ := consistent.currentLeaf launched.current
      have free := launched.slot_free
      have member : cur ∈ processes := ⟨_, by rw [chain]; exact List.mem_cons_self ..⟩
      exact (consistent.live cur low high).mpr member free
    obtain ⟨esp, ebp⟩ := launched.callerStack notRoot
    exact ⟨_, by rw [createdBy, Function.update_self], rfl, esp, ebp, launched.otherFd _ apart⟩
  · rw [Function.update_of_ne new] at childOf
    obtain ⟨call, created, waits⟩ := waiting child parent low high notRoot childOf
    have notCaller := consistent.parent_not_current launched.current low high childOf notRoot
    have notSlot : parent ≠ slot := by
      rintro rfl
      exact consistent.parent_live low high childOf notRoot launched.slot_free
    exact ⟨call, by rw [createdBy, Function.update_of_ne new, created],
      waits.congr (launched.otherStack _ notCaller) (launched.otherFd _ notSlot)⟩

theorem Waiting.left {status : Byte} {parent : Nat} (waiting : Waiting recorded)
    (consistent : Consistent recorded.kernel processes)
    (left : Left recorded.kernel status cur parent next.kernel)
    (createdBy : next.createdBy = recorded.createdBy) : Waiting next := by
  have children : ∀ child other : Nat, 1 ≤ child → child ≤ 6 → other ≠ 0 →
      next.kernel.openTasks child = other → recorded.kernel.openTasks child = other := by
    intro child other low high notRoot childOf
    rw [left.openTasks] at childOf
    by_cases gone : child = cur
    · subst gone
      rw [Function.update_self] at childOf
      omega
    · rwa [Function.update_of_ne gone] at childOf
  apply waiting.congr createdBy children
  intro child other low high notRoot childOf
  -- the parent returned to is running now, so it waits for no child
  have notParent : other ≠ parent :=
    (consistent.left left).parent_not_current left.cr3 low high childOf notRoot
  rw [left.pcb, Function.update_of_ne notParent]
  exact ⟨⟨rfl, rfl⟩, rfl⟩

theorem Waiting.opened {irq : IrqFrame} (waiting : Waiting recorded)
    (consistent : Consistent recorded.kernel processes)
    (leaving : LeftTerminal { recorded.kernel with esp_0 := irq.esp_0, ebp_0 := irq.ebp_0 }
      cur target shown)
    (launched : Launched (shown.openTerminal target) frame cur slot next.kernel)
    (createdBy : next.createdBy = recorded.createdBy) : Waiting next := by
  have free : recorded.kernel.openTasks slot = -1 := by
    have freeShown : shown.openTasks slot = -1 := launched.slot_free
    rwa [leaving.openTasks] at freeShown
  have openTasks : next.kernel.openTasks = Function.update recorded.kernel.openTasks slot 0 := by
    rw [launched.openTasks]
    exact congrArg (fun table => Function.update table slot 0) leaving.openTasks
  have children : ∀ child other : Nat, 1 ≤ child → child ≤ 6 → other ≠ 0 →
      next.kernel.openTasks child = other → recorded.kernel.openTasks child = other := by
    intro child other low high notRoot childOf
    rw [openTasks] at childOf
    by_cases root : child = slot
    · subst root
      rw [Function.update_self] at childOf
      omega
    · rwa [Function.update_of_ne root] at childOf
  have sameBlocks : (shown.openTerminal target).pcb = recorded.kernel.pcb := leaving.pcb
  apply waiting.congr createdBy children
  intro child other low high notRoot childOf
  have before := children child other low high notRoot childOf
  have notCaller := consistent.parent_not_current leaving.current low high before notRoot
  have notSlot : other ≠ slot := by
    rintro rfl
    exact consistent.parent_live low high before notRoot free
  have stack := launched.otherStack other notCaller
  have fd := launched.otherFd other notSlot
  rw [sameBlocks] at stack fd
  exact ⟨stack, fd⟩

theorem Waiting.step {event : Event} (waiting : Waiting recorded)
    (consistent : Consistent recorded.kernel processes)
    (starts : ShellStarts image recorded.kernel event)
    (stepped : recorded.step image event = some next) : Waiting next := by
  obtain ⟨taken, createdBy⟩ := Recorded.step_eq_some stepped
  obtain ⟨after, afterCreated⟩ := next
  dsimp only at taken createdBy
  cases step_effect taken with
  | refused returned =>
      rw [Recorded.creation_of_refused returned] at createdBy
      exact waiting.congr createdBy (fun _ _ _ _ _ childOf => childOf)
        fun _ _ _ _ _ _ => ⟨⟨rfl, rfl⟩, rfl⟩
  | quiet quiet other =>
      have nothing : Recorded.creation image recorded.kernel event = none := by
        cases event with
        | execute command frame => exact absurd rfl (other command frame)
        | _ => rfl
      rw [nothing] at createdBy
      have children : after.openTasks = recorded.kernel.openTasks := quiet.openTasks
      refine waiting.congr createdBy (fun _ _ _ _ _ childOf => by rwa [← children]) ?_
      intro child parent low high notRoot childOf
      refine ⟨quiet.stack parent, quiet.otherFd parent fun current => ?_⟩
      exact consistent.parent_not_current current low high (by rwa [← children]) notRoot rfl
  | launched returned launched =>
      rw [Recorded.creation_of_launched returned launched] at createdBy
      exact waiting.launched consistent launched createdBy
  | left left => exact waiting.left consistent left createdBy
  | restarted restarted =>
      have state := restarted.state
      subst state
      exact waiting.congr createdBy (fun _ _ _ _ _ childOf => childOf)
        fun _ _ _ _ _ _ => ⟨⟨rfl, rfl⟩, rfl⟩
  | opened different leaving inactive launched =>
      exact waiting.opened consistent leaving launched createdBy
  | abandoned different leaving inactive failed =>
      obtain ⟨other, returned⟩ := failed
      exact absurd returned (starts other)
  | resumed different leaving active =>
      refine waiting.congr createdBy ?_ ?_
      · intro child parent _ _ _ childOf
        simp only [resumeTerminal_openTasks, leaving.openTasks] at childOf
        exact childOf
      · intro child parent _ _ _ _
        simp only [resumeTerminal_pcb, leaving.pcb, and_self]

end Waiting

theorem boot_launchable (memory : Kernel) : Launchable (Kernel.boot memory) .empty 0 := by
  refine ⟨⟨?_, ?_, fun _ => trivial⟩, ?_, ?_, fun _ _ _ => nofun, ?_, .inl ⟨rfl, .inr ⟨?_, rfl⟩⟩⟩
  · intro pid _ high
    rw [boot_openTasks memory pid (by omega)]
    exact ⟨fun other => absurd rfl other, fun member => absurd member (Forest.not_mem_empty pid)⟩
  · exact fun pid member => absurd member (Forest.not_mem_empty pid)
  · simp [initialTerminal]
  · intro term other
    rw [boot_oldTerminal] at other
    simp [initialTerminal, other, Forest.empty]
  · intro term active other
    rw [boot_oldTerminal] at other
    simp [initialTerminal, other] at active
  · exact boot_newterminalFlag memory

/-- The first shell is the root of the only chain, and nobody waits. -/
theorem FirstShell.consistent {image : Image} {first : Kernel} (started : FirstShell image first) :
    ∃ processes, Consistent first processes ∧ Waiting (.begin first) := by
  obtain ⟨memory, frame, slot, launched⟩ := started.launched
  obtain ⟨fresh, consistent⟩ := (boot_launchable memory).launched launched
  refine ⟨_, consistent, ?_⟩
  intro child parent low high notRoot childOf
  have openTasks : first.openTasks child = parent := childOf
  rw [launched.openTasks] at openTasks
  by_cases new : child = slot
  · subst new
    rw [Function.update_self, boot_newterminalFlag, if_neg (by decide)] at openTasks
    omega
  · rw [Function.update_of_ne new, boot_openTasks memory child (by omega)] at openTasks
    omega

/-- Along every run whose new terminals get their shell, the four records agree
and every parent waits in the call that created its child. -/
theorem run_consistent {image : Image} {first : Kernel} {events : List Event} {final : Recorded}
    (started : FirstShell image first)
    (starts : (kernelSystem image).Respects (ShellStarts image) first events)
    (ran : (recordedSystem image).run (.begin first) events = some final) :
    ∃ processes, Consistent final.kernel processes ∧ Waiting final := by
  have preserved : ∀ (recorded : Recorded) (event : Event) (next : Recorded),
      (∃ processes, Consistent recorded.kernel processes ∧ Waiting recorded) →
      ShellStarts image recorded.kernel event →
      (recordedSystem image).step recorded event = some next →
      ∃ processes, Consistent next.kernel processes ∧ Waiting next := by
    rintro recorded event next ⟨processes, consistent, waiting⟩ startsHere stepped
    obtain ⟨grown, kept⟩ := consistent.step startsHere (Recorded.step_eq_some stepped).1
    exact ⟨grown, kept, waiting.step consistent startsHere stepped⟩
  have startsRecorded : (recordedSystem image).Respects
      (fun recorded event => ShellStarts image recorded.kernel event) (.begin first) events :=
    Recorded.respects_kernel starts
  exact (Transitions.always_of_respects preserved started.consistent startsRecorded).last ran

/-- In every state of such a run the live processes form one chain for each
terminal in use, all records of the running process name the newest process of
the shown terminal, and a parent's control block holds the stack registers of
the call that created its child. -/
theorem process_records_agree {image : Image} {first : Kernel} {events : List Event}
    {final : Recorded} (started : FirstShell image first)
    (starts : (kernelSystem image).Respects (ShellStarts image) first events)
    (ran : (recordedSystem image).run (.begin first) events = some final) :
    (∃ processes, Consistent final.kernel processes) ∧
      ∀ child parent : Nat, 1 ≤ child → child ≤ 6 → parent ≠ 0 →
        final.kernel.openTasks child = parent →
          ∃ call, final.createdBy child = some call ∧ call.caller = parent ∧
            (final.kernel.pcb parent).esp = call.esp ∧
            (final.kernel.pcb parent).ebp = call.ebp := by
  obtain ⟨processes, consistent, waiting⟩ := run_consistent started starts ran
  refine ⟨⟨processes, consistent⟩, fun child parent low high notRoot childOf => ?_⟩
  obtain ⟨call, created, waits⟩ := waiting child parent low high notRoot childOf
  exact ⟨call, created, waits.caller, waits.esp, waits.ebp⟩

theorem process_records_agree_for_child_shell :
    ∃ (first : Kernel) (final : Recorded), FirstShell shellImage first ∧
      (recordedSystem shellImage).run (.begin first) [.execute (some shellCommand) zeroedFrame] =
        some final ∧
      (∃ processes, Consistent final.kernel processes) ∧
      ∃ call, final.createdBy 2 = some call ∧ call.caller = 1 ∧
        (final.kernel.pcb 1).esp = call.esp := by
  obtain ⟨first, started, launched⟩ :=
    firstShell_exists shellImage_valid zeroedMemory zeroedFrame
  obtain ⟨kernel, ran, nested⟩ := nested_shells shellImage_valid launched 1 (by decide)
  obtain ⟨final, ranFinal, rfl⟩ :=
    Recorded.run_exists (show (Recorded.begin first).kernel = first from rfl) ran
  have starts : (kernelSystem shellImage).Respects (ShellStarts shellImage) first
      [.execute (some shellCommand) zeroedFrame] := ⟨trivial, fun _ _ => trivial⟩
  have agree := process_records_agree started starts ranFinal
  have childOf : final.kernel.openTasks 2 = (1 : Nat) :=
    nested.openTasks 2 (by decide) (by decide)
  obtain ⟨call, created, caller, esp, _⟩ :=
    agree.2 2 1 (by decide) (by decide) (by decide) childOf
  exact ⟨first, final, started, ranFinal, agree.1, call, created, caller, esp⟩

end Ece391
