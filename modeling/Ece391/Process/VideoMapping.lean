import Ece391.Process.Consistency
import Ece391.Process.Slots

namespace Ece391

open Library Kernel

/-! # Which process writes to the screen

The `VIDEO_PAGE` entries change when terminals are switched and at no other
time, while `execute` and `halt` move pids between the terminals.
-/

/-- The newest process of a terminal that is in use and not shown. -/
structure Kernel.Backgrounds (kernel : Kernel) (term : TerminalId) (pid : Nat) : Prop where
  active : (kernel.terminals term).active ≠ 0
  hidden : term ≠ kernel.oldTerminal
  leaf : (kernel.terminals term).programId = pid

structure Kernel.VideoMapped (kernel : Kernel) : Prop where
  buffer : ∀ pid : Nat, 1 ≤ pid → pid ≤ 6 → ∀ term : TerminalId,
    ((kernel.videoPage pid).address = 0x600000 + 0x1000 * term ↔ kernel.Backgrounds term pid)
  screen : ∀ pid : Nat, 1 ≤ pid → pid ≤ 6 →
    ((kernel.videoPage pid).address = 0xB8000 ↔ ∀ term, ¬ kernel.Backgrounds term pid)
  running : ∀ cached, kernel.videoFrame cached = .screen

/-- The page tables as the chains of processes have them; the translation that
the processor may have cached is that of the screen. -/
structure Mapped (kernel : Kernel) (processes : Forest TerminalId Nat) : Prop where
  buffer : ∀ pid term, kernel.videoPage pid = .termBuffer term ↔
    term ≠ kernel.oldTerminal ∧ (processes.chain term).head? = some pid
  cached : kernel.tlbVideo = .screen

/-- Between two terminals every terminal has its newest process on its buffer. -/
def MappedAway (kernel : Kernel) (processes : Forest TerminalId Nat) : Prop :=
  ∀ pid term, kernel.videoPage pid = .termBuffer term ↔ (processes.chain term).head? = some pid

variable {image : Image} {kernel shown after : Kernel} {processes : Forest TerminalId Nat}
  {frame : CallFrame} {cur slot : Nat} {target : TerminalId}

theorem VideoFrame.eq_screen {video : VideoFrame} (noBuffer : ∀ term, video ≠ .termBuffer term) :
    video = .screen := by
  cases video with
  | screen => rfl
  | termBuffer term => exact absurd rfl (noBuffer term)

theorem head_mem {pid : Nat} {term : TerminalId}
    (newest : (processes.chain term).head? = some pid) : pid ∈ processes.chain term :=
  List.mem_of_head? newest

/-- A process that is not the newest one of another terminal writes to the screen. -/
theorem Mapped.screen (mapped : Mapped kernel processes) {pid : Nat}
    (apart : ∀ term, term ≠ kernel.oldTerminal → pid ∉ processes.chain term) :
    kernel.videoPage pid = .screen := by
  refine VideoFrame.eq_screen fun term isBuffer => ?_
  obtain ⟨hidden, newest⟩ := (mapped.buffer pid term).mp isBuffer
  exact apart term hidden (head_mem newest)

theorem Mapped.display (mapped : Mapped kernel processes) (display : SameDisplay kernel after)
    (oldTerminal : after.oldTerminal = kernel.oldTerminal) (cached : after.tlbVideo = .screen) :
    Mapped after processes where
  buffer pid term := by
    rw [display.videoPage, oldTerminal]
    exact mapped.buffer pid term
  cached := cached

theorem Mapped.launched (mapped : Mapped kernel processes)
    (launched : Launched kernel frame cur slot after) (fresh : slot ∉ processes) :
    Mapped after (processes.push kernel.oldTerminal slot fresh) where
  buffer pid term := by
    rw [launched.display.videoPage, launched.oldTerminal, mapped.buffer pid term]
    refine and_congr_right fun hidden => ?_
    rw [Forest.push_chain_of_ne fresh hidden]
  cached := by
    rw [launched.tlbVideo]
    exact mapped.screen fun term _ member => fresh ⟨term, member⟩

theorem Mapped.left {status : Byte} {parent : Nat} (mapped : Mapped kernel processes)
    (left : Left kernel status cur parent after) (inside : parent ∈ processes.chain kernel.oldTerminal) :
    Mapped after (processes.pop kernel.oldTerminal) where
  buffer pid term := by
    rw [left.display.videoPage, left.oldTerminal, mapped.buffer pid term]
    refine and_congr_right fun hidden => ?_
    rw [Forest.pop_chain_of_ne hidden]
  cached := by
    rw [left.tlbVideo]
    exact mapped.screen fun term hidden member =>
      processes.disjoint term kernel.oldTerminal hidden parent member inside

/-- The terminal that is left gets its newest process on its buffer. -/
theorem Mapped.away {irq : IrqFrame} (mapped : Mapped kernel processes)
    (leaving : LeftTerminal { kernel with esp_0 := irq.esp_0, ebp_0 := irq.ebp_0 } cur target shown)
    (newest : (processes.chain kernel.oldTerminal).head? = some cur) (low : 1 ≤ cur) (high : cur ≤ 6) :
    MappedAway shown processes := by
  intro pid term
  rw [leaving.videoPage]
  simp only [nonVideoMapping]
  by_cases current : pid = cur
  · subst current
    rw [if_pos ⟨by omega, by omega, rfl⟩]
    constructor
    · intro same
      cases same
      exact newest
    · intro ofTerm
      have owner := processes.owner_unique (head_mem ofTerm) (head_mem newest)
      rw [owner]
  · rw [if_neg fun renamed => current (Int.natCast_inj.mp renamed.2.2), mapped.buffer pid term]
    constructor
    · exact fun both => both.2
    · intro ofTerm
      refine ⟨fun same => ?_, ofTerm⟩
      rw [same, newest] at ofTerm
      exact current (Option.some.inj ofTerm).symm

/-- A new terminal has no process yet. -/
theorem MappedAway.opened (mapped : MappedAway shown processes)
    (empty : processes.chain target = []) (isShown : shown.oldTerminal = target)
    (launched : Launched (shown.openTerminal target) frame cur slot after) (fresh : slot ∉ processes) :
    Mapped after (processes.push target slot fresh) where
  buffer pid term := by
    have samePages : after.videoPage = shown.videoPage := launched.display.videoPage
    have sameTerminal : after.oldTerminal = target := launched.oldTerminal.trans isShown
    rw [samePages, sameTerminal, mapped pid term]
    constructor
    · intro newest
      have hidden : term ≠ target := by
        intro same
        rw [same, empty] at newest
        cases newest
      rw [Forest.push_chain_of_ne fresh hidden]
      exact ⟨hidden, newest⟩
    · intro both
      rw [Forest.push_chain_of_ne fresh both.1] at both
      exact both.2
  cached := by
    rw [launched.tlbVideo]
    refine VideoFrame.eq_screen fun term isBuffer => ?_
    exact fresh ⟨term, head_mem ((mapped slot term).mp isBuffer)⟩

/-- The terminal that comes back gets its newest process on the screen. -/
theorem MappedAway.resumed {tlb : TlbUse} {leaf : Nat} (mapped : MappedAway shown processes)
    (isShown : shown.oldTerminal = target) (newest : (processes.chain target).head? = some leaf)
    (low : 1 ≤ leaf) (high : leaf ≤ 6) (shows : (shown.terminals target).programId = leaf)
    (directory : pageDirectoryOf leaf = some (shown.terminals target).cr3) :
    Mapped (shown.resumeTerminal target tlb).2 processes where
  buffer pid term := by
    rw [resumeTerminal_oldTerminal, isShown, resumeTerminal_videoPage]
    simp only [videoMapping, shows]
    by_cases current : pid = leaf
    · subst current
      rw [if_pos ⟨by omega, by omega, rfl⟩]
      constructor
      · intro same
        cases same
      · intro both
        exact absurd (processes.owner_unique (head_mem both.2) (head_mem newest)) both.1
    · rw [if_neg fun renamed => current (Int.natCast_inj.mp renamed.2.2), mapped pid term]
      constructor
      · intro ofTerm
        refine ⟨fun same => ?_, ofTerm⟩
        rw [same, newest] at ofTerm
        exact current (Option.some.inj ofTerm).symm
      · exact fun both => both.2
  cached := by
    rw [resumeTerminal_tlbVideo, pageTableOf_eq (pageDirectoryOf_findProgramid.mpr directory)]
    simp only [videoMapping, shows]
    exact if_pos ⟨by omega, by omega, trivial⟩

theorem mapped_step {event : Event} (consistent : Consistent kernel processes)
    (mapped : Mapped kernel processes) (starts : ShellStarts image kernel event)
    (stepped : kernel.step image event = some after) :
    ∃ grown, Consistent after grown ∧ Mapped after grown := by
  cases step_effect stepped with
  | refused returned => exact ⟨processes, consistent, mapped⟩
  | quiet quiet other =>
      refine ⟨processes, consistent.quiet quiet, ?_⟩
      exact mapped.display quiet.display quiet.oldTerminal (quiet.tlbVideo.trans mapped.cached)
  | launched _ launched =>
      obtain ⟨fresh, kept⟩ := (consistent.launchable launched.current).launched launched
      exact ⟨_, kept, mapped.launched launched fresh⟩
  | left left =>
      have kept := consistent.left left
      obtain ⟨rest, chain⟩ := kept.currentLeaf left.cr3
      rw [left.oldTerminal, Forest.pop_chain_self] at chain
      refine ⟨_, kept, mapped.left left (List.mem_of_mem_tail ?_)⟩
      rw [chain]
      exact List.mem_cons_self ..
  | restarted restarted =>
      refine ⟨processes, consistent.restarted restarted, ?_⟩
      rw [restarted.state]
      exact ⟨mapped.buffer, mapped.cached⟩
  | @opened irq callFrame tlb cur slot target shown _ different leaving inactive launched =>
      obtain ⟨rest, chain⟩ := consistent.currentLeaf leaving.current
      have newest : (processes.chain kernel.oldTerminal).head? = some cur := congrArg List.head? chain
      obtain ⟨low, high⟩ := consistent.range cur ⟨_, head_mem newest⟩
      have away := mapped.away leaving newest low high
      have suspended := consistent.suspended leaving
      have empty : processes.chain target = [] := by
        by_contra occupied
        exact (suspended.active target).mpr occupied inactive
      have isShown := leaving.oldTerminal
      subst isShown
      obtain ⟨fresh, kept⟩ := (suspended.launchable inactive).launched launched
      exact ⟨_, kept, away.opened empty rfl launched fresh⟩
  | abandoned different leaving inactive failed =>
      obtain ⟨other, returned⟩ := failed
      exact absurd returned (starts other)
  | @resumed irq callFrame tlb cur target shown different leaving active =>
      obtain ⟨rest, chain⟩ := consistent.currentLeaf leaving.current
      have newest : (processes.chain kernel.oldTerminal).head? = some cur := congrArg List.head? chain
      obtain ⟨low, high⟩ := consistent.range cur ⟨_, head_mem newest⟩
      have away := mapped.away leaving newest low high
      have suspended := consistent.suspended leaving
      cases chainTarget : processes.chain target with
      | nil => exact absurd chainTarget ((suspended.active target).mp active)
      | cons leaf older =>
          have ofTarget : (processes.chain target).head? = some leaf := congrArg List.head? chainTarget
          have shows := suspended.leaf target leaf ofTarget
          obtain ⟨leafLow, leafHigh⟩ := consistent.range leaf ⟨_, head_mem ofTarget⟩
          have directory := suspended.saved target active
          rw [shows] at directory
          exact ⟨processes, suspended.resumed leaving.oldTerminal active,
            away.resumed leaving.oldTerminal ofTarget leafLow leafHigh shows directory⟩

theorem backgrounds_iff (consistent : Consistent kernel processes) {term : TerminalId} {pid : Nat} :
    kernel.Backgrounds term pid ↔
      term ≠ kernel.oldTerminal ∧ (processes.chain term).head? = some pid := by
  constructor
  · intro background
    refine ⟨background.hidden, ?_⟩
    cases chain : processes.chain term with
    | nil => exact absurd chain ((consistent.active term).mp background.active)
    | cons leaf older =>
        have shows := consistent.leaf term leaf (congrArg List.head? chain)
        rw [background.leaf] at shows
        exact congrArg some (Int.natCast_inj.mp shows).symm
  · intro newest
    refine ⟨(consistent.active term).mpr fun empty => ?_, newest.1, consistent.leaf term pid newest.2⟩
    rw [empty] at newest
    cases newest.2

theorem VideoFrame.address_eq_buffer {video : VideoFrame} {term : TerminalId} :
    video.address = 0x600000 + 0x1000 * term ↔ video = .termBuffer term := by
  constructor
  · intro same
    cases video with
    | screen =>
        simp only [VideoFrame.address] at same
        omega
    | termBuffer other =>
        simp only [VideoFrame.address] at same
        have equal : other = term := Fin.ext (by omega)
        rw [equal]
  · intro same
    rw [same, VideoFrame.address]

theorem VideoFrame.address_eq_screen {video : VideoFrame} :
    video.address = 0xB8000 ↔ ∀ term, video ≠ .termBuffer term := by
  constructor
  · intro same term isBuffer
    rw [isBuffer, VideoFrame.address] at same
    omega
  · intro noBuffer
    rw [VideoFrame.eq_screen noBuffer, VideoFrame.address]

theorem Mapped.running (mapped : Mapped kernel processes) (consistent : Consistent kernel processes)
    (cached : Bool) : kernel.videoFrame cached = .screen := by
  simp only [videoFrame]
  split
  · exact mapped.cached
  · have current := consistent.current
    cases chain : processes.chain kernel.oldTerminal with
    | nil => exact absurd chain ((consistent.active _).mp consistent.shown)
    | cons leaf older =>
        have newest := congrArg List.head? chain
        rw [consistent.leaf _ leaf newest] at current
        rw [pageTableOf_eq (pageDirectoryOf_findProgramid.mpr current)]
        exact mapped.screen fun term hidden member =>
          processes.disjoint term kernel.oldTerminal hidden leaf member (head_mem newest)

theorem Mapped.videoMapped (mapped : Mapped kernel processes)
    (consistent : Consistent kernel processes) : kernel.VideoMapped where
  buffer pid _ _ term := by
    rw [VideoFrame.address_eq_buffer, mapped.buffer pid term, backgrounds_iff consistent]
  screen pid _ _ := by
    rw [VideoFrame.address_eq_screen]
    refine forall_congr' fun term => not_congr ?_
    rw [mapped.buffer pid term, backgrounds_iff consistent]
  running := mapped.running consistent

@[simp] theorem boot_videoPage (memory : Kernel) (pid : Nat) :
    (boot memory).videoPage pid = .screen := by
  simp only [boot, clear, storeVideo]

@[simp] theorem boot_tlbVideo (memory : Kernel) : (boot memory).tlbVideo = .screen := by
  simp only [boot, clear, storeVideo]

theorem boot_mapped (memory : Kernel) : Mapped (boot memory) .empty where
  buffer pid term := by
    constructor
    · intro same
      rw [boot_videoPage] at same
      cases same
    · intro both
      cases both.2
  cached := boot_tlbVideo memory

theorem FirstShell.mapped {first : Kernel} (started : FirstShell image first) :
    ∃ processes, Consistent first processes ∧ Mapped first processes := by
  obtain ⟨memory, frame, slot, launched⟩ := started.launched
  obtain ⟨fresh, consistent⟩ := (boot_launchable memory).launched launched
  exact ⟨_, consistent, (boot_mapped memory).launched launched fresh⟩

/-- Only the terminal that is shown is in use at boot. -/
theorem boot_videoMapped (memory : Kernel) : (boot memory).VideoMapped := by
  have noBackground : ∀ term pid, ¬ (boot memory).Backgrounds term pid := by
    intro term pid background
    have active := background.active
    have hidden := background.hidden
    rw [boot_oldTerminal] at hidden
    simp [initialTerminal, hidden] at active
  refine ⟨?_, ?_, ?_⟩
  · intro pid _ _ term
    rw [VideoFrame.address_eq_buffer, boot_videoPage]
    constructor
    · intro same
      cases same
    · intro background
      exact absurd background (noBackground term pid)
  · intro pid _ _
    rw [boot_videoPage]
    exact ⟨fun _ term => noBackground term pid, fun _ => rfl⟩
  · intro cached
    simp only [videoFrame]
    split
    · exact boot_tlbVideo memory
    · exact boot_videoPage memory _

/-- In every state of a run whose new terminals get their shell, and at boot,
a process is mapped to a backing buffer exactly while it is the newest one of a
hidden terminal, and the running process writes to the screen. -/
theorem video_follows_display :
    (∀ memory, (Kernel.boot memory).VideoMapped) ∧
    ∀ {image : Image} {first final : Kernel} {events : List Event}, FirstShell image first →
      (kernelSystem image).Respects (ShellStarts image) first events →
      (kernelSystem image).run first events = some final → final.VideoMapped := by
  refine ⟨boot_videoMapped, ?_⟩
  intro image first final events started starts ran
  have preserved : ∀ (kernel : Kernel) (event : Event) (next : Kernel),
      (∃ processes, Consistent kernel processes ∧ Mapped kernel processes) →
      ShellStarts image kernel event → (kernelSystem image).step kernel event = some next →
      ∃ processes, Consistent next processes ∧ Mapped next processes := by
    intro kernel event next related startsHere stepped
    obtain ⟨processes, consistent, mapped⟩ := related
    exact mapped_step consistent mapped startsHere stepped
  have always := Transitions.always_of_respects preserved started.mapped starts
  obtain ⟨processes, consistent, mapped⟩ := always.last ran
  exact mapped.videoMapped consistent

/-- The first shell after a switch to terminal 1, which gets a shell of its own. -/
theorem video_follows_display_secondShell :
    ∃ first final, FirstShell shellImage first ∧
      (kernelSystem shellImage).run first
        [.terminalSwitch 1 zeroedIrq zeroedFrame cachedNowhere] = some final ∧
      final.VideoMapped ∧ (final.videoPage 1).address = 0x600000 := by
  obtain ⟨first, started, launched⟩ := firstShell_exists shellImage_valid zeroedMemory zeroedFrame
  obtain ⟨shown, entry, second, leaving, switched, launchedSecond⟩ :=
    secondShell_exists shellImage_valid launched (show (1 : TerminalId) ≠ 0 by decide)
      zeroedIrq zeroedFrame cachedNowhere
  have stepped : first.step shellImage (.terminalSwitch 1 zeroedIrq zeroedFrame cachedNowhere) =
      some second := congrArg (fun outcome => outcome.toOption.map Prod.snd) switched
  have starts : (kernelSystem shellImage).Respects (ShellStarts shellImage) first
      [.terminalSwitch 1 zeroedIrq zeroedFrame cachedNowhere] := by
    refine ⟨fun after refused => ?_, fun _ _ => trivial⟩
    cases switched.symm.trans refused
  have ran : (kernelSystem shellImage).run first
      [.terminalSwitch 1 zeroedIrq zeroedFrame cachedNowhere] = some second :=
    Transitions.run_singleton.trans stepped
  refine ⟨first, second, started, ran, video_follows_display.2 started starts ran, ?_⟩
  have samePages : second.videoPage = shown.videoPage := launchedSecond.display.videoPage
  have atFirst : first.oldTerminal = 0 := launched.oldTerminal.trans (boot_oldTerminal _)
  rw [samePages, leaving.videoPage]
  simp only [nonVideoMapping, atFirst]
  rfl

end Ece391
