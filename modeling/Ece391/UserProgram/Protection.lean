import Ece391.SystemCall.Paging
import Ece391.UserProgram.Launch

namespace Ece391

open Library Kernel

/-! # What the memory accesses of a process reach

`paging_initialize` fills a directory and a table for the kernel and for each
task; afterwards only the `VIDEO_PAGE` entries change.
-/

def VIDEO_PAGE : Nat := 184
def INIT_NULL : Nat := 0

/-- The arrays of paging.h: number 0 is `page_directory` with `page1_table`, the
others are those of the tasks. -/
structure PageArrays where
  directory : Nat → Nat → Nat
  page1Table : Nat → Nat → Nat

namespace PageArrays

def setDirectory (arrays : PageArrays) (number i entry : Nat) : PageArrays :=
  { arrays with
    directory := Function.update arrays.directory number
      (Function.update (arrays.directory number) i entry) }

def setTable (arrays : PageArrays) (number i entry : Nat) : PageArrays :=
  { arrays with
    page1Table := Function.update arrays.page1Table number
      (Function.update (arrays.page1Table number) i entry) }

/-- The turns of the loop from `i` on. -/
def initNull : (count i : Nat) → PageArrays → PageArrays
  | 0, _, arrays => arrays
  | count + 1, i, arrays =>
      initNull count (i + 1)
        ⟨fun number => Function.update (arrays.directory number) i INIT_NULL,
          fun number => Function.update (arrays.page1Table number) i INIT_NULL⟩

/-- The lines of one task. -/
def initTask (arrays : PageArrays) (address : Nat → Nat) (number frame : Nat) : PageArrays :=
  let arrays := arrays.setDirectory number PAGE_1
    (address number ||| PRESENT ||| READ_WRITE ||| USER_SV)
  let arrays := arrays.setDirectory number KERNEL_PAGE (KERNEL_MEM ||| SIZE_4MB ||| PRESENT)
  let arrays := arrays.setTable number VIDEO_PAGE (VIDEO_MEM ||| PRESENT ||| USER_SV ||| READ_WRITE)
  arrays.setDirectory number 32 (frame ||| SIZE_4MB ||| PRESENT ||| USER_SV ||| READ_WRITE)

def initTasks (address : Nat → Nat) : List (Nat × Nat) → PageArrays → PageArrays
  | [], arrays => arrays
  | (number, frame) :: rest, arrays => initTasks address rest (arrays.initTask address number frame)

/-- The tasks with their pages of 4 MB. -/
def tasks : List (Nat × Nat) :=
  [(1, 0x800000), (2, 0xC00000), (3, 0x1000000), (4, 0x1400000), (5, 0x1800000), (6, 0x1C00000)]

/-- `address` is where the tables lie. -/
def pagingInitialize (arrays : PageArrays) (address : Nat → Nat) : PageArrays :=
  let arrays := initNull PAGE_SIZE INIT_NULL arrays
  let arrays := arrays.setDirectory 0 PAGE_1 (address 0 ||| PRESENT ||| READ_WRITE ||| USER_SV)
  let arrays := arrays.setDirectory 0 KERNEL_PAGE (KERNEL_MEM ||| SIZE_4MB ||| PRESENT)
  let arrays := arrays.setTable 0 VIDEO_PAGE (VIDEO_MEM ||| PRESENT ||| USER_SV)
  initTasks address tasks arrays

def videoMapping (arrays : PageArrays) (programId : Int) : PageArrays :=
  if 1 ≤ programId ∧ programId ≤ 6 then
    arrays.setTable programId.toNat VIDEO_PAGE (VIDEO_MEM ||| PRESENT ||| USER_SV ||| READ_WRITE)
  else arrays

/-- The buffers are at 0x600000, 0x601000 and 0x602000. -/
def nonVideoMapping (arrays : PageArrays) (programId : Int) (terminal : TerminalId) : PageArrays :=
  if 1 ≤ programId ∧ programId ≤ 6 then
    arrays.setTable programId.toNat VIDEO_PAGE
      ((VideoFrame.termBuffer terminal).address ||| PRESENT ||| USER_SV ||| READ_WRITE)
  else arrays

end PageArrays

variable {address : Nat → Nat} {arrays : PageArrays} {tables : PageTables} {kernel : Kernel}
  {number i pid : Nat} {cr3 : Cr3}

/-- The `VIDEO_PAGE` entry; the table of the kernel has one that is not writable
for a user. -/
def Kernel.videoEntry (kernel : Kernel) (number : Nat) : Nat :=
  if number = 0 then VIDEO_MEM ||| PRESENT ||| USER_SV
  else (kernel.videoPage number).address ||| PRESENT ||| USER_SV ||| READ_WRITE

/-- The processor finds the tables at their addresses. -/
def TablesPlaced (arrays : PageArrays) (tables : PageTables) : Prop :=
  ∀ cr3, cr3 ≠ .null → ∀ i < PAGE_SIZE,
    tables.entry (tables.page1Table cr3) i = arrays.page1Table (pageTableOf cr3) i

/-- The arrays hold what the state of the kernel says of them. -/
structure Shows (arrays : PageArrays) (tables : PageTables) (kernel : Kernel) : Prop where
  aligned : ∀ cr3, tables.page1Table cr3 % 0x1000 = 0
  directory : ∀ cr3, cr3 ≠ .null → ∀ i < PAGE_SIZE,
    arrays.directory (pageTableOf cr3) i = directoryEntry tables cr3 i
  table : ∀ number ≤ 6, ∀ i < PAGE_SIZE,
    arrays.page1Table number i = if i = VIDEO_PAGE then kernel.videoEntry number else 0
  placed : TablesPlaced arrays tables

namespace PageArrays

/-- The array after turns of the loop. -/
def nulled (first count : Nat) (entries : Nat → Nat) (i : Nat) : Nat :=
  if first ≤ i ∧ i < first + count then INIT_NULL else entries i

theorem nulled_succ (first count : Nat) (entries : Nat → Nat) :
    nulled (first + 1) count (Function.update entries first INIT_NULL) =
      nulled first (count + 1) entries := by
  funext i
  simp only [nulled, Function.update_apply]
  by_cases here : i = first
  · rw [if_pos here, if_pos (show first ≤ i ∧ i < first + (count + 1) by omega), ite_self]
  · rw [if_neg here]
    refine if_congr ?_ rfl rfl
    omega

theorem initNull_eq {count first : Nat} : initNull count first arrays =
    ⟨fun number => nulled first count (arrays.directory number),
      fun number => nulled first count (arrays.page1Table number)⟩ := by
  induction count generalizing first arrays with
  | zero =>
      have nothing : ∀ entries, nulled first 0 entries = entries := by
        intro entries
        funext i
        exact if_neg (by omega)
      simp only [initNull, nothing]
  | succ count ih => simp only [initNull, ih, nulled_succ]

theorem nulled_inside {entries : Nat → Nat} (inside : i < PAGE_SIZE) :
    nulled INIT_NULL PAGE_SIZE entries i = 0 :=
  if_pos ⟨Nat.zero_le i, by rwa [INIT_NULL, Nat.zero_add]⟩

/-- The arrays of one number have no entries below `PAGE_SIZE`. -/
structure Empty (arrays : PageArrays) (number : Nat) : Prop where
  directory : ∀ i < PAGE_SIZE, arrays.directory number i = 0
  page1Table : ∀ i < PAGE_SIZE, arrays.page1Table number i = 0

/-- The arrays of a task: three entries and one. -/
structure TaskArrays (arrays : PageArrays) (address : Nat → Nat) (number frame : Nat) : Prop where
  directory : ∀ i < PAGE_SIZE, arrays.directory number i =
    if i = PAGE_1 then address number ||| PRESENT ||| READ_WRITE ||| USER_SV
    else if i = KERNEL_PAGE then KERNEL_MEM ||| SIZE_4MB ||| PRESENT
    else if i = 32 then frame ||| SIZE_4MB ||| PRESENT ||| USER_SV ||| READ_WRITE
    else 0
  page1Table : ∀ i < PAGE_SIZE, arrays.page1Table number i =
    if i = VIDEO_PAGE then VIDEO_MEM ||| PRESENT ||| USER_SV ||| READ_WRITE else 0

theorem Empty.initTask (empty : Empty arrays number) (frame : Nat) :
    TaskArrays (arrays.initTask address number frame) address number frame where
  directory i inside := by
    simp only [PageArrays.initTask, setDirectory, setTable, Function.update_self,
      Function.update_apply, empty.directory i inside]
    by_cases first : i = PAGE_1
    · subst first
      rfl
    · by_cases second : i = KERNEL_PAGE
      · subst second
        rfl
      · rw [if_neg first, if_neg second, if_neg first, if_neg second]
  page1Table i inside := by
    simp only [PageArrays.initTask, setDirectory, setTable, Function.update_self,
      Function.update_apply, empty.page1Table i inside]

theorem initTask_other (other : number ≠ i) (frame : Nat) :
    (arrays.initTask address i frame).directory number = arrays.directory number ∧
      (arrays.initTask address i frame).page1Table number = arrays.page1Table number := by
  simp only [initTask, setDirectory, setTable, Function.update_of_ne other, and_self]

variable {list : List (Nat × Nat)}

theorem initTasks_other (other : ∀ task ∈ list, number ≠ task.1) :
    (initTasks address list arrays).directory number = arrays.directory number ∧
      (initTasks address list arrays).page1Table number = arrays.page1Table number := by
  induction list generalizing arrays with
  | nil => exact ⟨rfl, rfl⟩
  | cons task rest ih =>
      obtain ⟨directory, page1Table⟩ :
          (arrays.initTask address task.1 task.2).directory number = arrays.directory number ∧
            (arrays.initTask address task.1 task.2).page1Table number = arrays.page1Table number :=
        initTask_other (other task (List.mem_cons_self ..)) task.2
      rw [← directory, ← page1Table]
      exact ih fun later member => other later (List.mem_cons_of_mem _ member)

/-- Each task gets its arrays, and the others after it leave them. -/
theorem initTasks_task {frame : Nat} (empty : ∀ task ∈ list, Empty arrays task.1)
    (distinct : (list.map Prod.fst).Nodup) (member : (number, frame) ∈ list) :
    TaskArrays (initTasks address list arrays) address number frame := by
  induction list generalizing arrays with
  | nil => cases member
  | cons task rest ih =>
      obtain ⟨apart, distinctRest⟩ := List.nodup_cons.mp distinct
      rcases List.mem_cons.mp member with rfl | later
      · have others : ∀ task ∈ rest, number ≠ task.1 := by
          rintro task inRest rfl
          exact apart (List.mem_map.mpr ⟨_, inRest, rfl⟩)
        obtain ⟨directory, page1Table⟩ :
            (initTasks address rest (arrays.initTask address number frame)).directory number =
                (arrays.initTask address number frame).directory number ∧
              (initTasks address rest (arrays.initTask address number frame)).page1Table number =
                (arrays.initTask address number frame).page1Table number := initTasks_other others
        have own : TaskArrays (arrays.initTask address number frame) address number frame :=
          (empty _ (List.mem_cons_self ..)).initTask frame
        refine ⟨fun i inside => ?_, fun i inside => ?_⟩
        · rw [initTasks, directory]
          exact own.directory i inside
        · rw [initTasks, page1Table]
          exact own.page1Table i inside
      · refine ih (fun other inRest => ?_) distinctRest later
        have different : other.1 ≠ task.1 := by
          intro same
          rw [← same] at apart
          exact apart (List.mem_map.mpr ⟨_, inRest, rfl⟩)
        have kept := empty other (List.mem_cons_of_mem _ inRest)
        obtain ⟨directory, page1Table⟩ :
            (arrays.initTask address task.1 task.2).directory other.1 =
                arrays.directory other.1 ∧
              (arrays.initTask address task.1 task.2).page1Table other.1 =
                arrays.page1Table other.1 := initTask_other different task.2
        refine ⟨fun i inside => ?_, fun i inside => ?_⟩
        · rw [directory]
          exact kept.directory i inside
        · rw [page1Table]
          exact kept.page1Table i inside

/-- What `paging_initialize` leaves to each task, whatever the arrays held. -/
theorem pagingInitialize_task {frame : Nat} (member : (number, frame) ∈ tasks) :
    TaskArrays (arrays.pagingInitialize address) address number frame := by
  refine initTasks_task (fun task isTask => ?_) (by decide) member
  have notKernel : task.1 ≠ 0 := by
    have checked : ∀ task ∈ tasks, task.1 ≠ 0 := by decide
    exact checked task isTask
  refine ⟨fun i inside => ?_, fun i inside => ?_⟩
  · simp only [setTable, setDirectory, initNull_eq, Function.update_of_ne notKernel,
      nulled_inside inside]
  · simp only [setTable, setDirectory, initNull_eq, Function.update_of_ne notKernel,
      nulled_inside inside]

theorem pagingInitialize_kernel (inside : i < PAGE_SIZE) :
    (arrays.pagingInitialize address).directory 0 i =
        (if i = PAGE_1 then address 0 ||| PRESENT ||| READ_WRITE ||| USER_SV
        else if i = KERNEL_PAGE then KERNEL_MEM ||| SIZE_4MB ||| PRESENT
        else 0) ∧
      (arrays.pagingInitialize address).page1Table 0 i =
        if i = VIDEO_PAGE then VIDEO_MEM ||| PRESENT ||| USER_SV else 0 := by
  have others : ∀ task ∈ tasks, 0 ≠ task.1 := by decide
  rw [pagingInitialize, (initTasks_other others).1, (initTasks_other others).2]
  simp only [setTable, setDirectory, initNull_eq, Function.update_self, Function.update_apply,
    nulled_inside inside, and_true]
  by_cases first : i = PAGE_1
  · subst first
    rfl
  · rw [if_neg first, if_neg first]

end PageArrays

/-- After `paging_initialize` the arrays show a state with all on the screen. -/
theorem pagingInitialize_shows (lie : ∀ cr3, tables.page1Table cr3 = address (pageTableOf cr3))
    (aligned : ∀ cr3, tables.page1Table cr3 % 0x1000 = 0)
    (placed : TablesPlaced (arrays.pagingInitialize address) tables)
    (onScreen : ∀ pid, kernel.videoPage pid = .screen) :
    Shows (arrays.pagingInitialize address) tables kernel where
  aligned := aligned
  placed := placed
  directory cr3 notNull i inside := by
    rw [directoryEntry, lie]
    cases mapped : taskFrame cr3 with
    | some frame =>
        have member : (pageTableOf cr3, frame) ∈ PageArrays.tasks := by
          cases cr3 with
          | null => cases mapped
          | pageDirectory => cases mapped
          | _ =>
              cases mapped
              decide
        rw [(PageArrays.pagingInitialize_task member).directory i inside, userEntry, mapped]
    | none =>
        obtain rfl : cr3 = .pageDirectory := by
          cases cr3 with
          | null => exact absurd rfl notNull
          | pageDirectory => rfl
          | _ => cases mapped
        have zero : pageTableOf .pageDirectory = 0 := rfl
        rw [zero, (PageArrays.pagingInitialize_kernel inside).1, userEntry, mapped, ite_self]
  table number within i inside := by
    by_cases isKernel : number = 0
    · subst isKernel
      exact (PageArrays.pagingInitialize_kernel inside).2
    · obtain ⟨frame, member⟩ : ∃ frame, (number, frame) ∈ PageArrays.tasks := by
        have cases' : number = 1 ∨ number = 2 ∨ number = 3 ∨ number = 4 ∨ number = 5 ∨
            number = 6 := by omega
        rcases cases' with rfl | rfl | rfl | rfl | rfl | rfl
        · exact ⟨0x800000, by decide⟩
        · exact ⟨0xC00000, by decide⟩
        · exact ⟨0x1000000, by decide⟩
        · exact ⟨0x1400000, by decide⟩
        · exact ⟨0x1800000, by decide⟩
        · exact ⟨0x1C00000, by decide⟩
      rw [(PageArrays.pagingInitialize_task member).page1Table i inside, Kernel.videoEntry,
        if_neg isKernel, onScreen]
      rfl

/-- A store to the `VIDEO_PAGE` entry of a task. -/
theorem Shows.setTable {after : Kernel} {frame : VideoFrame} {moved : PageTables}
    (shows : Shows arrays tables kernel) (low : 1 ≤ pid)
    (videoPage : after.videoPage = Function.update kernel.videoPage pid frame)
    (sameTables : moved.page1Table = tables.page1Table)
    (placed : TablesPlaced (arrays.setTable pid VIDEO_PAGE
      (frame.address ||| PRESENT ||| USER_SV ||| READ_WRITE)) moved) :
    Shows (arrays.setTable pid VIDEO_PAGE (frame.address ||| PRESENT ||| USER_SV ||| READ_WRITE))
      moved after where
  aligned cr3 := by
    rw [sameTables]
    exact shows.aligned cr3
  placed := placed
  directory cr3 notNull i inside := by
    have entry : directoryEntry moved cr3 i = directoryEntry tables cr3 i := by
      rw [directoryEntry, directoryEntry, sameTables]
    rw [entry]
    exact shows.directory cr3 notNull i inside
  table number within i inside := by
    have before := shows.table number within i inside
    simp only [PageArrays.setTable, Kernel.videoEntry, videoPage, Function.update_apply] at before ⊢
    by_cases own : number = pid
    · subst own
      rw [if_pos rfl, if_pos rfl, Function.update_apply, if_neg (show ¬ number = 0 by omega)]
      split
      · rfl
      · rename_i other
        rw [before, if_neg other]
    · rw [if_neg own, if_neg own]
      exact before

theorem Shows.same {after : Kernel} {moved : PageTables} (shows : Shows arrays tables kernel)
    (videoPage : after.videoPage = kernel.videoPage)
    (sameTables : moved.page1Table = tables.page1Table) (placed : TablesPlaced arrays moved) :
    Shows arrays moved after where
  aligned cr3 := by
    rw [sameTables]
    exact shows.aligned cr3
  placed := placed
  directory cr3 notNull i inside := by
    have entry : directoryEntry moved cr3 i = directoryEntry tables cr3 i := by
      rw [directoryEntry, directoryEntry, sameTables]
    rw [entry]
    exact shows.directory cr3 notNull i inside
  table number within i inside := by
    rw [Kernel.videoEntry, videoPage]
    exact shows.table number within i inside

/-- The two mappings on the arrays are those on the state. -/
theorem Shows.videoMapping {moved : PageTables} (shows : Shows arrays tables kernel)
    (programId : Int) (sameTables : moved.page1Table = tables.page1Table)
    (placed : TablesPlaced (arrays.videoMapping programId) moved) :
    Shows (arrays.videoMapping programId) moved (kernel.videoMapping programId) := by
  simp only [PageArrays.videoMapping] at placed ⊢
  by_cases isTask : 1 ≤ programId ∧ programId ≤ 6
  · rw [if_pos isTask] at placed ⊢
    have pages : (kernel.videoMapping programId).videoPage =
        Function.update kernel.videoPage programId.toNat .screen := by
      funext pid
      simp only [Kernel.videoMapping, Function.update_apply]
      refine if_congr ?_ rfl rfl
      omega
    exact shows.setTable (by omega) pages sameTables placed
  · rw [if_neg isTask] at placed ⊢
    refine shows.same ?_ sameTables placed
    funext pid
    exact if_neg fun inRange => isTask ⟨inRange.1, inRange.2.1⟩

theorem Shows.nonVideoMapping {moved : PageTables} (shows : Shows arrays tables kernel)
    (programId : Int) (terminal : TerminalId) (sameTables : moved.page1Table = tables.page1Table)
    (placed : TablesPlaced (arrays.nonVideoMapping programId terminal) moved) :
    Shows (arrays.nonVideoMapping programId terminal) moved
      (kernel.nonVideoMapping programId terminal) := by
  simp only [PageArrays.nonVideoMapping] at placed ⊢
  by_cases isTask : 1 ≤ programId ∧ programId ≤ 6
  · rw [if_pos isTask] at placed ⊢
    have pages : (kernel.nonVideoMapping programId terminal).videoPage =
        Function.update kernel.videoPage programId.toNat (.termBuffer terminal) := by
      funext pid
      simp only [Kernel.nonVideoMapping, Function.update_apply]
      refine if_congr ?_ rfl rfl
      omega
    exact shows.setTable (by omega) pages sameTables placed
  · rw [if_neg isTask] at placed ⊢
    refine shows.same ?_ sameTables placed
    funext pid
    exact if_neg fun inRange => isTask ⟨inRange.1, inRange.2.1⟩

/-- A call that changes the arrays. -/
inductive PageMapping where
  | video (programId : Int)
  | nonVideo (programId : Int) (terminal : TerminalId)

def PageArrays.map (arrays : PageArrays) : PageMapping → PageArrays
  | .video programId => arrays.videoMapping programId
  | .nonVideo programId terminal => arrays.nonVideoMapping programId terminal

def Kernel.map (kernel : Kernel) : PageMapping → Kernel
  | .video programId => kernel.videoMapping programId
  | .nonVideo programId terminal => kernel.nonVideoMapping programId terminal

/-- Where the processor finds the arrays, whatever they hold. -/
structure TablesLie (address : Nat → Nat) (tables : PageArrays → PageTables) : Prop where
  lie : ∀ arrays cr3, (tables arrays).page1Table cr3 = address (pageTableOf cr3)
  aligned : ∀ number, address number % 0x1000 = 0
  placed : ∀ arrays, TablesPlaced arrays (tables arrays)

variable {view : PageArrays → PageTables} {after : Kernel}

theorem Shows.map (lie : TablesLie address view) (shows : Shows arrays (view arrays) kernel)
    (mapping : PageMapping) :
    Shows (arrays.map mapping) (view (arrays.map mapping)) (kernel.map mapping) := by
  have sameTables : (view (arrays.map mapping)).page1Table = (view arrays).page1Table := by
    funext cr3
    rw [lie.lie, lie.lie]
  cases mapping with
  | video programId => exact shows.videoMapping programId sameTables (lie.placed _)
  | nonVideo programId terminal =>
      exact shows.nonVideoMapping programId terminal sameTables (lie.placed _)

theorem Shows.maps (lie : TablesLie address view) (shows : Shows arrays (view arrays) kernel)
    (mappings : List PageMapping) :
    Shows (mappings.foldl PageArrays.map arrays) (view (mappings.foldl PageArrays.map arrays))
      (mappings.foldl Kernel.map kernel) := by
  induction mappings generalizing arrays kernel with
  | nil => exact shows
  | cons mapping rest ih => exact ih (shows.map lie mapping)

/-- Every event of the kernel changes the video pages by calls of the two mappings only. -/
theorem step_maps {image : Image} {event : Event} (stepped : kernel.step image event = some after) :
    ∃ mappings : List PageMapping, after.videoPage = (mappings.foldl Kernel.map kernel).videoPage := by
  cases event with
  | execute command frame =>
      obtain ⟨⟨control, _⟩, returned, rfl⟩ := Option.map_eq_some_iff.mp stepped
      rcases execute_eq_done (Outcome.toOption_eq_some.mp returned) with
        ⟨_, rfl⟩ | ⟨_, _, _, _, launched⟩
      · exact ⟨[], rfl⟩
      · exact ⟨[], launched.display.videoPage⟩
  | halt status =>
      obtain ⟨⟨control, _⟩, returned, rfl⟩ := Option.map_eq_some_iff.mp stepped
      rcases halt_eq_done (Outcome.toOption_eq_some.mp returned) with
        ⟨_, _, restarted⟩ | ⟨_, _, _, left⟩
      · exact ⟨[], by rw [restarted.state]; rfl⟩
      · exact ⟨[], left.display.videoPage⟩
  | terminalSwitch term irq frame tlb =>
      obtain ⟨⟨control, _⟩, returned, rfl⟩ := Option.map_eq_some_iff.mp stepped
      rcases terminalSwitch_eq_done (Outcome.toOption_eq_some.mp returned) with
        ⟨_, rfl⟩ | ⟨target, cur, left, _, _, leaving, ⟨_, started⟩ | ⟨_, resumed⟩⟩
      · exact ⟨[], rfl⟩
      · refine ⟨[.nonVideo cur kernel.oldTerminal], ?_⟩
        have pages : left.videoPage = (kernel.nonVideoMapping cur kernel.oldTerminal).videoPage :=
          leaving.videoPage
        rcases execute_eq_done started with ⟨_, rfl⟩ | ⟨_, _, _, _, launched⟩
        · exact pages
        · exact launched.display.videoPage.trans pages
      · refine ⟨[.nonVideo cur kernel.oldTerminal, .video (left.terminals target).programId], ?_⟩
        have state := congrArg Prod.snd resumed
        dsimp only at state ⊢
        rw [state, resumeTerminal_videoPage]
        simp only [Kernel.videoMapping, leaving.videoPage]
        rfl
  | sysOpen filename =>
      obtain ⟨⟨value, _⟩, returned, rfl⟩ := Option.map_eq_some_iff.mp stepped
      exact ⟨[], (sysOpen_quiet (Outcome.toOption_eq_some.mp returned)).display.videoPage⟩
  | sysClose fd =>
      obtain ⟨⟨value, _⟩, returned, rfl⟩ := Option.map_eq_some_iff.mp stepped
      exact ⟨[], (sysClose_quiet (Outcome.toOption_eq_some.mp returned)).display.videoPage⟩
  | sysRead fd buf nbytes =>
      obtain ⟨⟨value, result, _⟩, returned, rfl⟩ := Option.map_eq_some_iff.mp stepped
      exact ⟨[], (sysRead_quiet (Outcome.toOption_eq_some.mp returned)).display.videoPage⟩

/-- The calls of the two mappings since `paging_initialize` have left arrays that show the state. -/
def ShownBy (arrays : PageArrays) (view : PageArrays → PageTables) (kernel : Kernel) : Prop :=
  ∃ mappings : List PageMapping, Shows (mappings.foldl PageArrays.map arrays)
    (view (mappings.foldl PageArrays.map arrays)) kernel

theorem ShownBy.samePages (shown : ShownBy arrays view kernel)
    (videoPage : after.videoPage = kernel.videoPage) : ShownBy arrays view after := by
  obtain ⟨mappings, shows⟩ := shown
  exact ⟨mappings, shows.same videoPage rfl shows.placed⟩

theorem ShownBy.step {image : Image} {event : Event} (lie : TablesLie address view)
    (shown : ShownBy arrays view kernel) (stepped : kernel.step image event = some after) :
    ShownBy arrays view after := by
  obtain ⟨mappings, shows⟩ := shown
  obtain ⟨later, videoPage⟩ := step_maps stepped
  have mapped := shows.maps lie later
  refine ⟨mappings ++ later, ?_⟩
  rw [List.foldl_append]
  exact mapped.same videoPage rfl mapped.placed

theorem FirstShell.shownBy {image : Image} {first : Kernel} (lie : TablesLie address view)
    (started : FirstShell image first) :
    ShownBy (arrays.pagingInitialize address) view first := by
  obtain ⟨memory, _, _, launched⟩ := started.launched
  refine ⟨[], pagingInitialize_shows (lie.lie _) (fun cr3 => ?_) (lie.placed _) fun pid => ?_⟩
  · rw [List.foldl_nil, lie.lie]
    exact lie.aligned _
  · rw [launched.display.videoPage]
    exact boot_videoPage memory pid

/-- In every state that a run from boot reaches, the arrays show the state. -/
theorem ConsoleReachable.shownBy {image : Image} {behind : BehindTables} {driver : TerminalDriver}
    (lie : TablesLie address view) (reachable : ConsoleReachable image behind driver) :
    ShownBy (arrays.pagingInitialize address) view driver.kernel := by
  obtain ⟨first, keyboard, inputs, started, messages, starts, ran⟩ := reachable
  have preserved : ∀ (driver : TerminalDriver) (input : ConsoleInput) (next : TerminalDriver),
      ((∃ processes, Attended driver.kernel processes) ∧
        ShownBy (arrays.pagingInitialize address) view driver.kernel) →
      driver.StartsShells image behind input →
      (consoleSystem image behind).step driver input = some next →
      (∃ processes, Attended next.kernel processes) ∧
        ShownBy (arrays.pagingInitialize address) view next.kernel := by
    intro driver input next ⟨⟨processes, attended⟩, shown⟩ startsHere stepped
    refine ⟨driver_step_attended attended startsHere stepped, ?_⟩
    obtain ⟨asked, console, drawn, _, draws, follows⟩ := driver_step attended startsHere stepped
    have shownDrawn := shown.samePages draws.videoPage
    cases event : input.follow asked with
    | none =>
        rw [event] at follows
        rw [follows]
        exact shownDrawn
    | some event' =>
        rw [event] at follows
        exact shownDrawn.step lie follows.1
  exact ((Transitions.always_of_respects preserved
    ⟨started.attended, started.shownBy lie⟩ starts).last ran).2

/-- The flags of an entry are in its low bits. -/
theorem and_flag {entry flag : Nat} (small : flag < 2 ^ 12) :
    entry &&& flag = entry % 2 ^ 12 &&& flag := by
  have low : flag = flag &&& 2 ^ 12 - 1 := by
    rw [Nat.and_two_pow_sub_one_eq_mod, Nat.mod_eq_of_lt small]
  calc entry &&& flag = entry &&& (2 ^ 12 - 1 &&& flag) := by rw [Nat.and_comm (2 ^ 12 - 1), ← low]
    _ = (entry &&& 2 ^ 12 - 1) &&& flag := (Nat.and_assoc ..).symm
    _ = entry % 2 ^ 12 &&& flag := by rw [Nat.and_two_pow_sub_one_eq_mod]

theorem tableEntry_eq {place : Nat} (aligned : place % 0x1000 = 0) :
    place ||| PRESENT ||| READ_WRITE ||| USER_SV = place + 7 := by
  have multiple : place = 2 ^ 12 * (place / 2 ^ 12) := by omega
  rw [Nat.or_assoc, Nat.or_assoc]
  have flags : PRESENT ||| (READ_WRITE ||| USER_SV) = 7 := by decide
  rw [flags, multiple]
  exact (Nat.two_pow_add_eq_or_of_lt (by decide) _).symm

/-- The first entry of a directory points to its table and stops nobody. -/
theorem tableEntry_admits {place : Nat} (aligned : place % 0x1000 = 0) (user : Bool) :
    Admits (place + 7) user ∧ place + 7 &&& SIZE_4MB = 0 ∧ place + 7 &&& READ_WRITE ≠ 0 ∧
      (place + 7) / 0x1000 * 0x1000 = place := by
  have low : (place + 7) % 2 ^ 12 = 7 := by omega
  refine ⟨⟨?_, fun _ => ?_⟩, ?_, ?_, by omega⟩
  · rw [and_flag (by decide), low]
    decide
  · rw [and_flag (by decide), low]
    decide
  · rw [and_flag (by decide), low]
    decide
  · rw [and_flag (by decide), low]
    decide

/-- A store in user mode has to be admitted by both entries. -/
def translateUserStore (tables : PageTables) (cr3 : Cr3) (address : Nat) : Option Nat :=
  let entry := directoryEntry tables cr3 (address / 0x400000)
  let page := tables.entry (entry / 0x1000 * 0x1000) (address / 0x1000 % PAGE_SIZE)
  if entry &&& READ_WRITE = 0 ∨ entry &&& SIZE_4MB = 0 ∧ page &&& READ_WRITE = 0 then none
  else translate tables cr3 true address

variable {user : Bool} {place physical : Nat}

theorem translate_absent (absent : directoryEntry tables cr3 (place / 0x400000) = 0) :
    translate tables cr3 user place = none := by
  have stops : ¬ Admits 0 user := fun admitted => admitted.1 rfl
  simp only [translate]
  rw [absent, if_pos stops]

/-- The page of the kernel is mapped to itself, and for the kernel only. -/
theorem translate_kernelPage (low : KERNEL_MEM ≤ place) (high : place < 2 * KERNEL_MEM) :
    translate tables cr3 false place = some place ∧ translate tables cr3 true place = none := by
  have index : place / 0x400000 = KERNEL_PAGE := by
    unfold KERNEL_MEM at low high
    unfold KERNEL_PAGE
    omega
  have same : KERNEL_MEM + place % 0x400000 = place := by
    unfold KERNEL_MEM at low high ⊢
    omega
  have entry : directoryEntry tables cr3 KERNEL_PAGE = KERNEL_MEM ||| SIZE_4MB ||| PRESENT := rfl
  simp only [translate]
  rw [index, entry]
  refine ⟨?_, ?_⟩
  · rw [if_neg (by decide), if_pos (by decide)]
    have base : (KERNEL_MEM ||| SIZE_4MB ||| PRESENT) / 0x400000 * 0x400000 = KERNEL_MEM := by
      decide
    rw [base, same]
  · rw [if_pos (by decide)]

theorem videoPage_admits (video : VideoFrame) (user : Bool) :
    Admits (video.address ||| PRESENT ||| USER_SV ||| READ_WRITE) user ∧
      (video.address ||| PRESENT ||| USER_SV ||| READ_WRITE) &&& READ_WRITE ≠ 0 ∧
      (video.address ||| PRESENT ||| USER_SV ||| READ_WRITE) / 0x1000 * 0x1000 =
        video.address := by
  have aligned : video.address % 0x1000 = 0 := by
    cases video with
    | screen => rfl
    | termBuffer term =>
        simp only [VideoFrame.address]
        omega
  have flags : video.address ||| PRESENT ||| USER_SV ||| READ_WRITE = video.address + 7 := by
    rw [← tableEntry_eq aligned, Nat.or_assoc (video.address ||| PRESENT),
      Nat.or_comm USER_SV READ_WRITE, ← Nat.or_assoc]
  obtain ⟨admits, _, writable, base⟩ := tableEntry_admits aligned user
  rw [flags]
  exact ⟨admits, writable, base⟩

/-- Below 4 MB there is the video page and nothing else. -/
theorem Shows.translate_low (shows : Shows arrays tables kernel) (user : Bool) (notNull : cr3 ≠ .null)
    (task : pageTableOf cr3 ≠ 0) (within : pageTableOf cr3 ≤ 6) (low : place < 0x400000) :
    translate tables cr3 user place =
        (if place / 0x1000 = VIDEO_PAGE then
          some ((kernel.videoPage (pageTableOf cr3)).address + place % 0x1000)
        else none) ∧
      (place / 0x1000 = VIDEO_PAGE →
        translateUserStore tables cr3 place = translate tables cr3 true place) := by
  have index : place / 0x400000 = PAGE_1 := by
    unfold PAGE_1
    omega
  have inside : place / 0x1000 < PAGE_SIZE := by
    unfold PAGE_SIZE
    omega
  have entry : directoryEntry tables cr3 PAGE_1 = tables.page1Table cr3 + 7 :=
    tableEntry_eq (shows.aligned cr3)
  obtain ⟨admits, small, writable, base⟩ := tableEntry_admits (shows.aligned cr3) user
  have page : tables.entry (tables.page1Table cr3) (place / 0x1000 % PAGE_SIZE) =
      if place / 0x1000 = VIDEO_PAGE then kernel.videoEntry (pageTableOf cr3) else 0 := by
    rw [Nat.mod_eq_of_lt inside, shows.placed cr3 notNull _ inside,
      shows.table _ within _ inside]
  obtain ⟨shown, stores, frame⟩ := videoPage_admits (kernel.videoPage (pageTableOf cr3)) user
  have video : kernel.videoEntry (pageTableOf cr3) =
      (kernel.videoPage (pageTableOf cr3)).address ||| PRESENT ||| USER_SV ||| READ_WRITE :=
    if_neg task
  constructor
  · simp only [translate]
    rw [index, entry, if_neg (not_not_intro admits), if_neg (not_not_intro small), base, page]
    by_cases isVideo : place / 0x1000 = VIDEO_PAGE
    · rw [if_pos isVideo, if_pos isVideo, video, if_neg (not_not_intro shown), frame]
    · have stops : ¬ Admits 0 user := fun admitted => admitted.1 rfl
      rw [if_neg isVideo, if_neg isVideo, if_pos stops]
  · intro isVideo
    simp only [translateUserStore]
    rw [index, entry, base, page, if_pos isVideo, video]
    refine if_neg ?_
    rintro (refused | refused)
    · exact writable refused
    · exact stores refused.2

/-- Where the accesses of a process lead: its own page of 4 MB and the page that is
its video page. -/
def Reaches (kernel : Kernel) (pid place physical : Nat) : Prop :=
  USER_START ≤ place ∧ place < USER_END ∧
      physical = 0x400000 * (pid + 1) + (place - USER_START) ∨
    VIDEO_MEM ≤ place ∧ place < VIDEO_MEM + 0x1000 ∧
      physical = (kernel.videoPage pid).address + (place - VIDEO_MEM)

/-- Entry 32 is the only one above the page of the kernel. -/
theorem translate_high (high : 2 * KERNEL_MEM ≤ place)
    (outside : place < USER_START ∨ USER_END ≤ place) :
    translate tables cr3 user place = none := by
  apply translate_absent
  unfold KERNEL_MEM at high
  unfold USER_START USER_END at outside
  have notTable : place / 0x400000 ≠ PAGE_1 := by
    unfold PAGE_1
    omega
  have notKernel : place / 0x400000 ≠ KERNEL_PAGE := by
    unfold KERNEL_PAGE
    omega
  have notUser : place / 0x400000 ≠ 32 := by omega
  rw [directoryEntry, if_neg notTable, if_neg notKernel, if_neg notUser]

/-- A task whose directory is loaded. -/
theorem loaded_task (low : 1 ≤ pid) (current : findProgramid cr3 = .done pid) :
    cr3 ≠ .null ∧ pageTableOf cr3 = pid ∧ taskFrame cr3 = some (0x400000 * (pid + 1)) := by
  refine ⟨?_, ?_, taskFrame_eq_some.mpr ⟨pid, low, current, rfl⟩⟩
  · rintro rfl
    cases current
  · rw [pageTableOf, current]
    rfl

theorem Shows.reaches (shows : Shows arrays tables kernel) (low : 1 ≤ pid) (high : pid ≤ 6)
    (current : findProgramid cr3 = .done pid) :
    translate tables cr3 true place = some physical ↔ Reaches kernel pid place physical := by
  obtain ⟨notNull, number, mapped⟩ := loaded_task low current
  have kernelMem : KERNEL_MEM = 0x400000 := rfl
  have userStart : USER_START = 0x8000000 := rfl
  have userEnd : USER_END = 0x8400000 := rfl
  have videoMem : VIDEO_MEM = 0xB8000 := rfl
  unfold Reaches
  by_cases isLow : place < 0x400000
  · obtain ⟨walk, _⟩ := shows.translate_low true notNull (by omega) (by omega) isLow
    rw [walk, number]
    have inVideo : place / 0x1000 = VIDEO_PAGE ↔
        VIDEO_MEM ≤ place ∧ place < VIDEO_MEM + 0x1000 := by
      unfold VIDEO_PAGE
      omega
    by_cases isVideo : place / 0x1000 = VIDEO_PAGE
    · have offset : place % 0x1000 = place - VIDEO_MEM := by
        unfold VIDEO_PAGE at isVideo
        omega
      rw [if_pos isVideo, offset]
      obtain ⟨start, stop⟩ := inVideo.mp isVideo
      constructor
      · intro found
        exact .inr ⟨start, stop, (Option.some.inj found).symm⟩
      · rintro (own | video)
        · omega
        · exact congrArg some video.2.2.symm
    · rw [if_neg isVideo]
      constructor
      · intro found
        cases found
      · rintro (own | video)
        · omega
        · exact absurd (inVideo.mpr ⟨video.1, video.2.1⟩) isVideo
  · by_cases isKernel : place < 2 * KERNEL_MEM
    · have stopped : translate tables cr3 true place = none :=
        (translate_kernelPage (by omega) isKernel).2
      rw [stopped]
      constructor
      · intro found
        cases found
      · rintro (own | video) <;> omega
    · by_cases isUser : USER_START ≤ place ∧ place < USER_END
      · have walk : translate tables cr3 true (USER_START + (place - USER_START)) =
            some (0x400000 * (pid + 1) + (place - USER_START)) :=
          translate_userPage mapped (by omega)
        rw [Nat.add_sub_cancel' isUser.1] at walk
        rw [walk]
        constructor
        · intro found
          exact .inl ⟨isUser.1, isUser.2, (Option.some.inj found).symm⟩
        · rintro (own | video)
          · exact congrArg some own.2.2.symm
          · omega
      · have stopped : translate tables cr3 true place = none :=
          translate_high (by omega) (by omega)
        rw [stopped]
        constructor
        · intro found
          cases found
        · rintro (own | video) <;> omega

/-- What a process can load it can store to. -/
theorem Shows.stores (shows : Shows arrays tables kernel) (low : 1 ≤ pid) (high : pid ≤ 6)
    (current : findProgramid cr3 = .done pid) :
    translateUserStore tables cr3 place = translate tables cr3 true place := by
  obtain ⟨notNull, number, mapped⟩ := loaded_task low current
  have unreached : translate tables cr3 true place = none →
      translateUserStore tables cr3 place = translate tables cr3 true place := by
    intro stopped
    simp only [translateUserStore, stopped, ite_self]
  cases walk : translate tables cr3 true place with
  | none => rw [unreached walk, walk]
  | some physical =>
      have userStart : USER_START = 0x8000000 := rfl
      have userEnd : USER_END = 0x8400000 := rfl
      have videoMem : VIDEO_MEM = 0xB8000 := rfl
      rcases (shows.reaches low high current).mp walk with own | video
      · have index : place / 0x400000 = 32 := by omega
        have entry : directoryEntry tables cr3 32 = userEntry cr3 := rfl
        obtain ⟨large, _⟩ := userEntry_large mapped
        have writable : userEntry cr3 &&& READ_WRITE ≠ 0 := by
          cases cr3 with
          | null => cases mapped
          | pageDirectory => cases mapped
          | _ => decide
        simp only [translateUserStore]
        rw [index, entry, walk]
        refine if_neg ?_
        rintro (refused | refused)
        · exact writable refused
        · exact large refused.1
      · have isVideo : place / 0x1000 = VIDEO_PAGE := by
          unfold VIDEO_PAGE
          omega
        rw [← walk]
        exact (shows.translate_low true notNull (by omega) (by omega)
          (by omega)).2 isVideo

/-- What the walks of the processor do in a state. -/
structure Protected (tables : PageTables) (kernel : Kernel) : Prop where
  /-- A process reaches its page and its video page, and may store where it may load. -/
  user : ∀ pid cr3, 1 ≤ pid → pid ≤ 6 → findProgramid cr3 = .done pid → ∀ place physical,
    (translate tables cr3 true place = some physical ↔ Reaches kernel pid place physical) ∧
    (translateUserStore tables cr3 place = some physical ↔ Reaches kernel pid place physical)
  /-- Two processes share the screen at most. -/
  apart : ∀ left right, 1 ≤ left → 1 ≤ right → left ≠ right →
    ∀ leftPlace rightPlace physical, Reaches kernel left leftPlace physical →
    Reaches kernel right rightPlace physical →
    VIDEO_MEM ≤ physical ∧ physical < VIDEO_MEM + 0x1000
  /-- In the page of the kernel a process reaches the buffer of its hidden terminal. -/
  kernelPage : ∀ pid place physical, 1 ≤ pid → Reaches kernel pid place physical →
    KERNEL_MEM ≤ physical → physical < 2 * KERNEL_MEM →
    ∃ term : TerminalId, kernel.Backgrounds term pid ∧
      0x600000 + 0x1000 * term ≤ physical ∧ physical < 0x600000 + 0x1000 * term + 0x1000
  /-- With every directory the kernel finds its page at its place. -/
  identity : ∀ cr3 place, KERNEL_MEM ≤ place → place < 2 * KERNEL_MEM →
    translate tables cr3 false place = some place
  /-- A process runs, and its video page is the screen. -/
  running : ∃ pid, 1 ≤ pid ∧ pid ≤ 6 ∧ findProgramid kernel.cr3 = .done pid ∧
    kernel.videoPage pid = .screen

variable {processes : Forest TerminalId Nat} {left right leftPlace rightPlace : Nat}

theorem VideoFrame.address_lt (video : VideoFrame) : video.address + 0x1000 < 2 * KERNEL_MEM := by
  unfold KERNEL_MEM
  cases video with
  | screen => decide
  | termBuffer term =>
      simp only [VideoFrame.address]
      omega

/-- A buffer belongs to one process. -/
theorem Mapped.buffer_apart (mapped : Mapped kernel processes) (different : left ≠ right)
    (same : kernel.videoPage left = kernel.videoPage right) : kernel.videoPage left = .screen := by
  refine VideoFrame.eq_screen fun term isBuffer => ?_
  have newest := (mapped.buffer left term).mp isBuffer
  have other := (mapped.buffer right term).mp (same.symm.trans isBuffer)
  exact different (Option.some.inj (newest.2.symm.trans other.2))

theorem VideoFrame.apart {video other : VideoFrame} {offset otherOffset : Nat}
    (small : offset < 0x1000) (otherSmall : otherOffset < 0x1000)
    (same : video.address + offset = other.address + otherOffset) : video = other := by
  cases video with
  | screen =>
      cases other with
      | screen => rfl
      | termBuffer term =>
          simp only [VideoFrame.address] at same
          omega
  | termBuffer term =>
      cases other with
      | screen =>
          simp only [VideoFrame.address] at same
          omega
      | termBuffer another =>
          simp only [VideoFrame.address] at same
          have equal : term = another := Fin.ext (by omega)
          rw [equal]

theorem reaches_apart (mapped : Mapped kernel processes) (lowLeft : 1 ≤ left) (lowRight : 1 ≤ right)
    (different : left ≠ right) (fromLeft : Reaches kernel left leftPlace physical)
    (fromRight : Reaches kernel right rightPlace physical) :
    VIDEO_MEM ≤ physical ∧ physical < VIDEO_MEM + 0x1000 := by
  have userStart : USER_START = 0x8000000 := rfl
  have userEnd : USER_END = 0x8400000 := rfl
  have kernelMem : KERNEL_MEM = 0x400000 := rfl
  have leftVideo := (kernel.videoPage left).address_lt
  have rightVideo := (kernel.videoPage right).address_lt
  rcases fromLeft with ⟨start, stop, place⟩ | ⟨start, stop, place⟩
  · rcases fromRight with ⟨startRight, stopRight, placeRight⟩ | ⟨startRight, stopRight, placeRight⟩
    · omega
    · omega
  · rcases fromRight with ⟨startRight, stopRight, placeRight⟩ | ⟨startRight, stopRight, placeRight⟩
    · omega
    · have same : kernel.videoPage left = kernel.videoPage right :=
        VideoFrame.apart (by omega) (by omega) (place.symm.trans placeRight)
      have screen : (kernel.videoPage left).address = VIDEO_MEM := by
        rw [mapped.buffer_apart different same]
        rfl
      omega

theorem reaches_kernelPage (consistent : Consistent kernel processes)
    (mapped : Mapped kernel processes) (low : 1 ≤ pid) (reaches : Reaches kernel pid place physical)
    (above : KERNEL_MEM ≤ physical) (below : physical < 2 * KERNEL_MEM) :
    ∃ term : TerminalId, kernel.Backgrounds term pid ∧
      0x600000 + 0x1000 * term ≤ physical ∧ physical < 0x600000 + 0x1000 * term + 0x1000 := by
  have kernelMem : KERNEL_MEM = 0x400000 := rfl
  have videoMem : VIDEO_MEM = 0xB8000 := rfl
  rcases reaches with own | video
  · omega
  · cases page : kernel.videoPage pid with
    | screen =>
        have address : (kernel.videoPage pid).address = VIDEO_MEM := by
          rw [page]
          rfl
        omega
    | termBuffer term =>
        have address : (kernel.videoPage pid).address = 0x600000 + 0x1000 * term := by
          rw [page]
          rfl
        refine ⟨term, (backgrounds_iff consistent).mpr ((mapped.buffer pid term).mp page), ?_, ?_⟩
        · omega
        · omega

/-- The process that runs is the newest of the shown terminal. -/
theorem current_process (consistent : Consistent kernel processes)
    (current : findProgramid kernel.cr3 = .done pid) : 1 ≤ pid ∧ pid ≤ 6 := by
  cases chain : processes.chain kernel.oldTerminal with
  | nil => exact absurd chain ((consistent.active _).mp consistent.shown)
  | cons leaf older =>
      have newest : (processes.chain kernel.oldTerminal).head? = some leaf := by
        rw [chain]
        rfl
      have directory := consistent.current
      rw [consistent.leaf _ leaf newest] at directory
      obtain rfl : pid = leaf :=
        Outcome.done.inj (current.symm.trans (pageDirectoryOf_findProgramid.mpr directory))
      exact consistent.range pid ⟨_, head_mem newest⟩

/-- The tables lie one behind the other from 5 MB on. -/
def exampleTables (arrays : PageArrays) : PageTables :=
  ⟨fun cr3 => 0x500000 + 0x1000 * pageTableOf cr3,
    fun place i => arrays.page1Table ((place - 0x500000) / 0x1000) i⟩

theorem exampleTables_lie :
    TablesLie (fun number => 0x500000 + 0x1000 * number) exampleTables where
  lie _ _ := rfl
  aligned number := by omega
  placed arrays cr3 _ i _ := by
    simp only [exampleTables]
    rw [Nat.add_sub_cancel_left, Nat.mul_div_cancel_left _ (by decide)]

end Ece391
