import Ece391.SystemCall.Arguments

namespace Ece391

/-! # Paging (paging.c)

The page directories are written once, by `paging_initialize`; afterwards only
the `VIDEO_PAGE` entries of the page tables change.
-/

def KERNEL_MEM : Nat := 0x400000
def PAGE_SIZE : Nat := 1024
def PAGE_1 : Nat := 0
def KERNEL_PAGE : Nat := 1
def PRESENT : Nat := 0x01
def READ_WRITE : Nat := 0x02
def USER_SV : Nat := 0x04
def SIZE_4MB : Nat := 0x80

/-- The page of 4 MB that a task's directory has in entry 32; `page_directory`
has none. -/
def taskFrame : Cr3 → Option Nat
  | .task1PageDirectory => some 0x800000
  | .task2PageDirectory => some 0xC00000
  | .task3PageDirectory => some 0x1000000
  | .task4PageDirectory => some 0x1400000
  | .task5PageDirectory => some 0x1800000
  | .task6PageDirectory => some 0x1C00000
  | .pageDirectory => none
  | .null => none

def userEntry (cr3 : Cr3) : Nat :=
  match taskFrame cr3 with
  | some frame => frame ||| SIZE_4MB ||| PRESENT ||| USER_SV ||| READ_WRITE
  | none => 0

/-- The page tables: the address of each directory's `page1_table` and the
entries of the table at an address. -/
structure PageTables where
  page1Table : Cr3 → Nat
  entry : Nat → Nat → Nat

def directoryEntry (tables : PageTables) (cr3 : Cr3) (i : Nat) : Nat :=
  if i = PAGE_1 then tables.page1Table cr3 ||| PRESENT ||| READ_WRITE ||| USER_SV
  else if i = KERNEL_PAGE then KERNEL_MEM ||| SIZE_4MB ||| PRESENT
  else if i = 32 then userEntry cr3
  else 0

/-- An entry that does not stop an access.  The kernel's own are not checked for more
than presence. -/
def Admits (entry : Nat) (user : Bool) : Prop :=
  entry &&& PRESENT ≠ 0 ∧ (user = true → entry &&& USER_SV ≠ 0)

instance (entry : Nat) (user : Bool) : Decidable (Admits entry user) := by
  unfold Admits; infer_instance

/-- The page walk of the processor, for a load, or for a store in kernel mode. -/
def translate (tables : PageTables) (cr3 : Cr3) (user : Bool) (address : Nat) : Option Nat :=
  let entry := directoryEntry tables cr3 (address / 0x400000)
  if ¬ Admits entry user then none
  else if entry &&& SIZE_4MB ≠ 0 then some (entry / 0x400000 * 0x400000 + address % 0x400000)
  else
    let page := tables.entry (entry / 0x1000 * 0x1000) (address / 0x1000 % PAGE_SIZE)
    if ¬ Admits page user then none
    else some (page / 0x1000 * 0x1000 + address % 0x1000)

variable {tables : PageTables} {cr3 other : Cr3} {user : Bool} {frame address offset : Nat}

theorem userEntry_admits (mapped : taskFrame cr3 = some frame) (user : Bool) :
    Admits (userEntry cr3) user := by
  cases cr3 with
  | pageDirectory => cases mapped
  | null => cases mapped
  | _ => exact ⟨by decide, fun _ => by decide⟩

theorem userEntry_large (mapped : taskFrame cr3 = some frame) :
    userEntry cr3 &&& SIZE_4MB ≠ 0 ∧ userEntry cr3 / 0x400000 * 0x400000 = frame := by
  cases cr3 with
  | pageDirectory => cases mapped
  | null => cases mapped
  | _ => cases mapped; decide

/-- Entry 32 maps the addresses of the user page to the frame of the task. -/
theorem translate_userPage (mapped : taskFrame cr3 = some frame) (inside : offset < 0x400000) :
    translate tables cr3 user (USER_START + offset) = some (frame + offset) := by
  obtain ⟨large, base⟩ := userEntry_large mapped
  have index : (USER_START + offset) / 0x400000 = 32 := by
    unfold USER_START
    omega
  have rest : (USER_START + offset) % 0x400000 = offset := by
    unfold USER_START
    omega
  have entry : directoryEntry tables cr3 32 = userEntry cr3 := rfl
  simp only [translate]
  rw [index, entry, rest, if_neg (not_not_intro (userEntry_admits mapped user)), if_pos large, base]

/-- Entry 33 is empty in every directory. -/
theorem translate_behind (low : USER_END ≤ address) (high : address < USER_END + 0x400000) :
    translate tables cr3 user address = none := by
  have index : address / 0x400000 = 33 := by
    unfold USER_END at low high
    omega
  have entry : directoryEntry tables cr3 33 = 0 := rfl
  have absent : ¬ Admits 0 user := fun admitted => admitted.1 rfl
  simp only [translate]
  rw [index, entry, if_pos absent]

/-- The frames of the tasks lie side by side from 8 MB on. -/
theorem taskFrame_eq_some : taskFrame cr3 = some frame ↔
    ∃ programId, 1 ≤ programId ∧ findProgramid cr3 = .done programId ∧
      frame = 0x400000 * (programId + 1) := by
  constructor
  · intro mapped
    refine ⟨pageTableOf cr3, ?_⟩
    cases cr3 with
    | pageDirectory => cases mapped
    | null => cases mapped
    | _ =>
        cases mapped
        exact ⟨by decide, rfl, rfl⟩
  · rintro ⟨programId, low, found, rfl⟩
    cases cr3 with
    | null => cases found
    | pageDirectory =>
        cases found
        omega
    | _ =>
        cases found
        rfl

theorem taskFrame_exists {programId : Nat} (low : 1 ≤ programId) (high : programId ≤ 6) :
    ∃ cr3 frame, pageDirectoryOf programId = some cr3 ∧ taskFrame cr3 = some frame := by
  obtain ⟨cr3, directory⟩ := pageDirectoryOf_exists high
  exact ⟨cr3, _, directory, taskFrame_eq_some.mpr
    ⟨programId, low, pageDirectoryOf_findProgramid.mpr directory, rfl⟩⟩

theorem taskFrame_apart {left right : Nat} (mapped : taskFrame cr3 = some left)
    (otherMapped : taskFrame other = some right) (different : other ≠ cr3) :
    left + 0x400000 ≤ right ∨ right + 0x400000 ≤ left := by
  obtain ⟨programId, _, found, rfl⟩ := taskFrame_eq_some.mp mapped
  obtain ⟨otherId, _, otherFound, rfl⟩ := taskFrame_eq_some.mp otherMapped
  have distinct : programId ≠ otherId := by
    rintro rfl
    have directory := pageDirectoryOf_findProgramid.mp found
    rw [pageDirectoryOf_findProgramid.mp otherFound] at directory
    exact different (Option.some.inj directory)
  omega

end Ece391
