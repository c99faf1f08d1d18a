import Ece391.Process.Effects

namespace Ece391

open Library Kernel

/-! # Tables that open and close leave

`open` marks a descriptor used before it looks at the type of the entry, and
`read` and `write` trust the mark alone.
-/

/-- Descriptors 2 to 7 are closed and the other two are the terminal's. -/
structure FreshTable (pcb : Pcb) : Prop where
  terminal : ∀ fd < 2, (pcb.fd fd).sysopsPtr = .terminalOps
  closed : ∀ fd, 2 ≤ fd → fd ≤ 7 → (pcb.fd fd).flags = 0

def DriverTable (sysops : SysOps) : Prop :=
  sysops = .rtcOps ∨ sysops = .terminalOps ∨ sysops = .directoryOps ∨ sysops = .fileOps

/-- Every descriptor that is marked used has the table of a driver. -/
def UsableTable (pcb : Pcb) : Prop :=
  ∀ fd ≤ 7, (pcb.fd fd).flags ≠ 0 → DriverTable (pcb.fd fd).sysopsPtr

def OpenOrClose : Event → Prop
  | .sysOpen _ | .sysClose _ => True
  | _ => False

/-- An `open` that returns -1 leaves the table of its process as it was. -/
def FailsCleanly (kernel : Kernel) (image : Image) : Event → Prop
  | .sysOpen filename => ∀ cur after, findProgramid kernel.cr3 = .done cur →
      kernel.sysOpen image filename = .done (-1, after) →
      (after.pcb cur).fd = (kernel.pcb cur).fd
  | _ => True

/-- The name is empty or not found, or there is no free descriptor, or the entry
is an RTC, a directory or a regular file. -/
def KnownType (kernel : Kernel) (image : Image) : Event → Prop
  | .sysOpen filename => ∀ cur dentry, filename.char 0 ≠ 0 →
      findProgramid kernel.cr3 = .done cur → freeDescriptor (kernel.pcb cur) ≠ none →
      readDentryByName image filename = .done (some dentry) → dentry.fileType ≤ 2
  | _ => True

variable {image : Image} {kernel next : Kernel} {event : Event} {cur : Nat}

theorem describe_driverTable {filename : CString} {dentry : Dentry} (known : dentry.fileType ≤ 2)
    (descriptor : FileDescriptor) :
    DriverTable (describe filename dentry descriptor).sysopsPtr := by
  simp only [describe]
  split
  · exact .inl rfl
  split
  · exact .inr (.inr (.inl rfl))
  split
  · exact .inr (.inr (.inr rfl))
  · omega

theorem failsCleanly_of_knownType (known : KnownType kernel image event) :
    FailsCleanly kernel image event := by
  cases event with
  | sysOpen filename =>
      intro cur after current opened
      rcases sysOpen_eq_done opened with ⟨_, rfl⟩ | ⟨other, fd, dentry, opens, value⟩
      · rfl
      · have fileType := known other dentry opens.nonempty opens.current
          (by rw [opens.free]; nofun) opens.looking
        rw [if_neg (by omega)] at value
        omega
  | _ => trivial

/-- An entry of another type takes the descriptor and returns -1. -/
theorem knownType_of_failsCleanly (cleanly : FailsCleanly kernel image event) :
    KnownType kernel image event := by
  cases event with
  | sysOpen filename =>
      intro cur dentry nonempty current room looking
      by_contra unknown
      cases free : freeDescriptor (kernel.pcb cur) with
      | none => exact room free
      | some fd =>
          have opened : kernel.sysOpen image filename = .done (-1, kernel.setPcb cur
              ((kernel.pcb cur).setFd fd (describe filename dentry ((kernel.pcb cur).fd fd)))) := by
            simp only [sysOpen, if_neg nonempty, current, Outcome.done_bind, looking, free]
            exact if_pos (Nat.lt_of_not_le unknown)
          have same := congrFun (cleanly cur _ current opened) fd
          rw [setPcb_self, Pcb.setFd_self] at same
          have flags := (freeDescriptor_eq_some.mp free).2.2.1
          rw [← same, describe_flags] at flags
          cases flags
  | _ => trivial

theorem UsableTable.setFd {pcb : Pcb} {fd : Nat} {descriptor : FileDescriptor}
    (usable : UsableTable pcb)
    (driver : descriptor.flags ≠ 0 → DriverTable descriptor.sysopsPtr) :
    UsableTable (pcb.setFd fd descriptor) := by
  intro other bound used
  by_cases same : other = fd
  · rw [same, Pcb.setFd_self] at used ⊢
    exact driver used
  · rw [Pcb.setFd_of_ne same] at used ⊢
    exact usable other bound used

/-- What one call keeps: the process, and a table that is usable. -/
theorem usable_step (known : KnownType kernel image event) (call : OpenOrClose event)
    (current : findProgramid kernel.cr3 = .done cur) (usable : UsableTable (kernel.pcb cur))
    (stepped : kernel.step image event = some next) :
    findProgramid next.cr3 = .done cur ∧ UsableTable (next.pcb cur) := by
  cases event with
  | sysOpen filename =>
      obtain ⟨⟨value, after⟩, returned, rfl⟩ := Option.map_eq_some_iff.mp stepped
      have opened := Outcome.toOption_eq_some.mp returned
      refine ⟨(sysOpen_quiet opened).cr3 ▸ current, ?_⟩
      rcases sysOpen_eq_done opened with ⟨_, rfl⟩ | ⟨other, fd, dentry, opens, _⟩
      · exact usable
      · cases current.symm.trans opens.current
        have fileType := known cur dentry opens.nonempty current (by rw [opens.free]; nofun)
          opens.looking
        rw [opens.pcb, setPcb_self]
        exact usable.setFd fun _ => describe_driverTable fileType _
  | sysClose fd =>
      obtain ⟨⟨value, after⟩, returned, rfl⟩ := Option.map_eq_some_iff.mp stepped
      have closes := Outcome.toOption_eq_some.mp returned
      refine ⟨(sysClose_quiet closes).cr3 ▸ current, ?_⟩
      rcases sysClose_eq_done closes with ⟨_, rfl⟩ | ⟨other, _, otherCurrent, _, rfl⟩
      · exact usable
      · cases current.symm.trans otherCurrent
        rw [setPcb_self]
        exact usable.setFd fun used => absurd rfl used
  | _ => exact call.elim

theorem FreshTable.usable {pcb : Pcb} (fresh : FreshTable pcb) : UsableTable pcb := by
  intro fd bound used
  by_cases terminal : fd < 2
  · exact .inr (.inl (fresh.terminal fd terminal))
  · exact absurd (fresh.closed fd (by omega) bound) used

/-- In every run of `open` and `close` the failing calls change nothing and the
tables are usable, exactly when no name is opened whose entry has another type. -/
theorem descriptor_table_iff {image : Image} {kernel : Kernel} {cur : Nat} {events : List Event}
    (current : findProgramid kernel.cr3 = .done cur) (fresh : FreshTable (kernel.pcb cur))
    (calls : ∀ event ∈ events, OpenOrClose event) :
    ((kernelSystem image).Respects (fun kernel event => FailsCleanly kernel image event)
        kernel events ∧
      (kernelSystem image).Always (fun kernel => UsableTable (kernel.pcb cur)) kernel events) ↔
    (kernelSystem image).Respects (fun kernel event => KnownType kernel image event)
      kernel events := by
  have same : (kernelSystem image).Respects (fun kernel event => FailsCleanly kernel image event)
      kernel events ↔ (kernelSystem image).Respects
        (fun kernel event => KnownType kernel image event) kernel events :=
    Transitions.respects_congr fun _ _ => ⟨knownType_of_failsCleanly, failsCleanly_of_knownType⟩
  constructor
  · intro safe
    exact same.mp safe.1
  · intro known
    refine ⟨same.mpr known, ?_⟩
    have preserved : ∀ (kernel : Kernel) (event : Event) (next : Kernel),
        (findProgramid kernel.cr3 = .done cur ∧ UsableTable (kernel.pcb cur)) →
        (KnownType kernel image event ∧ OpenOrClose event) →
        (kernelSystem image).step kernel event = some next →
        findProgramid next.cr3 = .done cur ∧ UsableTable (next.pcb cur) :=
      fun kernel event next kept allowed stepped =>
        usable_step allowed.1 allowed.2 kept.1 kept.2 stepped
    have onlyCalls : (kernelSystem image).Respects (fun _ event => OpenOrClose event) kernel events :=
      Transitions.respects_of_forall kernel fun event member _ => calls event member
    have always := Transitions.always_of_respects preserved ⟨current, fresh.usable⟩
      (known.and onlyCalls)
    exact always.mono fun kernel kept => kept.2

/-- A process with the descriptors that `execute` gives it. -/
def freshProcess : Kernel :=
  { zeroedMemory with
    cr3 := .task1PageDirectory
    pcb := fun pid => initialPcb (zeroedMemory.pcb pid) .empty }

theorem freshProcess_table : FreshTable (freshProcess.pcb 1) := by
  refine ⟨fun fd terminal => ?_, fun fd low _ => ?_⟩
  · have descriptor : (freshProcess.pcb 1).fd fd = terminalDescriptor ((zeroedMemory.pcb 1).fd fd) :=
      if_pos terminal
    rw [descriptor]
    rfl
  · have descriptor : (freshProcess.pcb 1).fd fd = initialFd (zeroedMemory.pcb 1).fd fd := rfl
    rw [descriptor, initialFd, if_neg (by omega)]
    split <;> rfl

theorem descriptor_table_iff_shell :
    ((kernelSystem shellImage).Respects (fun kernel event => FailsCleanly kernel shellImage event)
        freshProcess [.sysOpen shellCommand, .sysClose 2] ∧
      (kernelSystem shellImage).Always (fun kernel => UsableTable (kernel.pcb 1))
        freshProcess [.sysOpen shellCommand, .sysClose 2]) ↔
    (kernelSystem shellImage).Respects (fun kernel event => KnownType kernel shellImage event)
      freshProcess [.sysOpen shellCommand, .sysClose 2] := by
  have calls : ∀ event ∈ [Event.sysOpen shellCommand, .sysClose 2], OpenOrClose event := by
    intro event member
    rcases List.mem_cons.mp member with rfl | member
    · trivial
    · obtain rfl := List.mem_singleton.mp member
      trivial
  exact descriptor_table_iff rfl freshProcess_table calls

/-- One entry, called shell, of type 3. -/
def oddTypeImage : Image where
  byte offset :=
    if offset = 0 then 1
    else if 64 ≤ offset ∧ offset < 96 then shellCommand.char (offset - 64)
    else if offset = 96 then 3
    else 0

/-- The open returns -1 with a descriptor marked used. -/
theorem unknown_type_takes_descriptor :
    findProgramid freshProcess.cr3 = .done 1 ∧ FreshTable (freshProcess.pcb 1) ∧
      ¬ ((kernelSystem oddTypeImage).Respects
          (fun kernel event => FailsCleanly kernel oddTypeImage event) freshProcess
          [.sysOpen shellCommand] ∧
        (kernelSystem oddTypeImage).Always (fun kernel => UsableTable (kernel.pcb 1)) freshProcess
          [.sysOpen shellCommand]) := by
  refine ⟨rfl, freshProcess_table, fun safe => ?_⟩
  have known : KnownType freshProcess oddTypeImage (.sysOpen shellCommand) :=
    knownType_of_failsCleanly safe.1.1
  have looking : readDentryByName oddTypeImage shellCommand =
      .done (some (oddTypeImage.dirEntry 0)) :=
    readDentryByName_eq_some.mpr ⟨by decide, 0, ⟨by decide, by decide, fun j below => by omega⟩, rfl⟩
  have free : freeDescriptor (freshProcess.pcb 1) ≠ none := by
    intro full
    exact freeDescriptor_eq_none.mp full 2 (by decide) (by decide) rfl
  have fileType := known 1 _ (by decide) rfl free looking
  exact absurd fileType (by decide)

end Ece391
