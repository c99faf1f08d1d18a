import Ece391.Process.DescriptorTable
import Ece391.Process.Starting

namespace Ece391

open Library Kernel

/-! # The name that open keeps

The name is copied twice, to the 32 bytes that are looked up and to the 32 bytes
of the descriptor, from which every `read_file` looks it up again.
-/

/-- The indices of its 32 bytes that `read_dentry_by_name` stores at: the copy,
the padding, and the terminator it puts behind a long name. -/
def lookupStores (fname : CString) : List Nat :=
  strcpyStores fname ++ List.range' fname.strlen (CHAR_LENGTH - fname.strlen) ++
    if CHAR_LENGTH ≤ fname.strlen then [CHAR_LENGTH] else []

/-- The indices of the descriptor's 32 bytes that `open` stores at. -/
def descriptorStores (image : Image) (kernel : Kernel) (filename : CString) : List Nat :=
  match findProgramid kernel.cr3, readDentryByName image filename with
  | .done cur, .done (some dentry) =>
      if dentry.fileType = 2 ∧ freeDescriptor (kernel.pcb cur) ≠ none then strcpyStores filename
      else []
  | _, _ => []

/-- What `read_file` finds the descriptor's name to be. -/
def ResolvesTo (image : Image) (descriptor : FileDescriptor) (dentry : Dentry) : Prop :=
  ∃ name, stringAt descriptor.fileName CHAR_LENGTH 0 = some name ∧
    readDentryByName image name = .done (some dentry)

/-- The descriptor that a successful `open` gives to `read_file` resolves to the
entry found, in all states of any run in which it stays open. -/
def KeepsName (image : Image) (kernel : Kernel) (filename : CString) : Prop :=
  ∀ (cur fd : Nat) (opened : Kernel), findProgramid kernel.cr3 = .done cur →
    kernel.sysOpen image filename = .done (fd, opened) →
    ((opened.pcb cur).fd fd).sysopsPtr = .fileOps →
    ∃ dentry, readDentryByName image filename = .done (some dentry) ∧
      ∀ events final, (kernelSystem image).run opened events = some final →
        (kernelSystem image).Always (fun kernel => ((kernel.pcb cur).fd fd).flags ≠ 0)
          opened events →
        ResolvesTo image ((final.pcb cur).fd fd) dentry

/-- The copies of the name stay inside their 32 bytes and the name is kept. -/
structure OpensSafely (image : Image) (kernel : Kernel) (filename : CString) : Prop where
  lookup : filename.char 0 ≠ 0 → ∀ i ∈ lookupStores filename, i < CHAR_LENGTH
  descriptor : ∀ i ∈ descriptorStores image kernel filename, i < CHAR_LENGTH
  keeps : KeepsName image kernel filename

variable {image : Image} {kernel after next : Kernel} {filename : CString} {event : Event}
  {cur fd : Nat}

theorem lookupStores_inside :
    (∀ i ∈ lookupStores filename, i < CHAR_LENGTH) ↔ filename.strlen < CHAR_LENGTH := by
  simp only [lookupStores]
  constructor
  · intro inside
    refine strcpyStores_inside.mp fun i member => inside i ?_
    exact List.mem_append_left _ (List.mem_append_left _ member)
  · intro short i member
    rw [if_neg (by omega), List.append_nil] at member
    rcases List.mem_append.mp member with copied | padded
    · exact strcpyStores_inside.mpr short i copied
    · have below := (List.mem_range'_1.mp padded).2
      omega

def SameNames (kernel after : Kernel) : Prop :=
  ∀ pid fd, ((after.pcb pid).fd fd).fileName = ((kernel.pcb pid).fd fd).fileName

theorem SameNames.of_pcb (same : after.pcb = kernel.pcb) : SameNames kernel after := by
  intro pid fd
  rw [same]

theorem SameNames.setFd {descriptor : FileDescriptor}
    (same : descriptor.fileName = ((kernel.pcb cur).fd fd).fileName) :
    SameNames kernel (kernel.setPcb cur ((kernel.pcb cur).setFd fd descriptor)) := by
  intro pid other
  by_cases own : pid = cur
  · subst own
    rw [setPcb_self]
    by_cases here : other = fd
    · rw [here, Pcb.setFd_self]
      exact same
    · rw [Pcb.setFd_of_ne here]
  · simp only [setPcb, Function.update_of_ne own]

theorem Kernel.Launched.sameNames {frame : CallFrame} {slot : Nat}
    (launched : Launched kernel frame cur slot after) : SameNames kernel after := by
  intro pid fd
  by_cases new : pid = slot
  · rw [new, launched.newFd]
    simp only [initialFd]
    split
    · rfl
    split <;> rfl
  · rw [launched.otherFd pid new]

theorem Kernel.Left.sameNames {status : Byte} {parent : Nat}
    (left : Left kernel status cur parent after) : SameNames kernel after := by
  intro pid fd
  rw [left.pcb]
  by_cases own : pid = parent
  · rw [own, Function.update_self]
    dsimp only
    simp only [closeFds, closeDescriptor]
    split
    · split <;> rfl
    · rfl
  · rw [Function.update_of_ne own]

theorem execute_sameNames {command : Option CString} {frame : CallFrame} {control : Control}
    (returned : kernel.execute image command frame = .done (control, after)) :
    SameNames kernel after := by
  rcases execute_eq_done returned with ⟨_, rfl⟩ | ⟨entry, caller, slot, _, launched⟩
  · exact .of_pcb rfl
  · exact launched.sameNames

theorem terminalSwitch_sameNames {term : Int} {frame : CallFrame} {tlb : TlbUse}
    {control : Control}
    (done : kernel.terminalSwitch image term frame tlb = .done (control, after)) :
    SameNames kernel after := by
  rcases terminalSwitch_eq_done done with
    ⟨_, rfl⟩ | ⟨target, caller, left, _, _, leaving, ⟨_, returned⟩ | ⟨_, resumed⟩⟩
  · exact .of_pcb rfl
  · intro pid fd
    rw [execute_sameNames returned pid fd]
    show ((left.pcb pid).fd fd).fileName = _
    rw [leaving.pcb]
  · have state : after = (left.resumeTerminal target tlb).2 := congrArg Prod.snd resumed
    rw [state]
    refine .of_pcb ?_
    rw [resumeTerminal_pcb, leaving.pcb]

theorem sysClose_sameNames {fd value : Int}
    (done : kernel.sysClose fd = .done (value, after)) : SameNames kernel after := by
  rcases sysClose_eq_done done with ⟨_, rfl⟩ | ⟨cur, _, _, _, rfl⟩
  · exact .of_pcb rfl
  · exact .setFd rfl

theorem sysRead_sameNames {fd nbytes value : Int} {buf result : Option (Nat → Byte)}
    (done : kernel.sysRead image fd buf nbytes = .done (value, result, after)) :
    SameNames kernel after := by
  obtain ⟨cur, _, effect⟩ := sysRead_effect done
  cases effect with
  | same => exact .of_pcb rfl
  | moved filePosition => exact .setFd rfl
  | listed accepted directory currentDirIndex => exact .of_pcb rfl
  | ticked => exact .of_pcb rfl

/-- No step changes the name of a descriptor that is open. -/
theorem step_keeps_name (stepped : kernel.step image event = some next) {pid : Nat}
    (used : ((kernel.pcb pid).fd fd).flags ≠ 0) :
    ((next.pcb pid).fd fd).fileName = ((kernel.pcb pid).fd fd).fileName := by
  cases event with
  | execute command frame =>
      obtain ⟨⟨control, _⟩, returned, rfl⟩ := Option.map_eq_some_iff.mp stepped
      exact execute_sameNames (Outcome.toOption_eq_some.mp returned) pid fd
  | halt status =>
      obtain ⟨⟨control, _⟩, returned, rfl⟩ := Option.map_eq_some_iff.mp stepped
      rcases halt_eq_done (Outcome.toOption_eq_some.mp returned) with
        ⟨caller, _, restarted⟩ | ⟨caller, parent, _, left⟩
      · rw [restarted.state]
      · exact left.sameNames pid fd
  | terminalSwitch term irq frame tlb =>
      obtain ⟨⟨control, _⟩, returned, rfl⟩ := Option.map_eq_some_iff.mp stepped
      exact terminalSwitch_sameNames (Outcome.toOption_eq_some.mp returned) pid fd
  | sysClose closing =>
      obtain ⟨⟨value, _⟩, returned, rfl⟩ := Option.map_eq_some_iff.mp stepped
      exact sysClose_sameNames (Outcome.toOption_eq_some.mp returned) pid fd
  | sysRead reading buf nbytes =>
      obtain ⟨⟨value, result, _⟩, returned, rfl⟩ := Option.map_eq_some_iff.mp stepped
      exact sysRead_sameNames (Outcome.toOption_eq_some.mp returned) pid fd
  | sysOpen name =>
      obtain ⟨⟨value, _⟩, returned, rfl⟩ := Option.map_eq_some_iff.mp stepped
      rcases sysOpen_eq_done (Outcome.toOption_eq_some.mp returned) with ⟨_, rfl⟩ |
        ⟨caller, taken, dentry, opens, _⟩
      · rfl
      · rw [opens.pcb]
        by_cases own : pid = caller
        · subst own
          have different : fd ≠ taken := by
            intro same
            exact used (same ▸ (freeDescriptor_eq_some.mp opens.free).2.2.1)
          rw [setPcb_self, Pcb.setFd_of_ne different]
        · simp only [setPcb, Function.update_of_ne own]

theorem run_keeps_name {name : Nat → Byte} {pid : Nat} {events : List Event} {final : Kernel}
    (initial : ((kernel.pcb pid).fd fd).fileName = name)
    (stays : (kernelSystem image).Always (fun kernel => ((kernel.pcb pid).fd fd).flags ≠ 0)
      kernel events)
    (ran : (kernelSystem image).run kernel events = some final) :
    ((final.pcb pid).fd fd).fileName = name := by
  have preserved : ∀ (kernel : Kernel) (event : Event) (next : Kernel),
      ((kernel.pcb pid).fd fd).fileName = name → True →
      ((kernel.pcb pid).fd fd).flags ≠ 0 → ((next.pcb pid).fd fd).flags ≠ 0 →
      (kernelSystem image).step kernel event = some next →
      ((next.pcb pid).fd fd).fileName = name :=
    fun kernel event next same _ used _ stepped => (step_keeps_name stepped used).trans same
  exact Transitions.run_preserves_while preserved initial
    (Transitions.respects_true kernel events) stays ran

/-- A short name is stored with its terminator. -/
theorem keepsName_of_short (short : filename.strlen < CHAR_LENGTH) :
    KeepsName image kernel filename := by
  intro cur fd opened current returned driver
  rcases sysOpen_eq_done returned with ⟨failed, _⟩ | ⟨caller, taken, dentry, opens, value⟩
  · omega
  cases current.symm.trans opens.current
  have known : ¬ dentry.fileType > 2 := by
    intro unknown
    rw [if_pos unknown] at value
    omega
  rw [if_neg known] at value
  obtain rfl : fd = taken := Int.ofNat_inj.mp value
  rw [opens.pcb, setPcb_self, Pcb.setFd_self] at driver
  have isFile : dentry.fileType = 2 := by
    unfold describe at driver
    dsimp only at driver
    split at driver
    · cases driver
    split at driver
    · cases driver
    · omega
  have named : ((opened.pcb cur).fd fd).fileName =
      strcpy ((kernel.pcb cur).fd fd).fileName filename := by
    rw [opens.pcb, setPcb_self, Pcb.setFd_self, describe]
    simp only [isFile]
    rfl
  refine ⟨dentry, opens.looking, fun events final ran stays => ⟨filename, ?_, opens.looking⟩⟩
  rw [run_keeps_name named stays ran]
  exact stringAt_strcpy short

/-- Opening a name is safe in every state exactly when it has at most 31 bytes. -/
theorem open_name_safe_iff {image : Image} {kernel : Kernel} {filename : CString} :
    OpensSafely image kernel filename ↔ filename.strlen ≤ 31 := by
  constructor
  · intro safe
    by_cases empty : filename.char 0 = 0
    · have length := CString.char_eq_zero_iff.mp empty
      omega
    · have short := lookupStores_inside.mp (safe.lookup empty)
      unfold CHAR_LENGTH at short
      omega
  · intro length
    have short : filename.strlen < CHAR_LENGTH := Nat.lt_succ_of_le length
    refine ⟨fun _ => lookupStores_inside.mpr short, fun i member => ?_, keepsName_of_short short⟩
    unfold descriptorStores at member
    split at member
    · split at member
      · exact strcpyStores_inside.mpr short i member
      · cases member
    · cases member

/-- 32 times the letter a. -/
def longName : CString := ⟨List.replicate 32 97, by simp⟩

/-- The terminator of the copy is stored behind the buffer. -/
theorem long_name_overruns :
    32 ∈ lookupStores longName ∧ ¬ OpensSafely shellImage zeroedMemory longName := by
  have stores : 32 ∈ lookupStores longName := by decide
  exact ⟨stores, fun safe => absurd (safe.lookup (by decide) 32 stores) (by decide)⟩

end Ece391
