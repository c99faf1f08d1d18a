import Ece391.Library.Confinement
import Ece391.SystemCall.Arguments
import Ece391.Terminal.ReadLength

namespace Ece391

open Library Kernel

/-! # Stores through the pointers of user programs -/

instance byte_nontrivial : Nontrivial Byte := ⟨0, 1, by decide⟩

def InUserPage (address : Nat) : Prop := USER_START ≤ address ∧ address < USER_END

/-- The video page and the page of the kernel, which every process has mapped. -/
def InKernelPages (address : Nat) : Prop :=
  0xB8000 ≤ address ∧ address < 0xB9000 ∨ 0x400000 ≤ address ∧ address < 0x800000

/-- The pages of a process; any other address faults. -/
def Present (address : Nat) : Prop := InKernelPages address ∨ InUserPage address

def addressOf (pointer i : Nat) : Nat := wrap (pointer + i)

/-- Every byte of the destination is in the user page. -/
def DestinationInside (pointer : Nat) (nbytes : Int) : Prop :=
  ∀ i : Nat, (i : Int) < nbytes → InUserPage (addressOf pointer i)

/-- No byte outside the user page is written, and a call whose destination is not
wholly inside that page returns -1. -/
def Confined (call : BufferCall Byte Int) (pointer : Nat) (nbytes : Int) : Prop :=
  call.KeepsTo (addressOf pointer) Present InUserPage ∧
    (¬ DestinationInside pointer nbytes → call.Returns (addressOf pointer) Present (-1))

variable {call : BufferCall Byte Int} {pointer count i : Nat} {nbytes value : Int}

theorem addressOf_zero (fits : pointer < 4294967296) : addressOf pointer 0 = pointer :=
  wrap_of_lt fits

/-- Nothing is present behind the user page. -/
theorem userPage_edge (fits : pointer < 4294967296) (first : InUserPage (addressOf pointer 0))
    (loaded : ∀ j ≤ i, Present (addressOf pointer j)) : InUserPage (addressOf pointer i) := by
  rw [addressOf_zero fits] at first
  obtain ⟨low, high⟩ := first
  unfold USER_START at low
  unfold USER_END at high
  have below : pointer + i < USER_END := by
    by_contra beyond
    unfold USER_END at beyond
    have absent := loaded (0x8400000 - pointer) (by omega)
    have isEnd : addressOf pointer (0x8400000 - pointer) = 0x8400000 := by
      simp only [addressOf, wrap]
      omega
    rw [isEnd] at absent
    rcases absent with (video | kernel) | ⟨_, user⟩
    · omega
    · omega
    · unfold USER_END at user
      omega
  unfold USER_END at below
  simp only [addressOf, InUserPage, USER_START, USER_END]
  rw [wrap_of_lt (by omega)]
  omega

theorem kernel_not_user (kernel : InKernelPages pointer) : ¬ InUserPage pointer := by
  intro user
  obtain ⟨low, high⟩ := user
  unfold USER_START at low
  rcases kernel with video | kernel
  · omega
  · omega

theorem Fills.confined_iff (fits : pointer < 4294967296) (fills : call.Fills value count) :
    Confined call pointer nbytes ↔ (count = 0 ∨ ¬ InKernelPages pointer) ∧
      (DestinationInside pointer nbytes ∨
        value = -1 ∧ ∀ i < count, Present (addressOf pointer i)) := by
  have keeps : call.KeepsTo (addressOf pointer) Present InUserPage ↔
      count = 0 ∨ (Present (addressOf pointer 0) → InUserPage (addressOf pointer 0)) :=
    fills.keepsTo_iff fun i => userPage_edge fits
  simp only [Confined]
  rw [keeps, fills.returns_iff, addressOf_zero fits]
  have shared : (Present pointer → InUserPage pointer) ↔ ¬ InKernelPages pointer := by
    constructor
    · intro first kernel
      exact kernel_not_user kernel (first (.inl kernel))
    · intro private' present
      exact present.resolve_left private'
  rw [shared]
  constructor
  · intro confined
    exact ⟨confined.1, Classical.or_iff_not_imp_left.mpr confined.2⟩
  · intro condition
    exact ⟨condition.1, Classical.or_iff_not_imp_left.mp condition.2⟩

theorem Stuck.confined_iff (stuck : call.Stuck) :
    Confined call pointer nbytes ↔ DestinationInside pointer nbytes := by
  constructor
  · intro confined
    by_contra outside
    exact stuck.not_returns (confined.2 outside)
  · intro inside
    exact ⟨stuck.keepsTo, fun outside => absurd inside outside⟩

theorem destination_empty (pointer : Nat) (nonpositive : nbytes ≤ 0) :
    DestinationInside pointer nbytes := by
  intro i below
  omega

theorem destination_first (fits : pointer < 4294967296) (positive : 0 < nbytes)
    (inside : DestinationInside pointer nbytes) : ¬ InKernelPages pointer := by
  intro kernel
  have first := inside 0 (by omega)
  rw [addressOf_zero fits] at first
  exact kernel_not_user kernel first

theorem Fills.confined_positive (fits : pointer < 4294967296) (fills : call.Fills value count)
    (positive : 0 < nbytes) (silent : value = -1 → count = 0) :
    Confined call pointer nbytes ↔ DestinationInside pointer nbytes ∨ value = -1 := by
  rw [Fills.confined_iff fits fills]
  constructor
  · intro confined
    exact confined.2.imp_right And.left
  · intro condition
    rcases condition with inside | minusOne
    · exact ⟨.inr (destination_first fits positive inside), .inl inside⟩
    · refine ⟨.inl (silent minusOne), .inr ⟨minusOne, fun i inside => ?_⟩⟩
      rw [silent minusOne] at inside
      exact absurd inside (Nat.not_lt_zero i)

theorem Fills.confined_nonpositive (fits : pointer < 4294967296) (fills : call.Fills value count)
    (nonpositive : nbytes ≤ 0) :
    Confined call pointer nbytes ↔ count = 0 ∨ ¬ InKernelPages pointer := by
  rw [Fills.confined_iff fits fills]
  exact and_iff_left (.inl (destination_empty pointer nonpositive))

def vidmapCall (pointer : Nat) : BufferCall Byte Int := fun buf => some (vidmap pointer buf)

theorem vidmap_confined_iff (fits : pointer < 4294967296) :
    Confined (vidmapCall pointer) pointer 4 ↔
      pointer = 0 ∨ pointer = 0x400000 ∨ DestinationInside pointer 4 := by
  by_cases refused : pointer = 0 ∨ pointer = 0x400000
  · have fills : (vidmapCall pointer).Fills (-1) 0 := by
      refine ⟨fun _ => 0, fun buf => ?_⟩
      simp only [vidmapCall, vidmap, if_pos refused, Nat.not_lt_zero, if_false]
    rw [Fills.confined_positive fits fills (by decide) fun _ => rfl]
    rw [← or_assoc]
    exact ⟨fun _ => .inl refused, fun _ => .inr rfl⟩
  · have fills : (vidmapCall pointer).Fills VIDEO_MEM 4 := by
      refine ⟨fun i => UInt8.ofNat (VIDEO_MEM / 256 ^ i), fun buf => ?_⟩
      simp only [vidmapCall, vidmap, if_neg refused]
    rw [Fills.confined_positive fits fills (by decide) fun minusOne => by cases minusOne]
    rw [← or_assoc]
    constructor
    · intro condition
      exact .inr (condition.resolve_right fun minusOne => by cases minusOne)
    · intro condition
      exact .inl (condition.resolve_left refused)

def getargsCall (kernel : Kernel) (nbytes : Int) : BufferCall Byte Int :=
  fun buf => (kernel.getargs buf nbytes).toOption

/-- The arguments do not fit. -/
def GetargsRefuses (kernel : Kernel) (cur : Nat) (nbytes : Int) : Prop :=
  ∃ argument, stringAt (kernel.pcb cur).argument ARGUMENT_LEN 0 = some argument ∧
    nbytes < argument.strlen + 1

theorem strcpy_fills (src : CString) (value : Int) :
    BufferCall.Fills (fun buf => some (value, strcpy buf src)) value (src.strlen + 1) := by
  refine ⟨src.char, fun buf => ?_⟩
  have stored : strcpy buf src = fun i => if i < src.strlen + 1 then src.char i else buf i := by
    funext i
    simp only [strcpy, Nat.lt_succ_iff]
  exact congrArg (fun after => some (value, after)) stored

theorem getargs_confined_iff {kernel : Kernel} {cur : Nat} (fits : pointer < 4294967296)
    (current : findProgramid kernel.cr3 = .done cur) :
    Confined (getargsCall kernel nbytes) pointer nbytes ↔
      GetargsRefuses kernel cur nbytes ∨ DestinationInside pointer nbytes := by
  simp only [GetargsRefuses]
  cases found : stringAt (kernel.pcb cur).argument ARGUMENT_LEN 0 with
  | none =>
      have stuck : (getargsCall kernel nbytes).Stuck := by
        intro buf
        simp only [getargsCall, getargs, current, Outcome.done_bind, found, Outcome.toOption]
      rw [Stuck.confined_iff stuck]
      constructor
      · exact .inr
      · intro condition
        rcases condition with ⟨argument, absent, _⟩ | inside
        · cases absent
        · exact inside
  | some argument =>
      by_cases short : nbytes < argument.strlen + 1
      · have fills : (getargsCall kernel nbytes).Fills (-1) 0 := by
          refine ⟨fun _ => 0, fun buf => ?_⟩
          simp only [getargsCall, getargs, current, Outcome.done_bind, found, if_pos short,
            Outcome.pure_eq, Outcome.toOption_done, Nat.not_lt_zero, if_false]
        rw [Fills.confined_iff fits fills]
        refine ⟨fun _ => .inl ⟨argument, rfl, short⟩, fun _ => ⟨.inl rfl, .inr ⟨rfl, ?_⟩⟩⟩
        intro i inside
        exact absurd inside (Nat.not_lt_zero i)
      · have fills : (getargsCall kernel nbytes).Fills 0 (argument.strlen + 1) := by
          have same : getargsCall kernel nbytes = fun buf => some (0, strcpy buf argument) := by
            funext buf
            simp only [getargsCall, getargs, current, Outcome.done_bind, found, if_neg short,
              Outcome.pure_eq, Outcome.toOption_done]
          rw [same]
          exact strcpy_fills argument 0
        rw [Fills.confined_positive fits fills (by omega) fun minusOne => by cases minusOne]
        constructor
        · intro condition
          exact .inr (condition.resolve_right fun minusOne => by cases minusOne)
        · intro condition
          rcases condition with ⟨other, same, tooShort⟩ | inside
          · cases same
            exact absurd tooShort short
          · exact .inl inside

section Read

variable {image : Image} {kernel entered : Kernel} {cur : Nat} {fd : Int}

instance (pcb : Pcb) (fd : Int) : Decidable (ReadRefused pcb fd) :=
  inferInstanceAs (Decidable (_ ∨ _ ∨ _ ∨ _))

def ReadsTerminal (pcb : Pcb) (fd : Int) : Prop :=
  ¬ ReadRefused pcb fd ∧ (pcb.fd fd.toNat).sysopsPtr = .terminalOps

instance (pcb : Pcb) (fd : Int) : Decidable (ReadsTerminal pcb fd) :=
  inferInstanceAs (Decidable (_ ∧ _))

/-- The wait of `terminal_read` is over. -/
def WaitOver (entered : Kernel) : Prop :=
  ∃ pid term, findProgramid entered.cr3 = .done pid ∧
    terminalAt (entered.findTerminal pid) = some term ∧ LineEntered (entered.terminals term)

/-- `read_file` returns -1 for a length other than 0. -/
def FileRefuses (image : Image) (pointer : Nat) (descriptor : FileDescriptor) : Prop :=
  ∃ filename, stringAt descriptor.fileName CHAR_LENGTH 0 = some filename ∧
    (readDentryByName image filename = .done none ∨
      ∃ dentry, readDentryByName image filename = .done (some dentry) ∧
        descriptor.filePosition ≠ image.inodeLength dentry.inodeNum ∧
        (pointer = 0 ∨ image.numInode ≤ dentry.inodeNum))

/-- `read` returns -1 for a positive length. -/
def ReadRefuses (image : Image) (pcb : Pcb) (fd : Int) (pointer : Nat) : Prop :=
  ReadRefused pcb fd ∨
    (pcb.fd fd.toNat).sysopsPtr = .fileOps ∧ FileRefuses image pointer (pcb.fd fd.toNat)

/-- `read_file` stores something for this length. -/
def FileStores (image : Image) (nbytes : Int) (descriptor : FileDescriptor) : Prop :=
  nbytes ≠ 0 ∧ ∃ dentry, descriptor.file image = some dentry ∧
    dentry.inodeNum < image.numInode ∧
    descriptor.filePosition ≠ image.inodeLength dentry.inodeNum ∧
    bytesLeft image dentry.inodeNum descriptor.filePosition ≠ 0

/-- `read` stores something for a length that is not positive. -/
def ReadStores (image : Image) (kernel : Kernel) (nbytes : Int) (pcb : Pcb) (fd : Int) : Prop :=
  ¬ ReadRefused pcb fd ∧
    match (pcb.fd fd.toNat).sysopsPtr with
    | .terminalOps => True
    | .directoryOps => kernel.nextEntry image ≠ none
    | .fileOps => FileStores image nbytes (pcb.fd fd.toNat)
    | _ => False

/-- What a call does, and for which lengths it returns -1 or stores. -/
def Behaves (call : BufferCall Byte Int) (pointer : Nat) (nbytes : Int) (refuses stores : Prop) :
    Prop :=
  (call.Stuck ∧ ¬ refuses ∧ (pointer ≠ 0 → ¬ stores)) ∨
    ∃ value count, call.Fills value count ∧
      (0 < nbytes → (value = -1 → count = 0) ∧ (value = -1 ↔ refuses)) ∧
      (nbytes ≤ 0 → pointer ≠ 0 → (count ≠ 0 ↔ stores))

theorem Behaves.confined_iff {refuses stores : Prop} (fits : pointer < 4294967296)
    (behaves : Behaves call pointer nbytes refuses stores) :
    Confined call pointer nbytes ↔
      if 0 < nbytes then DestinationInside pointer nbytes ∨ refuses
      else InKernelPages pointer → ¬ stores := by
  have notNull : InKernelPages pointer → pointer ≠ 0 := by
    intro kernel null
    subst null
    rcases kernel with video | kernel
    · omega
    · omega
  split
  · rename_i positive
    rcases behaves with ⟨stuck, answers, _⟩ | ⟨value, count, fills, onPositive, _⟩
    · rw [Stuck.confined_iff stuck]
      exact ⟨.inl, fun condition => condition.resolve_right answers⟩
    · obtain ⟨silent, refused⟩ := onPositive positive
      rw [Fills.confined_positive fits fills positive silent, refused]
  · rename_i nonpositive
    have empty : nbytes ≤ 0 := by omega
    rcases behaves with ⟨stuck, _, silent⟩ | ⟨value, count, fills, _, onEmpty⟩
    · rw [Stuck.confined_iff stuck]
      exact ⟨fun _ kernel => silent (notNull kernel), fun _ => destination_empty pointer empty⟩
    · rw [Fills.confined_nonpositive fits fills empty]
      constructor
      · intro condition kernel stored
        have some' := (onEmpty empty (notNull kernel)).mpr stored
        exact condition.elim some' fun outside => outside kernel
      · intro condition
        by_cases kernel : InKernelPages pointer
        · refine .inl ?_
          by_contra some'
          exact condition kernel ((onEmpty empty (notNull kernel)).mp some')
        · exact .inr kernel

/-- A call that returns and stores nothing. -/
theorem Behaves.nothing {refuses stores : Prop} (value : Int)
    (returns : ∀ buf, call buf = some (value, buf))
    (answers : 0 < nbytes → (value = -1 ↔ refuses))
    (silent : nbytes ≤ 0 → pointer ≠ 0 → ¬ stores) :
    Behaves call pointer nbytes refuses stores := by
  have fills : call.Fills value 0 := by
    refine ⟨fun _ => 0, fun buf => ?_⟩
    rw [returns buf]
    simp only [Nat.not_lt_zero, if_false]
  refine .inr ⟨value, 0, fills, fun positive => ⟨fun _ => rfl, answers positive⟩, ?_⟩
  intro nonpositive some'
  exact ⟨fun nonzero => absurd rfl nonzero,
    fun stored => absurd stored (silent nonpositive some')⟩

/-- The line and the NUL behind it. -/
theorem keyboardRead_after (console : Console) (buf : Nat → Byte) :
    (console.keyboardRead buf).2.1 = fun i =>
      if i < console.bufferI + 1 then (if i < console.bufferI then console.lineBuffer i else 0)
      else buf i := by
  funext i
  simp only [Console.keyboardRead]
  by_cases inside : i < console.bufferI
  · rw [if_pos inside, if_pos (Nat.lt_succ_of_lt inside), if_pos inside]
  · rw [if_neg inside]
    by_cases last : i = console.bufferI
    · rw [if_pos last, if_pos (by omega), if_neg inside]
    · rw [if_neg last, if_neg (by omega)]

def lineCall (entered : Kernel) : BufferCall Byte Int := fun buf =>
  (entered.takeLine buf).toOption.map fun result => (result.1, result.2.1)

theorem lineCall_fills (waited : WaitOver entered) :
    ∃ count : Nat, (lineCall entered).Fills count (count + 1) := by
  obtain ⟨pid, term, current, found, line⟩ := waited
  let console := entered.console fun _ => false
  refine ⟨console.bufferI, fun i => if i < console.bufferI then console.lineBuffer i else 0,
    fun buf => ?_⟩
  have after := keyboardRead_after console buf
  have returned : lineCall entered buf =
      some ((console.bufferI : Int), (console.keyboardRead buf).2.1) := by
    simp only [lineCall, takeLine, current, Outcome.done_bind, found, if_pos line]
    rfl
  rw [returned, after]

def fileCall (image : Image) (kernel : Kernel) (cur descriptor : Nat) (nbytes : Int)
    (pointer : Nat) : BufferCall Byte Int := fun buf =>
  (kernel.readFile image cur descriptor (if pointer = 0 then none else some buf) nbytes).toOption.map
    fun result => (result.1, result.2.1.getD buf)

theorem fileCall_found {descriptor : Nat} {filename : CString} {dentry : Dentry}
    (named : stringAt ((kernel.pcb cur).fd descriptor).fileName CHAR_LENGTH 0 = some filename)
    (looking : readDentryByName image filename = .done (some dentry)) (buf : Nat → Byte) :
    fileCall image kernel cur descriptor nbytes pointer buf =
      some ((readData image dentry.inodeNum ((kernel.pcb cur).fd descriptor).filePosition
          (if pointer = 0 then none else some buf) (uint32 nbytes)).1,
        (readData image dentry.inodeNum ((kernel.pcb cur).fd descriptor).filePosition
          (if pointer = 0 then none else some buf) (uint32 nbytes)).2.getD buf) := by
  obtain ⟨next, returned⟩ := readFile_found nbytes named looking
    (if pointer = 0 then none else some buf)
  rw [fileCall, returned]
  rfl

theorem file_of_named {descriptor : FileDescriptor} {filename : CString} {found : Option Dentry}
    (named : stringAt descriptor.fileName CHAR_LENGTH 0 = some filename)
    (looking : readDentryByName image filename = .done found) :
    descriptor.file image = found := by
  simp only [FileDescriptor.file, named, looking, Outcome.toOption_done, Option.bind_some, id_eq]

theorem fileRefuses_iff {descriptor : FileDescriptor} {filename : CString} {dentry : Dentry}
    (named : stringAt descriptor.fileName CHAR_LENGTH 0 = some filename)
    (looking : readDentryByName image filename = .done (some dentry)) :
    FileRefuses image pointer descriptor ↔
      descriptor.filePosition ≠ image.inodeLength dentry.inodeNum ∧
        (pointer = 0 ∨ image.numInode ≤ dentry.inodeNum) := by
  constructor
  · intro refused
    obtain ⟨other, sameName, absent | ⟨entry, sameEntry, condition⟩⟩ := refused
    · cases sameName.symm.trans named
      cases absent.symm.trans looking
    · cases sameName.symm.trans named
      cases sameEntry.symm.trans looking
      exact condition
  · intro condition
    exact ⟨filename, named, .inr ⟨dentry, looking, condition⟩⟩

theorem fileStores_iff {descriptor : FileDescriptor} {dentry : Dentry}
    (isFile : descriptor.file image = some dentry) :
    FileStores image nbytes descriptor ↔
      nbytes ≠ 0 ∧ dentry.inodeNum < image.numInode ∧
        descriptor.filePosition ≠ image.inodeLength dentry.inodeNum ∧
        bytesLeft image dentry.inodeNum descriptor.filePosition ≠ 0 := by
  simp only [FileStores]
  rw [isFile]
  constructor
  · intro stored
    obtain ⟨asked, entry, same, condition⟩ := stored
    cases same
    exact ⟨asked, condition⟩
  · intro condition
    exact ⟨condition.1, dentry, rfl, condition.2⟩

/-- The three checks of `read_data`. -/
theorem readData_refused {inode offset length : Nat}
    (elsewhere : offset ≠ image.inodeLength inode)
    (refused : pointer = 0 ∨ image.numInode ≤ inode ∨ length = 0) (buf : Nat → Byte) :
    readData image inode offset (if pointer = 0 then none else some buf) length =
      (-1, if pointer = 0 then none else some buf) := by
  simp only [readData, if_neg elsewhere]
  by_cases null : pointer = 0
  · rw [if_pos null]
  · rw [if_neg null]
    exact if_pos (refused.resolve_left null)

theorem uint32_of_nonneg (nonneg : 0 ≤ nbytes) (high : nbytes < 2147483648) :
    (uint32 nbytes : Int) = nbytes := by
  simp only [uint32]
  omega

theorem uint32_eq_zero (low : -2147483648 ≤ nbytes) (high : nbytes < 2147483648) :
    uint32 nbytes = 0 ↔ nbytes = 0 := by
  simp only [uint32]
  omega

theorem uint32_lt (nbytes : Int) : uint32 nbytes < 4294967296 := by
  simp only [uint32]
  omega

/-- A file that is there. -/
theorem fileCall_behaves_found {descriptor : Nat} {filename : CString} {dentry : Dentry}
    (low : -2147483648 ≤ nbytes) (high : nbytes < 2147483648)
    (named : stringAt ((kernel.pcb cur).fd descriptor).fileName CHAR_LENGTH 0 = some filename)
    (looking : readDentryByName image filename = .done (some dentry)) :
    Behaves (fileCall image kernel cur descriptor nbytes pointer) pointer nbytes
      (FileRefuses image pointer ((kernel.pcb cur).fd descriptor))
      (FileStores image nbytes ((kernel.pcb cur).fd descriptor)) := by
  have results : ∀ buf, fileCall image kernel cur descriptor nbytes pointer buf = _ :=
    fileCall_found named looking
  rw [fileRefuses_iff named looking, fileStores_iff (file_of_named named looking)]
  generalize ((kernel.pcb cur).fd descriptor).filePosition = position at results ⊢
  have zeroLength := uint32_eq_zero low high
  by_cases atEnd : position = image.inodeLength dentry.inodeNum
  · refine .nothing 0 (fun buf => ?_) (fun _ => ?_) fun _ _ => ?_
    · rw [results, atEnd, readData_atEnd]
      split <;> rfl
    · exact ⟨fun minusOne => (by cases minusOne), fun condition => absurd atEnd condition.1⟩
    · exact fun condition => absurd atEnd condition.2.2.1
  by_cases refused : pointer = 0 ∨ image.numInode ≤ dentry.inodeNum ∨ uint32 nbytes = 0
  · refine .nothing (-1) (fun buf => ?_) (fun positive => ?_) fun _ some' => ?_
    · rw [results, readData_refused atEnd refused]
      split <;> rfl
    · refine ⟨fun _ => ⟨atEnd, ?_⟩, fun _ => rfl⟩
      omega
    · intro condition
      omega
  obtain ⟨some', valid, positive⟩ :
      pointer ≠ 0 ∧ dentry.inodeNum < image.numInode ∧ 0 < uint32 nbytes := by omega
  have asked := uint32_lt nbytes
  refine .inr ⟨int32 (min (uint32 nbytes) (bytesLeft image dentry.inodeNum position)),
    min (uint32 nbytes) (bytesLeft image dentry.inodeNum position),
    ⟨fun i => fileByte image dentry.inodeNum (position + i), fun buf => ?_⟩, ?_, ?_⟩
  · rw [results, if_neg some', readData_copies valid atEnd positive]
    rfl
  · intro above
    have exact' := uint32_of_nonneg (by omega) high
    have count : int32 (min (uint32 nbytes) (bytesLeft image dentry.inodeNum position)) =
        (min (uint32 nbytes) (bytesLeft image dentry.inodeNum position) : Nat) :=
      int32_of_lt (by omega)
    rw [count]
    refine ⟨fun minusOne => by omega, fun minusOne => by omega, fun condition => ?_⟩
    omega
  · intro below _
    constructor
    · intro nonzero
      refine ⟨?_, valid, atEnd, by omega⟩
      omega
    · intro condition
      have left := condition.2.2.2
      omega

theorem fileCall_behaves {descriptor : Nat} (low : -2147483648 ≤ nbytes)
    (high : nbytes < 2147483648) :
    Behaves (fileCall image kernel cur descriptor nbytes pointer) pointer nbytes
      (FileRefuses image pointer ((kernel.pcb cur).fd descriptor))
      (FileStores image nbytes ((kernel.pcb cur).fd descriptor)) := by
  cases named : stringAt ((kernel.pcb cur).fd descriptor).fileName CHAR_LENGTH 0 with
  | none =>
      refine .inl ⟨fun buf => ?_, ?_, fun _ => ?_⟩
      · simp only [fileCall, readFile, named, Outcome.toOption, Option.map_none]
      · intro refused
        obtain ⟨filename, found, _⟩ := refused
        cases found.symm.trans named
      · intro stored
        obtain ⟨_, dentry, found, _⟩ := stored
        simp only [FileDescriptor.file, named] at found
        cases found
  | some filename =>
      by_cases returns : ∃ found, readDentryByName image filename = .done found
      · obtain ⟨found, looking⟩ := returns
        cases found with
        | some dentry => exact fileCall_behaves_found low high named looking
        | none =>
            refine .nothing (-1) (fun buf => ?_) (fun _ => ?_) fun _ _ => ?_
            · simp only [fileCall, readFile, named, looking, Outcome.done_bind, Outcome.pure_eq,
                Outcome.toOption_done, Option.map_some]
              split <;> rfl
            · exact ⟨fun _ => ⟨filename, named, .inl looking⟩, fun _ => rfl⟩
            · intro stored
              obtain ⟨_, dentry, found, _⟩ := stored
              cases (file_of_named named looking).symm.trans found
      · have fails : ∀ {β : Type} (next : Option Dentry → Outcome β),
            (readDentryByName image filename >>= next).toOption = none := by
          intro β next
          cases looking : readDentryByName image filename with
          | done found => exact absurd ⟨found, looking⟩ returns
          | spins => rfl
          | outOfBounds => rfl
          | pageFault => rfl
        refine .inl ⟨fun buf => ?_, ?_, fun _ => ?_⟩
        · simp only [fileCall, readFile, named, fails, Option.map_none]
        · intro refused
          obtain ⟨other, sameName, absent | ⟨entry, sameEntry, _⟩⟩ := refused
          · cases sameName.symm.trans named
            exact returns ⟨_, absent⟩
          · cases sameName.symm.trans named
            exact returns ⟨_, sameEntry⟩
        · intro stored
          obtain ⟨_, dentry, found, _⟩ := stored
          simp only [FileDescriptor.file, named] at found
          cases looking : readDentryByName image filename with
          | done found => exact returns ⟨found, looking⟩
          | spins => rw [looking] at found; cases found
          | outOfBounds => rw [looking] at found; cases found
          | pageFault => rw [looking] at found; cases found

def directoryCall (image : Image) (kernel : Kernel) (pointer : Nat) : BufferCall Byte Int := fun buf =>
  (kernel.readDirectory image (if pointer = 0 then none else some buf)).toOption.map fun result =>
    (result.1, result.2.1.getD buf)

theorem directoryCall_behaves :
    Behaves (directoryCall image kernel pointer) pointer nbytes False
      (kernel.nextEntry image ≠ none) := by
  simp only [nextEntry]
  by_cases ended : (kernel.currentDirIndex : Int) + 1 > int32 image.numDirectory
  · refine .nothing 0 (fun buf => ?_) (fun _ => ?_) fun _ _ => ?_
    · simp only [directoryCall, readDirectory, if_pos ended, Outcome.toOption_done, Option.map_some]
      split <;> rfl
    · exact ⟨fun minusOne => (by cases minusOne), False.elim⟩
    · rw [if_pos ended]
      exact fun listed => absurd rfl listed
  · rw [if_neg ended]
    cases named : stringAt image.byte 4294967296 (64 + 64 * kernel.currentDirIndex) with
    | none =>
        refine .inl ⟨fun buf => ?_, id, fun _ listed => listed rfl⟩
        simp only [directoryCall, readDirectory, if_neg ended, named]
        by_cases null : pointer = 0
        · rw [if_pos null]
          rfl
        · rw [if_neg null]
          rfl
    | some name =>
        by_cases null : pointer = 0
        · refine .inl ⟨fun buf => ?_, id, fun some' => absurd null some'⟩
          simp only [directoryCall, readDirectory, if_neg ended, named, if_pos null]
          rfl
        · refine .inr ⟨name.strlen, name.strlen + 1, ?_, fun _ => ⟨fun minusOne => ?_, ?_⟩,
            fun _ _ => ?_⟩
          · have same : directoryCall image kernel pointer =
                fun buf => some ((name.strlen : Int), strcpy buf name) := by
              funext buf
              simp only [directoryCall, readDirectory, if_neg ended, named, if_neg null]
              rfl
            rw [same]
            exact strcpy_fills name name.strlen
          · omega
          · exact ⟨fun minusOne => (by omega), False.elim⟩
          · exact ⟨fun _ absent => (by cases absent), fun _ => Nat.succ_ne_zero _⟩

/-- A `read`; the one of the terminal stores from the state `entered` in which its
wait ends. -/
def readCall (image : Image) (kernel entered : Kernel) (cur : Nat) (fd nbytes : Int)
    (pointer : Nat) : BufferCall Byte Int :=
  if ReadsTerminal (kernel.pcb cur) fd then lineCall entered
  else fun buf =>
    (kernel.sysRead image fd (if pointer = 0 then none else some buf) nbytes).toOption.map
      fun result => (result.1, result.2.1.getD buf)

theorem readCall_behaves (current : findProgramid kernel.cr3 = .done cur)
    (low : -2147483648 ≤ nbytes) (high : nbytes < 2147483648)
    (waited : ReadsTerminal (kernel.pcb cur) fd → WaitOver entered) :
    Behaves (readCall image kernel entered cur fd nbytes pointer) pointer nbytes
      (ReadRefuses image (kernel.pcb cur) fd pointer)
      (ReadStores image kernel nbytes (kernel.pcb cur) fd) := by
  simp only [ReadRefuses, ReadStores, readCall]
  by_cases refused : ReadRefused (kernel.pcb cur) fd
  · have notTerminal : ¬ ReadsTerminal (kernel.pcb cur) fd := fun reads => reads.1 refused
    rw [if_neg notTerminal]
    have returns : ∀ buf, kernel.sysRead image fd buf nbytes = .done (-1, buf, kernel) := by
      intro buf
      rw [sysRead, current, Outcome.done_bind]
      exact if_pos refused
    refine .nothing (-1) (fun buf => ?_) (fun _ => ?_) fun _ _ => ?_
    · rw [returns]
      dsimp only [Outcome.toOption_done, Option.map_some]
      split <;> rfl
    · exact ⟨fun _ => .inl refused, fun _ => rfl⟩
    · exact fun stored => absurd refused stored.1
  have readable : ¬ (fd < 0 ∨ fd > 7 ∨ fd = 1 ∨ ((kernel.pcb cur).fd fd.toNat).flags = 0) := refused
  simp only [sysRead, current, Outcome.done_bind, if_neg readable, refused, false_or,
    not_false_eq_true, true_and, ReadsTerminal] at waited ⊢
  cases driver : ((kernel.pcb cur).fd fd.toNat).sysopsPtr with
  | terminalOps =>
      rw [if_pos rfl]
      obtain ⟨count, fills⟩ := lineCall_fills (waited driver)
      refine .inr ⟨count, count + 1, fills, fun _ => ⟨fun minusOne => ?_, ?_⟩, fun _ _ => ?_⟩
      · omega
      · refine ⟨fun minusOne => ?_, fun other => ?_⟩
        · omega
        · cases other.1
      · exact ⟨fun _ => trivial, fun _ => Nat.succ_ne_zero count⟩
  | fileOps =>
      rw [if_neg (by decide)]
      simp only [true_and]
      exact fileCall_behaves low high
  | directoryOps =>
      rw [if_neg (by decide)]
      simp only [reduceCtorEq, false_and]
      exact directoryCall_behaves
  | rtcOps =>
      rw [if_neg (by decide)]
      simp only [reduceCtorEq, false_and]
      by_cases ticked : kernel.rtcInterruptFlag = 0
      · refine .inl ⟨fun buf => ?_, id, fun _ => id⟩
        simp only [rtcRead, if_pos ticked]
        rfl
      · refine .nothing 0 (fun buf => ?_) (fun _ => ?_) fun _ _ => ?_
        · simp only [rtcRead, if_neg ticked, Outcome.done_bind, Outcome.pure_eq,
            Outcome.toOption_done, Option.map_some]
          split <;> rfl
        · exact ⟨fun minusOne => (by cases minusOne), False.elim⟩
        · exact id
  | null =>
      rw [if_neg (by decide)]
      simp only [reduceCtorEq, false_and]
      exact .inl ⟨fun _ => rfl, id, fun _ => id⟩
  | stray address =>
      rw [if_neg (by simp)]
      simp only [reduceCtorEq, false_and]
      exact .inl ⟨fun _ => rfl, id, fun _ => id⟩

end Read

/-- The first process runs with an open file at every descriptor. -/
def readingKernel : Kernel :=
  { zeroedMemory with
    cr3 := .task1PageDirectory
    pcb := fun _ => { zeroedMemory.pcb 1 with fd := fun _ => ⟨fun _ => 0, 0, 0, 1, .fileOps⟩ } }

end Ece391
