import Ece391.Library.SharedCursor
import Ece391.Process.Starting

namespace Ece391

open Library Kernel

/-! # Directory listings

Every descriptor of the directory is read through `currentDirIndex`, which
`open` and `close` leave alone.
-/

/-- `numDirectory` is an `int32_t`. -/
def entryCount (image : Image) : Nat := (int32 image.numDirectory).toNat

/-- The name of an entry, up to its NUL. -/
def entryName (image : Image) (index : Nat) : Option CString :=
  stringAt image.byte 4294967296 (64 + 64 * index)

/-- What a read returned, and its buffer behind it. -/
structure ReadResult where
  value : Int
  buf : Option (Nat → Byte)

/-- A read of the entry at `index`, or of the end behind the last one. -/
def ReturnsEntry (image : Image) (index : Nat) (result : ReadResult) : Prop :=
  if index < entryCount image then
    ∃ name bytes, entryName image index = some name ∧ result.value = name.strlen ∧
      result.buf = some bytes ∧ ∀ i ≤ name.strlen, bytes i = name.char i
  else result.value = 0

/-- The entries can be told apart, and from the end. -/
def DistinctEntries (image : Image) : Prop :=
  ∀ index < entryCount image, ∀ name, entryName image index = some name → name.strlen ≠ 0 ∧
    ∀ other < entryCount image, entryName image other = some name → other = index

inductive DescriptorCall where
  | sysOpen (filename : CString)
  | sysRead (fd : Int) (buf : Option (Nat → Byte)) (nbytes : Int)
  | sysClose (fd : Int)

/-- A call of the process whose page directory is `cr3`. -/
structure ProcessCall where
  cr3 : Cr3
  call : DescriptorCall

def ReadsDirectory (pcb : Pcb) (fd : Int) : Prop :=
  ¬ (fd < 0 ∨ fd > 7 ∨ fd = 1 ∨ (pcb.fd fd.toNat).flags = 0) ∧
    (pcb.fd fd.toNat).sysopsPtr = .directoryOps

instance (pcb : Pcb) (fd : Int) : Decidable (ReadsDirectory pcb fd) :=
  inferInstanceAs (Decidable (_ ∧ _))

/-- The kernel, and what was read through each descriptor of each process since
`open` returned it. -/
structure Listings where
  kernel : Kernel
  readings : Readings (Nat × Nat) ReadResult

namespace Listings

def begin (kernel : Kernel) : Listings := ⟨kernel, .begin⟩

/-- The process and the descriptor of a read that `read_directory` serves. -/
def reader (listings : Listings) (input : ProcessCall) : Option (Nat × Nat) :=
  match findProgramid input.cr3, input.call with
  | .done pid, .sysRead fd _ _ =>
      if ReadsDirectory (listings.kernel.pcb pid) fd then some (pid, fd.toNat) else none
  | _, _ => none

/-- The kernel when the scheduler has chosen a process. -/
def running (listings : Listings) (cr3 : Cr3) : Kernel := { listings.kernel with cr3 }

def step (image : Image) (listings : Listings) (input : ProcessCall) : Option Listings :=
  match findProgramid input.cr3, input.call with
  | .done pid, .sysOpen filename =>
      ((listings.running input.cr3).sysOpen image filename).toOption.map fun (value, kernel) =>
        ⟨kernel, if 0 ≤ value then listings.readings.start (pid, value.toNat)
          else listings.readings⟩
  | .done pid, .sysRead fd buf nbytes =>
      ((listings.running input.cr3).sysRead image fd buf nbytes).toOption.map fun (value, after, kernel) =>
        ⟨kernel, if ReadsDirectory (listings.kernel.pcb pid) fd
          then listings.readings.read (pid, fd.toNat) ⟨value, after⟩ else listings.readings⟩
  | .done pid, .sysClose fd =>
      ((listings.running input.cr3).sysClose fd).toOption.map fun (value, kernel) =>
        ⟨kernel, if value = 0 then listings.readings.stop (pid, fd.toNat) else listings.readings⟩
  | _, _ => none

end Listings

def listingSystem (image : Image) : Transitions Listings ProcessCall := ⟨Listings.step image⟩

variable {image : Image} {kernel after : Kernel} {value nbytes fd : Int}
  {buf result : Option (Nat → Byte)}

theorem rtcWrite_index (freq : Int) :
    (kernel.rtcWrite freq).2.currentDirIndex = kernel.currentDirIndex := by
  unfold rtcWrite
  split
  · rfl
  · dsimp only
    split
    · rfl
    · rfl

theorem sysOpen_index {filename : CString}
    (opened : kernel.sysOpen image filename = .done (value, after)) :
    after.currentDirIndex = kernel.currentDirIndex := by
  rcases sysOpen_eq_done opened with ⟨_, rfl⟩ | ⟨cur, file, dentry, opens, _⟩
  · rfl
  obtain ⟨taken, rfl, rfl | rfl⟩ := opens.state
  · rfl
  · exact rtcWrite_index 2

theorem sysClose_index (done : kernel.sysClose fd = .done (value, after)) :
    after.currentDirIndex = kernel.currentDirIndex := by
  rcases sysClose_eq_done done with ⟨_, rfl⟩ | ⟨cur, _, _, _, rfl⟩
  · rfl
  · rfl

/-- One read brings the entry at the index and moves it on, from the end back to
the first entry. -/
theorem readDirectory_reads
    (done : kernel.readDirectory image buf = .done (value, result, after)) :
    ReturnsEntry image kernel.currentDirIndex ⟨value, result⟩ ∧
      after.currentDirIndex = if kernel.currentDirIndex < entryCount image
        then kernel.currentDirIndex + 1 else 0 := by
  unfold readDirectory at done
  unfold ReturnsEntry entryCount
  split at done
  · rename_i ended
    have atEnd : ¬ kernel.currentDirIndex < (int32 image.numDirectory).toNat := by omega
    cases done
    rw [if_neg atEnd, if_neg atEnd]
    exact ⟨rfl, rfl⟩
  · rename_i listed
    have inside : kernel.currentDirIndex < (int32 image.numDirectory).toNat := by omega
    split at done
    · rename_i bytes name named
      cases done
      rw [if_pos inside, if_pos inside]
      exact ⟨⟨name, _, named, rfl, rfl, fun i within => if_pos within⟩, rfl⟩
    · cases done
    · cases done

theorem sysRead_directory {pid : Nat} (current : findProgramid kernel.cr3 = .done pid)
    (reads : ReadsDirectory (kernel.pcb pid) fd) :
    kernel.sysRead image fd buf nbytes = kernel.readDirectory image buf := by
  unfold sysRead
  rw [current, Outcome.done_bind]
  dsimp only
  rw [if_neg reads.1, reads.2]

theorem sysRead_index {pid : Nat} (current : findProgramid kernel.cr3 = .done pid)
    (other : ¬ ReadsDirectory (kernel.pcb pid) fd)
    (done : kernel.sysRead image fd buf nbytes = .done (value, result, after)) :
    after.currentDirIndex = kernel.currentDirIndex := by
  obtain ⟨cur, isCurrent, effect⟩ := sysRead_effect done
  cases current.symm.trans isCurrent
  cases effect with
  | same => rfl
  | moved filePosition => rfl
  | listed accepted directory currentDirIndex => exact absurd ⟨accepted, directory⟩ other
  | ticked => rfl

/-- All other directory reads, taken together, are whole listings whenever a
reader is not through with its own. -/
def WholeListings (image : Image) (listings : Listings) (input : ProcessCall) : Prop :=
  ∀ reader items, listings.reader input = some reader →
    listings.readings.results reader = some items → items.length ≤ entryCount image →
      entryCount image + 1 ∣ listings.readings.total - items.length

/-- The claim on every listing: its entries in order, then the end. -/
def Enumerate (image : Image) (listings : Listings) : Prop :=
  listings.readings.Enumerates (ReturnsEntry image) (entryCount image)

/-- What a call does to the index and to the listings. -/
inductive ListingEffect (image : Image) (listings : Listings) (input : ProcessCall) :
    Listings → Prop
  | keeps {next : Listings} (noRead : listings.reader input = none)
      (index : next.kernel.currentDirIndex = listings.kernel.currentDirIndex)
      (readings : next.readings = listings.readings) : ListingEffect image listings input next
  | starts {next : Listings} {reader : Nat × Nat} (noRead : listings.reader input = none)
      (index : next.kernel.currentDirIndex = listings.kernel.currentDirIndex)
      (readings : next.readings = listings.readings.start reader) :
      ListingEffect image listings input next
  | stops {next : Listings} {reader : Nat × Nat} (noRead : listings.reader input = none)
      (index : next.kernel.currentDirIndex = listings.kernel.currentDirIndex)
      (readings : next.readings = listings.readings.stop reader) :
      ListingEffect image listings input next
  | reads {next : Listings} {reader : Nat × Nat} {result : ReadResult}
      (isRead : listings.reader input = some reader)
      (returns : ReturnsEntry image listings.kernel.currentDirIndex result)
      (index : next.kernel.currentDirIndex =
        if listings.kernel.currentDirIndex < entryCount image
          then listings.kernel.currentDirIndex + 1 else 0)
      (readings : next.readings = listings.readings.read reader result) :
      ListingEffect image listings input next

variable {listings next : Listings} {input : ProcessCall}

theorem listingEffect (stepped : listings.step image input = some next) :
    ListingEffect image listings input next := by
  obtain ⟨cr3, call⟩ := input
  cases current : findProgramid cr3 with
  | spins => simp [Listings.step, current] at stepped
  | outOfBounds => simp [Listings.step, current] at stepped
  | pageFault => simp [Listings.step, current] at stepped
  | done pid =>
      cases call with
      | sysOpen filename =>
          have noRead : listings.reader ⟨cr3, .sysOpen filename⟩ = none := by
            simp [Listings.reader, current]
          simp only [Listings.step, current] at stepped
          obtain ⟨⟨value, kernel⟩, opened, same⟩ := Option.map_eq_some_iff.mp stepped
          subst same
          have index := sysOpen_index (Outcome.toOption_eq_some.mp opened)
          by_cases success : 0 ≤ value
          · exact .starts noRead index (if_pos success)
          · exact .keeps noRead index (if_neg success)
      | sysClose fd =>
          have noRead : listings.reader ⟨cr3, .sysClose fd⟩ = none := by
            simp [Listings.reader, current]
          simp only [Listings.step, current] at stepped
          obtain ⟨⟨value, kernel⟩, closes, same⟩ := Option.map_eq_some_iff.mp stepped
          subst same
          have index := sysClose_index (Outcome.toOption_eq_some.mp closes)
          by_cases success : value = 0
          · exact .stops noRead index (if_pos success)
          · exact .keeps noRead index (if_neg success)
      | sysRead fd buf nbytes =>
          have chosen : findProgramid (listings.running cr3).cr3 = .done pid := current
          simp only [Listings.step, current] at stepped
          obtain ⟨⟨value, result, kernel⟩, read, same⟩ := Option.map_eq_some_iff.mp stepped
          subst same
          have done := Outcome.toOption_eq_some.mp read
          by_cases directory : ReadsDirectory (listings.kernel.pcb pid) fd
          · have isRead : listings.reader ⟨cr3, .sysRead fd buf nbytes⟩ = some (pid, fd.toNat) := by
              simp only [Listings.reader, current, if_pos directory]
            rw [sysRead_directory chosen directory] at done
            obtain ⟨returns, index⟩ := readDirectory_reads done
            exact .reads isRead returns index (if_pos directory)
          · have noRead : listings.reader ⟨cr3, .sysRead fd buf nbytes⟩ = none := by
              simp only [Listings.reader, current, if_neg directory]
            have index := sysRead_index chosen directory done
            exact .keeps noRead index (if_neg directory)

/-- The index is where the reads made so far have moved it, and every listing is
right so far. -/
structure Listed (image : Image) (listings : Listings) : Prop where
  index : listings.kernel.currentDirIndex = listings.readings.cursor (entryCount image)
  enumerate : Enumerate image listings

theorem Listed.begin (fresh : kernel.currentDirIndex = 0) : Listed image (.begin kernel) where
  index := fresh.trans (Nat.zero_mod _).symm
  enumerate := Readings.enumerates_begin

theorem Listed.preserved (listed : Listed image listings) (whole : WholeListings image listings input)
    (stepped : listings.step image input = some next) : Listed image next := by
  have index := listed.index
  have enumerate := listed.enumerate
  unfold Enumerate at enumerate
  cases listingEffect stepped with
  | keeps noRead same readings =>
      constructor
      · rw [same, readings, index]
      · simp only [Enumerate]
        rw [readings]
        exact enumerate
  | starts noRead same readings =>
      constructor
      · rw [same, readings, index]
        rfl
      · simp only [Enumerate]
        rw [readings]
        exact enumerate.start
  | stops noRead same readings =>
      constructor
      · rw [same, readings, index]
        rfl
      · simp only [Enumerate]
        rw [readings]
        exact enumerate.stop
  | reads isRead returns moved readings =>
      constructor
      · rw [moved, readings, Readings.cursor_read, index]
      · simp only [Enumerate]
        rw [readings]
        apply (Readings.enumerates_read_iff enumerate).mpr
        intro items present early
        have stands := (Readings.cursor_eq_iff present early).mpr
          (whole _ items isRead present early)
        rwa [index, stands] at returns

theorem ReturnsEntry.unique {index other : Nat} {read : ReadResult} (distinct : DistinctEntries image)
    (inside : index ≤ entryCount image) (otherInside : other ≤ entryCount image)
    (left : ReturnsEntry image index read) (right : ReturnsEntry image other read) :
    index = other := by
  unfold ReturnsEntry at left right
  by_cases listed : index < entryCount image
  · rw [if_pos listed] at left
    obtain ⟨name, bytes, named, length, buffer, chars⟩ := left
    obtain ⟨nonempty, alone⟩ := distinct index listed name named
    by_cases otherListed : other < entryCount image
    · rw [if_pos otherListed] at right
      obtain ⟨otherName, otherBytes, otherNamed, otherLength, otherBuffer, otherChars⟩ := right
      have sameBytes := Option.some.inj (buffer.symm.trans otherBuffer)
      have sameLength : name.strlen = otherName.strlen := by omega
      have sameName : otherName = name := by
        apply CString.eq_of_char
        intro i
        by_cases within : i ≤ name.strlen
        · rw [← chars i within, ← otherChars i (sameLength ▸ within), sameBytes]
        · rw [CString.char_of_ge (by omega), CString.char_of_ge (by omega)]
      exact (alone other otherListed (sameName ▸ otherNamed)).symm
    · rw [if_neg otherListed] at right
      omega
  · rw [if_neg listed] at left
    by_cases otherListed : other < entryCount image
    · rw [if_pos otherListed] at right
      obtain ⟨name, bytes, named, length, _⟩ := right
      have nonempty := (distinct other otherListed name named).1
      omega
    · omega

/-- A read that is not allowed is wrong for its reader. -/
theorem Listed.broken (distinct : DistinctEntries image) (listed : Listed image listings)
    (mixed : ¬ WholeListings image listings input)
    (stepped : listings.step image input = some next) : ¬ Enumerate image next := by
  intro enumerates
  apply mixed
  intro reader items isRead present early
  cases listingEffect stepped with
  | keeps noRead => exact absurd (isRead.symm.trans noRead) (by simp)
  | starts noRead => exact absurd (isRead.symm.trans noRead) (by simp)
  | stops noRead => exact absurd (isRead.symm.trans noRead) (by simp)
  | @reads through result other returns moved readings =>
      obtain rfl := Option.some.inj (isRead.symm.trans other)
      have before := listed.enumerate
      unfold Enumerate at before enumerates
      rw [readings] at enumerates
      have expected := (Readings.enumerates_read_iff before).mp enumerates items present early
      rw [listed.index] at returns
      have stands := returns.unique distinct (Readings.cursor_le _ _) early expected
      exact (Readings.cursor_eq_iff present early).mp stands

/-- When all other reads are whole listings at every read of a listing that is
not through, every descriptor enumerates the directory; with entries that can be
told apart, only then. -/
theorem directory_enumerates_iff {final : Listings} {inputs : List ProcessCall}
    (fresh : kernel.currentDirIndex = 0)
    (ran : (listingSystem image).run (.begin kernel) inputs = some final) :
    ((listingSystem image).Respects (WholeListings image) (.begin kernel) inputs →
      (listingSystem image).Always (Enumerate image) (.begin kernel) inputs) ∧
    (DistinctEntries image →
      ((listingSystem image).Always (Enumerate image) (.begin kernel) inputs ↔
        (listingSystem image).Respects (WholeListings image) (.begin kernel) inputs)) := by
  have preserved : ∀ listings input next, Listed image listings → WholeListings image listings input →
      (listingSystem image).step listings input = some next → Listed image next :=
    fun _ _ _ listed whole stepped => listed.preserved whole stepped
  constructor
  · intro whole
    have always := Transitions.always_of_respects preserved (Listed.begin fresh) whole
    exact always.mono fun _ listed => listed.enumerate
  · intro distinct
    apply Transitions.always_iff_respects preserved _ _ (Listed.begin fresh) ran
    · intro listings listed
      exact listed.enumerate
    · intro listings input next listed mixed stepped
      exact listed.broken distinct mixed stepped

theorem execute_index {command : Option CString} {frame : CallFrame} {control : Control}
    (done : kernel.execute image command frame = .done (control, after)) :
    after.currentDirIndex = kernel.currentDirIndex := by
  rcases execute_inv done with ⟨_, rfl⟩ | ⟨_, _, _, launching⟩
  · rfl
  · obtain ⟨cur, slot, shellEntry, cr3, userPage, _, _, _, _, rfl⟩ := launch_inv launching
    rfl

theorem FirstShell.index {first : Kernel} (started : FirstShell image first) :
    first.currentDirIndex = 0 := by
  obtain ⟨memory, frame, entry, returned⟩ := started
  rw [execute_index returned]
  simp only [boot, clear, storeVideo]

/-- `open` of the directory. -/
theorem opens_directory {cr3 : Cr3} {pid free : Nat} {name : CString} {dentry : Dentry}
    (listings : Listings) (openable : Openable image name dentry) (directory : dentry.fileType = 1)
    (current : findProgramid cr3 = .done pid)
    (isFree : freeDescriptor (listings.kernel.pcb pid) = some free) :
    ∃ opened, listings.step image ⟨cr3, .sysOpen name⟩ = some opened ∧
      opened.kernel.currentDirIndex = listings.kernel.currentDirIndex ∧
      opened.readings = listings.readings.start (pid, free) ∧
      ReadsDirectory (opened.kernel.pcb pid) free ∧
      ∀ other, other ≠ free →
        (opened.kernel.pcb pid).fd other = (listings.kernel.pcb pid).fd other := by
  have chosen : findProgramid (listings.running cr3).cr3 = .done pid := current
  have opens := sysOpen_openable openable chosen isFree
  dsimp only at opens
  rw [if_neg (by omega)] at opens
  obtain ⟨low, high, _⟩ := freeDescriptor_eq_some.mp isFree
  let descriptor := describe name dentry ((listings.kernel.pcb pid).fd free)
  have driver : descriptor.sysopsPtr = .directoryOps := by
    simp [descriptor, describe, directory]
  have flags : descriptor.flags ≠ 0 := by
    rw [describe_flags]
    decide
  let opened : Listings :=
    ⟨(listings.running cr3).setPcb pid ((listings.kernel.pcb pid).setFd free descriptor),
      listings.readings.start (pid, free)⟩
  have table : (opened.kernel.pcb pid).fd =
      Function.update (listings.kernel.pcb pid).fd free descriptor := by
    simp only [opened, setPcb, Pcb.setFd, Function.update_self]
  have own : (opened.kernel.pcb pid).fd free = descriptor := by
    rw [table, Function.update_self]
  refine ⟨opened, ?_, rfl, rfl, ⟨?_, ?_⟩, fun other different => ?_⟩
  · simp only [Listings.step, current, opens, Outcome.toOption_done, Option.map_some]
    rw [if_pos (Int.natCast_nonneg free), Int.toNat_natCast]
    rfl
  · rw [Int.toNat_natCast, own]
    omega
  · rw [Int.toNat_natCast, own]
    exact driver
  · rw [table, Function.update_of_ne different]

theorem readDirectory_entry {name : CString} {bytes : Nat → Byte}
    (inside : kernel.currentDirIndex < entryCount image)
    (named : entryName image kernel.currentDirIndex = some name) :
    kernel.readDirectory image (some bytes) = .done (name.strlen, some (strcpy bytes name),
      { kernel with currentDirIndex := kernel.currentDirIndex + 1 }) := by
  have more : ¬ ((kernel.currentDirIndex : Int) + 1 > int32 image.numDirectory) := by
    unfold entryCount at inside
    omega
  unfold entryName at named
  simp only [readDirectory, if_neg more, named]

theorem reads_entry {cr3 : Cr3} {pid file : Nat} {name : CString} (bytes : Nat → Byte)
    (current : findProgramid cr3 = .done pid)
    (reads : ReadsDirectory (listings.kernel.pcb pid) file)
    (inside : listings.kernel.currentDirIndex < entryCount image)
    (named : entryName image listings.kernel.currentDirIndex = some name) (nbytes : Int) :
    ∃ read, listings.step image ⟨cr3, .sysRead file (some bytes) nbytes⟩ = some read ∧
      read.kernel.pcb = listings.kernel.pcb ∧
      read.kernel.currentDirIndex = listings.kernel.currentDirIndex + 1 ∧
      read.readings = listings.readings.read (pid, file) ⟨name.strlen, some (strcpy bytes name)⟩ := by
  have chosen : findProgramid (listings.running cr3).cr3 = .done pid := current
  have directory : (listings.running cr3).sysRead image file (some bytes) nbytes =
      (listings.running cr3).readDirectory image (some bytes) := sysRead_directory chosen reads
  have entry : (listings.running cr3).readDirectory image (some bytes) =
      .done (name.strlen, some (strcpy bytes name),
        { listings.running cr3 with currentDirIndex := listings.kernel.currentDirIndex + 1 }) :=
    readDirectory_entry inside named
  refine ⟨⟨{ listings.running cr3 with currentDirIndex := listings.kernel.currentDirIndex + 1 },
    listings.readings.read (pid, file) ⟨name.strlen, some (strcpy bytes name)⟩⟩, ?_, rfl, rfl, rfl⟩
  simp only [Listings.step, current, directory, entry, Outcome.toOption_done, Option.map_some]
  rw [if_pos reads, Int.toNat_natCast]

/-- `.` -/
def dot : CString := ⟨[46], by simp⟩

/-- The file system with a shell, and the directory as its second entry. -/
def listedImage : Image where
  byte offset :=
    if offset = 0 then 2
    else if offset = 128 then 46
    else if offset = 160 then 1
    else shellImage.byte offset

theorem listedImage_valid : ValidProgram listedImage shellCommand (listedImage.dirEntry 0) where
  found := readDentryByName_eq_some.mpr
    ⟨by decide, 0, ⟨by decide, by decide +kernel, fun j below => by omega⟩, rfl⟩
  inode := by decide +kernel
  header := by decide +kernel
  fits := by decide +kernel
  magic := by decide +kernel

theorem listedImage_first : ∀ j, j < 1 → ¬ EntryMatches listedImage dot j := by
  decide +kernel

theorem listedImage_dot : Openable listedImage dot (listedImage.dirEntry 1) where
  nonempty := by decide
  found := readDentryByName_eq_some.mpr
    ⟨by decide, 1, ⟨by decide, by decide +kernel, listedImage_first⟩, rfl⟩
  fileType := by decide +kernel

theorem listedImage_shell : entryName listedImage 0 = some shellCommand :=
  stringAt_eq_some (by decide +kernel) (by decide)

theorem listedImage_second : entryName listedImage 1 = some dot :=
  stringAt_eq_some (by decide +kernel) (by decide)

/-- A process opens the directory twice and reads each descriptor once. -/
def interleaved : List ProcessCall :=
  [⟨.task1PageDirectory, .sysOpen dot⟩, ⟨.task1PageDirectory, .sysOpen dot⟩,
    ⟨.task1PageDirectory, .sysRead (2 : Nat) (some fun _ => 0) 32⟩,
    ⟨.task1PageDirectory, .sysRead (3 : Nat) (some fun _ => 0) 32⟩]

theorem interleaved_runs :
    ∃ first final, FirstShell listedImage first ∧ first.currentDirIndex = 0 ∧
      (listingSystem listedImage).run (.begin first) interleaved = some final ∧
      final.readings.results (1, 3) = some [⟨1, some (strcpy (fun _ => 0) dot)⟩] := by
  obtain ⟨first, started, launched⟩ := firstShell_exists listedImage_valid zeroedMemory zeroedFrame
  have fresh := started.index
  have current : findProgramid Cr3.task1PageDirectory = .done 1 := rfl
  have free : ∀ fd, 2 ≤ fd → ((first.pcb 1).fd fd).flags = 0 := by
    intro fd low
    rw [launched.newFd, initialFd, if_neg (by omega)]
    split
    · rfl
    · rw [boot_pcb]
      rfl
  have directory : (listedImage.dirEntry 1).fileType = 1 := by decide +kernel
  have count : entryCount listedImage = 2 := by decide +kernel
  have firstFree : freeDescriptor (first.pcb 1) = some 2 :=
    freeDescriptor_eq_some.mpr ⟨by decide, by decide, free 2 (by decide), fun i low below => by omega⟩
  obtain ⟨one, oneStep, oneIndex, oneReadings, oneReads, oneOthers⟩ :=
    opens_directory (.begin first) listedImage_dot directory current firstFree
  have secondFree : freeDescriptor (one.kernel.pcb 1) = some 3 := by
    refine freeDescriptor_eq_some.mpr ⟨by decide, by decide, ?_, fun i low below => ?_⟩
    · rw [oneOthers 3 (by decide)]
      exact free 3 (by decide)
    · obtain rfl : i = 2 := by omega
      exact fun closed => oneReads.1 (.inr (.inr (.inr closed)))
  obtain ⟨two, twoStep, twoIndex, twoReadings, twoReads, twoOthers⟩ :=
    opens_directory one listedImage_dot directory current secondFree
  have twoFresh : two.kernel.currentDirIndex = 0 := twoIndex.trans (oneIndex.trans fresh)
  have twoFirst : ReadsDirectory (two.kernel.pcb 1) (2 : Nat) := by
    simp only [ReadsDirectory]
    rw [Int.toNat_natCast, twoOthers 2 (by decide)]
    exact oneReads
  obtain ⟨three, threeStep, threePcb, threeIndex, threeReadings⟩ :=
    reads_entry (fun _ => 0) current twoFirst (by rw [twoFresh, count]; decide)
      (by rw [twoFresh]; exact listedImage_shell) 32
  have threeSecond : ReadsDirectory (three.kernel.pcb 1) (3 : Nat) := by
    rw [threePcb]
    exact twoReads
  have threeMoved : three.kernel.currentDirIndex = 1 := by
    rw [threeIndex, twoFresh]
  obtain ⟨four, fourStep, _, _, fourReadings⟩ :=
    reads_entry (fun _ => 0) current threeSecond (by rw [threeMoved, count]; decide)
      (by rw [threeMoved]; exact listedImage_second) 32
  refine ⟨first, four, started, fresh, ?_, ?_⟩
  · refine Transitions.run_cons.mpr ⟨one, oneStep, Transitions.run_cons.mpr ⟨two, twoStep, ?_⟩⟩
    exact Transitions.run_cons.mpr ⟨three, threeStep, Transitions.run_singleton.trans fourStep⟩
  · rw [fourReadings, Readings.read_own, threeReadings, Readings.read_other (by decide), twoReadings,
      Readings.start_own]
    rfl

theorem directory_enumerates_iff_interleaved :
    ∃ first final, FirstShell listedImage first ∧
      (listingSystem listedImage).run (.begin first) interleaved = some final ∧
      ((listingSystem listedImage).Respects (WholeListings listedImage) (.begin first) interleaved →
        (listingSystem listedImage).Always (Enumerate listedImage) (.begin first) interleaved) ∧
      (DistinctEntries listedImage →
        ((listingSystem listedImage).Always (Enumerate listedImage) (.begin first) interleaved ↔
          (listingSystem listedImage).Respects (WholeListings listedImage) (.begin first)
            interleaved)) := by
  obtain ⟨first, final, started, fresh, ran, _⟩ := interleaved_runs
  exact ⟨first, final, started, ran, directory_enumerates_iff fresh ran⟩

/-- The first read of the second descriptor returns the second entry. -/
theorem second_listing_skips :
    ∃ first, FirstShell listedImage first ∧
      ¬ (listingSystem listedImage).Always (Enumerate listedImage) (.begin first) interleaved := by
  obtain ⟨first, final, started, _, ran, results⟩ := interleaved_runs
  refine ⟨first, started, fun always => ?_⟩
  have entry := always.last ran (1, 3) _ results 0 _ rfl (Nat.zero_le _)
  have count : entryCount listedImage = 2 := by decide +kernel
  unfold ReturnsEntry at entry
  rw [count, if_pos (by decide), listedImage_shell] at entry
  obtain ⟨name, _, named, length, _⟩ := entry
  cases named
  exact absurd length (by decide)

end Ece391
