import Ece391.FileSystem.Names
import Ece391.Process.Listing

namespace Ece391

open Kernel

/-! # The names that a listing returns

`read_directory` copies up to a NUL, and the name field need not hold one.
-/

/-- One read after the other, each into a buffer of its own. -/
def readEntries (image : Image) :
    List (Nat → Byte) → Kernel → Outcome (List ReadResult × Kernel)
  | [], kernel => .done ([], kernel)
  | buf :: rest, kernel => do
      let (value, after, kernel) ← kernel.readDirectory image (some buf)
      let (results, kernel) ← readEntries image rest kernel
      return (⟨value, after⟩ :: results, kernel)

/-- What read number `k` of a listing has to bring: the name of the next entry,
or the end, behind which the listing starts again. -/
def expectedRead (image : Image) (k : Nat) (buf : Nat → Byte) : ReadResult :=
  let index := k % (entryCount image + 1)
  if index < entryCount image then
    ⟨(fieldName image index).strlen, some (strcpy buf (fieldName image index))⟩
  else ⟨0, some buf⟩

def expectedReads (image : Image) : Nat → List (Nat → Byte) → List ReadResult
  | _, [] => []
  | k, buf :: rest => expectedRead image k buf :: expectedReads image (k + 1) rest

/-- From read number `k` on every read brings what it has to. -/
def ListsNames (image : Image) (k : Nat) (kernel : Kernel) : Prop :=
  ∀ bufs, ∃ after, readEntries image bufs kernel = .done (expectedReads image k bufs, after)

/-- There is a NUL in the name field, or right behind it in the first byte of
the type. -/
def NameEnds (image : Image) (index : Nat) : Prop :=
  (fieldName image index).strlen < CHAR_LENGTH ∨ image.byte (64 + 64 * index + CHAR_LENGTH) = 0

variable {image : Image} {kernel : Kernel} {index k : Nat}

theorem NameEnds.entryName_eq (ends : NameEnds image index) :
    entryName image index = some (fieldName image index) := by
  have field := fieldName_field image index
  have length := field.length
  unfold CHAR_LENGTH at length
  refine stringAt_eq_some (fun i inside => ?_) (by omega)
  by_cases below : i < (fieldName image index).strlen
  · exact field.bytes i below
  · have last : i = (fieldName image index).strlen := by omega
    rw [last, CString.char_of_ge (Nat.le_refl _)]
    rcases ends with short | ended
    · exact field.terminated short
    · by_cases short : (fieldName image index).strlen < CHAR_LENGTH
      · exact field.terminated short
      · have full : (fieldName image index).strlen = CHAR_LENGTH :=
          Nat.le_antisymm field.length (Nat.le_of_not_lt short)
        rw [full]
        exact ended

/-- A name as long as the field's is found only where a NUL ends that one. -/
theorem nameEnds_of_length {name : CString} (found : entryName image index = some name)
    (length : name.strlen = (fieldName image index).strlen) : NameEnds image index := by
  by_cases short : (fieldName image index).strlen < CHAR_LENGTH
  · exact .inl short
  · have full : (fieldName image index).strlen = CHAR_LENGTH :=
      Nat.le_antisymm (fieldName_field image index).length (Nat.le_of_not_lt short)
    have ended := stringAt_holds found (Nat.le_refl _)
    rw [length, full, CString.char_of_ge (by rw [length, full])] at ended
    exact .inr ended

theorem next_index (k count : Nat) :
    (k + 1) % (count + 1) = if k % (count + 1) < count then k % (count + 1) + 1 else 0 := by
  have below := Nat.mod_lt k (show 0 < count + 1 by omega)
  rw [Nat.add_mod]
  split
  · rename_i inside
    rw [Nat.mod_eq_of_lt (show 1 < count + 1 by omega)]
    exact Nat.mod_eq_of_lt (by omega)
  · rename_i atEnd
    have last : k % (count + 1) = count := by omega
    rw [last]
    by_cases empty : count = 0
    · rw [empty]
    · rw [Nat.mod_eq_of_lt (show 1 < count + 1 by omega)]
      exact Nat.mod_self _

/-- One read of a listing whose names end. -/
theorem readDirectory_expected (ends : ∀ index < entryCount image, NameEnds image index)
    (reached : kernel.currentDirIndex = k % (entryCount image + 1)) (buf : Nat → Byte) :
    ∃ next, kernel.readDirectory image (some buf) =
        .done ((expectedRead image k buf).value, (expectedRead image k buf).buf, next) ∧
      next.currentDirIndex = (k + 1) % (entryCount image + 1) := by
  simp only [expectedRead]
  rw [← reached]
  by_cases inside : kernel.currentDirIndex < entryCount image
  · have named := (ends kernel.currentDirIndex inside).entryName_eq
    refine ⟨{ kernel with currentDirIndex := kernel.currentDirIndex + 1 }, ?_, ?_⟩
    · simp only [if_pos inside]
      exact readDirectory_entry inside named
    · rw [next_index, ← reached, if_pos inside]
  · have ended : (kernel.currentDirIndex : Int) + 1 > int32 image.numDirectory := by
      unfold entryCount at inside
      omega
    refine ⟨{ kernel with currentDirIndex := 0 }, ?_, ?_⟩
    · simp only [if_neg inside]
      exact if_pos ended
    · rw [next_index, ← reached, if_neg inside]

theorem listsNames_of_nameEnds (ends : ∀ index < entryCount image, NameEnds image index)
    (reached : kernel.currentDirIndex = k % (entryCount image + 1)) :
    ListsNames image k kernel := by
  intro bufs
  induction bufs generalizing k kernel with
  | nil => exact ⟨kernel, rfl⟩
  | cons buf rest ih =>
      obtain ⟨next, read, moved⟩ := readDirectory_expected ends reached buf
      obtain ⟨after, reads⟩ := ih moved
      refine ⟨after, ?_⟩
      simp only [readEntries, read, Outcome.done_bind, reads]
      rfl

/-- The first read of a listing that is right, and the listing behind it. -/
theorem ListsNames.read (lists : ListsNames image k kernel)
    (reached : kernel.currentDirIndex = k % (entryCount image + 1)) :
    ∃ next, next.currentDirIndex = (k + 1) % (entryCount image + 1) ∧
      ListsNames image (k + 1) next ∧
      (k % (entryCount image + 1) < entryCount image →
        NameEnds image (k % (entryCount image + 1))) := by
  obtain ⟨first, firstRead⟩ := lists [fun _ => 0]
  obtain ⟨⟨value, after, next⟩, read, rest⟩ := Outcome.bind_eq_done.mp firstRead
  obtain ⟨same, _⟩ := Prod.mk.inj (Outcome.done.inj rest)
  have result : (⟨value, after⟩ : ReadResult) = expectedRead image k fun _ => 0 :=
    (List.cons.inj same).1
  obtain ⟨returns, moved⟩ := readDirectory_reads read
  refine ⟨next, ?_, fun bufs => ?_, fun inside => ?_⟩
  · rw [moved, next_index, reached]
  · obtain ⟨last, reads⟩ := lists ((fun _ => 0) :: bufs)
    obtain ⟨⟨otherValue, otherAfter, other⟩, again, others⟩ := Outcome.bind_eq_done.mp reads
    cases read.symm.trans again
    obtain ⟨⟨results, final⟩, remaining, joined⟩ := Outcome.bind_eq_done.mp others
    obtain ⟨sameResults, _⟩ := Prod.mk.inj (Outcome.done.inj joined)
    exact ⟨final, by rw [remaining, ← (List.cons.inj sameResults).2]⟩
  · unfold ReturnsEntry at returns
    rw [reached, if_pos inside] at returns
    obtain ⟨name, bytes, found, length, _⟩ := returns
    unfold expectedRead at result
    rw [if_pos inside] at result
    have expected : value = ((fieldName image (k % (entryCount image + 1))).strlen : Int) :=
      (ReadResult.mk.inj result).1
    exact nameEnds_of_length found (Int.ofNat_inj.mp (length.symm.trans expected))

theorem ListsNames.reaches (lists : ListsNames image 0 kernel)
    (fresh : kernel.currentDirIndex = 0) (k : Nat) :
    ∃ next, next.currentDirIndex = k % (entryCount image + 1) ∧ ListsNames image k next := by
  induction k with
  | zero => exact ⟨kernel, fresh.trans (Nat.zero_mod _).symm, lists⟩
  | succ k ih =>
      obtain ⟨next, reached, continues⟩ := ih
      obtain ⟨after, moved, further, _⟩ := continues.read reached
      exact ⟨after, moved, further⟩

theorem ListsNames.nameEnds (lists : ListsNames image 0 kernel)
    (fresh : kernel.currentDirIndex = 0) (inside : index < entryCount image) :
    NameEnds image index := by
  obtain ⟨next, reached, continues⟩ := lists.reaches fresh index
  have here : index % (entryCount image + 1) = index := Nat.mod_eq_of_lt (by omega)
  obtain ⟨_, _, _, ends⟩ := continues.read reached
  rw [here] at ends
  exact ends inside

/-- A single reader gets the names of all entries, over and over, exactly when
every name is ended by a NUL in its field or by a zero first byte of the type. -/
theorem directory_names_iff {image : Image} {kernel : Kernel} (fresh : kernel.currentDirIndex = 0) :
    ListsNames image 0 kernel ↔ ∀ index < entryCount image, NameEnds image index := by
  constructor
  · intro lists index inside
    exact lists.nameEnds fresh inside
  · intro ends
    exact listsNames_of_nameEnds ends (fresh.trans (Nat.zero_mod _).symm)

theorem directory_names_iff_shell :
    ListsNames shellImage 0 zeroedMemory ↔
      ∀ index < entryCount shellImage, NameEnds shellImage index :=
  directory_names_iff rfl

/-- One regular file whose name fills its field. -/
def fullNameImage : Image where
  byte offset :=
    if offset = 0 then 1
    else if 64 ≤ offset ∧ offset < 96 then 97
    else if offset = 96 then 2
    else 0

/-- The read of the name brings the type of the entry along. -/
theorem full_name_overruns : BootBlock fullNameImage ∧ ¬ ListsNames fullNameImage 0 zeroedMemory := by
  have count : fullNameImage.numDirectory = 1 := by decide
  refine ⟨⟨by decide, fun index low bound i inside => ?_⟩, fun lists => ?_⟩
  · simp only [fullNameImage]
    rw [if_neg (by omega), if_neg (by omega), if_neg (by omega)]
  · have ends : NameEnds fullNameImage 0 := lists.nameEnds rfl (by decide)
    rcases ends with short | ended
    · exact absurd short (by decide)
    · cases ended

end Ece391
