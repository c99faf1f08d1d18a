import Ece391.FileSystem
import Ece391.Library.Chunks

namespace Ece391

open Library

/-! # read_data as a slice of a file -/

/-- The inode is one of the image, its length is one it can have, and the blocks
that hold its bytes are data blocks of the image. -/
structure ValidInode (image : Image) (inode : Nat) : Prop where
  listed : inode < image.numInode
  length : image.inodeLength inode ≤ NUM_DATA_BLOCK * FOUR_KILOBYTES
  blocks : ∀ position < image.inodeLength inode,
    image.dataBlock inode (position / FOUR_KILOBYTES) < image.numDataBlock

/-- The image lies in an address space of 2^32 bytes. -/
def InMemory (image : Image) : Prop := image.numInode + image.numDataBlock + 1 ≤ 1048576

instance (image : Image) : Decidable (InMemory image) := inferInstanceAs (Decidable (_ ≤ _))

/-- The bytes of the data block that the inode lists at `index`. -/
def blockBytes (image : Image) (inode index : Nat) : List Byte :=
  (List.range FOUR_KILOBYTES).map fun i =>
    image.byte (FOUR_KILOBYTES * (image.numInode + 1 + image.dataBlock inode index) + i)

/-- The data blocks of an inode, as many as its length takes. -/
def dataBytes (image : Image) (inode : Nat) : List Byte :=
  concat (blockBytes image inode)
    ((image.inodeLength inode + FOUR_KILOBYTES - 1) / FOUR_KILOBYTES)

/-- The call returns the number of bytes that are asked for and there, stores
exactly these and no other byte. -/
def ReadsSlice (image : Image) (inode offset length : Nat) (buf : Nat → Byte) : Prop :=
  ∃ (count : Nat) (after : Nat → Byte), count = min length (image.inodeLength inode - offset) ∧
    readData image inode offset (some buf) length = ((count : Int), some after) ∧
    (∀ i < count, some (after i) = (dataBytes image inode)[offset + i]?) ∧
    ∀ i, count ≤ i → after i = buf i

variable {image : Image} {inode offset length position : Nat} {buf : Nat → Byte}

theorem blockBytes_length (image : Image) (inode index : Nat) :
    (blockBytes image inode index).length = FOUR_KILOBYTES := by
  simp [blockBytes]

/-- The bytes of a valid inode are where its block list says. -/
theorem ValidInode.fileByte_eq (valid : ValidInode image inode) (inMemory : InMemory image)
    (inside : position < image.inodeLength inode) :
    fileByte image inode position =
      image.byte (FOUR_KILOBYTES *
        (image.numInode + 1 + image.dataBlock inode (position / FOUR_KILOBYTES)) +
        position % FOUR_KILOBYTES) := by
  have block := valid.blocks position inside
  unfold InMemory at inMemory
  have inner : wrap (image.dataBlock inode (position / FOUR_KILOBYTES) + image.numInode + 1) =
      image.numInode + 1 + image.dataBlock inode (position / FOUR_KILOBYTES) := by
    rw [wrap_of_lt (by omega)]
    omega
  simp only [fileByte, Image.blockPtr]
  rw [inner, wrap_of_lt]
  simp only [FOUR_KILOBYTES] at block ⊢
  omega

theorem ValidInode.dataBytes_getElem? (valid : ValidInode image inode) (inMemory : InMemory image)
    (inside : position < image.inodeLength inode) :
    (dataBytes image inode)[position]? = some (fileByte image inode position) := by
  have sized := blockBytes_length image inode
  have within : position <
      (image.inodeLength inode + FOUR_KILOBYTES - 1) / FOUR_KILOBYTES * FOUR_KILOBYTES := by
    simp only [FOUR_KILOBYTES]
    omega
  have inBlock : position % FOUR_KILOBYTES < FOUR_KILOBYTES := Nat.mod_lt _ (by decide)
  rw [dataBytes, concat_getElem? sized within, valid.fileByte_eq inMemory inside]
  simp only [blockBytes, List.getElem?_map, List.getElem?_range inBlock, Option.map_some]

/-- Up to the end of the file the slice is exact. -/
theorem ValidInode.readsSlice (valid : ValidInode image inode) (inMemory : InMemory image)
    (inside : offset ≤ image.inodeLength inode) (positive : 0 < length) (buf : Nat → Byte) :
    ReadsSlice image inode offset length buf := by
  by_cases atEnd : offset = image.inodeLength inode
  · subst atEnd
    refine ⟨0, buf, by omega, readData_atEnd, fun i below => ?_, fun _ _ => rfl⟩
    exact absurd below (Nat.not_lt_zero i)
  · have bound := valid.length
    unfold NUM_DATA_BLOCK FOUR_KILOBYTES at bound
    have read : readData image inode offset (some buf) length = _ :=
      readData_inside valid.listed (by omega) positive
    rw [int32_of_lt (by omega)] at read
    refine ⟨_, _, rfl, read, fun i below => ?_, fun i beyond => ?_⟩
    · rw [if_pos below]
      exact (valid.dataBytes_getElem? inMemory (by omega)).symm
    · exact if_neg (by omega)

/-- Behind the end of the file the bytes left are counted modulo 2^32, so that
something is always copied. -/
theorem not_readsSlice (listed : inode < image.numInode)
    (beyond : image.inodeLength inode < offset) (bounded : offset < 4294967296)
    (positive : 0 < length) (fits : length < 4294967296) (buf : Nat → Byte) :
    ¬ ReadsSlice image inode offset length buf := by
  intro reads
  obtain ⟨count, after, isCount, read, _⟩ := reads
  rw [readData_copies listed (by omega) positive] at read
  have value := (Prod.mk.inj read).1
  have left : 0 < bytesLeft image inode offset ∧ bytesLeft image inode offset < 4294967296 := by
    simp only [bytesLeft, wrap]
    omega
  unfold int32 at value
  split at value <;> omega

/-- `read_data` copies the slice of the file that is asked for exactly when it
starts inside the file or at its end. -/
theorem read_data_slice_iff {image : Image} {inode offset length : Nat} (inMemory : InMemory image)
    (valid : ValidInode image inode) (bounded : offset < 4294967296) (positive : 0 < length)
    (fits : length < 4294967296) (buf : Nat → Byte) :
    ReadsSlice image inode offset length buf ↔ offset ≤ image.inodeLength inode := by
  constructor
  · intro reads
    by_contra beyond
    exact not_readsSlice valid.listed (Nat.lt_of_not_le beyond) bounded positive fits buf reads
  · intro inside
    exact valid.readsSlice inMemory inside positive buf

theorem shellImage_validInode : ValidInode shellImage 0 := by
  have whole : shellImage.inodeLength 0 = 40 := by decide
  refine ⟨by decide, ?_, fun position inside => ?_⟩
  · rw [whole]
    decide
  · rw [whole] at inside
    have first : position / FOUR_KILOBYTES = 0 := by
      simp only [FOUR_KILOBYTES]
      omega
    rw [first]
    decide

theorem read_data_slice_iff_shell :
    ReadsSlice shellImage 0 39 5 (fun _ => 0) ↔ 39 ≤ shellImage.inodeLength 0 :=
  read_data_slice_iff (by decide) shellImage_validInode (by decide) (by decide) (by decide) _

/-- One byte behind the end of the shell's 40 bytes. -/
theorem read_data_beyond_end :
    InMemory shellImage ∧ ValidInode shellImage 0 ∧ ¬ ReadsSlice shellImage 0 41 1 (fun _ => 0) :=
  ⟨by decide, shellImage_validInode,
    not_readsSlice (by decide) (by decide) (by decide) (by decide) (by decide) _⟩

end Ece391
