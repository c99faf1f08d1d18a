import Mathlib.Algebra.Group.Nat.Defs
import Ece391.FileSystem.Slice

namespace Ece391

/-! # The indices at which read_data looks a block up -/

/-- The indices of `inode_ptr->dataBlock[]` in the copy loop, which looks the
next block up as soon as one is used up. -/
def copyLookups (image : Image) (inode : Nat) : (remaining i : Nat) → CopyState → List Nat
  | 0, _, _ => []
  | remaining + 1, i, state =>
      let others := copyLookups image inode remaining (i + 1) (copyByte image inode i state)
      if state.dataPtr = state.dataEnd then (state.blockNUM + 1) :: others else others

/-- The indices in a call of `read_data`. -/
def readDataLookups (image : Image) (inode offset : Nat) (buf : Option (Nat → Byte))
    (length : Nat) : List Nat :=
  let blockNUM := offset / FOUR_KILOBYTES
  let blockOffset := offset % FOUR_KILOBYTES
  let dataLength := image.inodeLength inode
  if offset = dataLength then []
  else
    match buf with
    | none => []
    | some bytes =>
        if inode ≥ image.numInode ∨ length = 0 then []
        else
          let left := wrap (dataLength + 4294967296 - offset)
          let length := if length ≥ left then left else length
          let dataPtr := wrap (image.blockPtr inode blockNUM + blockOffset)
          let dataEnd := wrap (dataPtr + FOUR_KILOBYTES - blockOffset - 1)
          blockNUM :: copyLookups image inode length 0 { blockNUM, dataPtr, dataEnd, buf := bytes }

/-- Every index belongs to a block that holds bytes of the file, and is one of
the array. -/
def LooksUpInside (image : Image) (inode offset : Nat) (buf : Option (Nat → Byte))
    (length : Nat) : Prop :=
  ∀ k ∈ readDataLookups image inode offset buf length,
    FOUR_KILOBYTES * k < image.inodeLength inode ∧ k < NUM_DATA_BLOCK

variable {image : Image} {inode offset length position remaining i k : Nat} {state : CopyState}

theorem copyByte_lookup (points : PointsAt image inode position state) :
    state.dataPtr = state.dataEnd ↔ FOUR_KILOBYTES * (state.blockNUM + 1) = position + 1 := by
  have inBlock := Nat.mod_lt position (show FOUR_KILOBYTES > 0 by decide)
  rw [points.dataPtr, points.dataEnd, points.blockNUM]
  simp only [FOUR_KILOBYTES] at inBlock ⊢
  omega

/-- The blocks looked up are those that begin behind a byte copied. -/
theorem mem_copyLookups (points : PointsAt image inode position state) :
    k ∈ copyLookups image inode remaining i state ↔
      position < FOUR_KILOBYTES * k ∧ FOUR_KILOBYTES * k ≤ position + remaining := by
  induction remaining generalizing position i state with
  | zero =>
      have none : ¬ (position < FOUR_KILOBYTES * k ∧ FOUR_KILOBYTES * k ≤ position + 0) := by omega
      simp only [copyLookups, List.not_mem_nil, none]
  | succ remaining ih =>
      have others := ih (i := i + 1) (copyByte_pointsAt (i := i) points).1
      rw [copyLookups]
      by_cases used : state.dataPtr = state.dataEnd
      · have boundary := (copyByte_lookup points).mp used
        rw [if_pos used, List.mem_cons, others]
        constructor
        · rintro (rfl | behind)
          · omega
          · omega
        · intro inside
          by_cases first : k = state.blockNUM + 1
          · exact .inl first
          · refine .inr ⟨?_, by omega⟩
            simp only [FOUR_KILOBYTES] at boundary inside ⊢
            omega
      · have boundary := mt (copyByte_lookup points).mpr used
        have block := points.blockNUM
        rw [if_neg used, others]
        simp only [FOUR_KILOBYTES] at boundary block ⊢
        omega

/-- What a call that copies bytes looks up. -/
theorem mem_readDataLookups (listed : inode < image.numInode)
    (inside : offset < image.inodeLength inode) (positive : 0 < length) (bytes : Nat → Byte) :
    k ∈ readDataLookups image inode offset (some bytes) length ↔
      k = offset / FOUR_KILOBYTES ∨ offset < FOUR_KILOBYTES * k ∧
        FOUR_KILOBYTES * k ≤ offset + min length (image.inodeLength inode - offset) := by
  have clamped : (if length ≥ wrap (image.inodeLength inode + 4294967296 - offset) then
      wrap (image.inodeLength inode + 4294967296 - offset) else length) =
        min length (image.inodeLength inode - offset) := by
    have left : wrap (image.inodeLength inode + 4294967296 - offset) =
        image.inodeLength inode - offset := bytesLeft_inside (Nat.le_of_lt inside)
    rw [left]
    split <;> omega
  rw [readDataLookups, if_neg (by omega)]
  dsimp only
  rw [if_neg (by omega), clamped, List.mem_cons,
    mem_copyLookups (PointsAt.start image inode offset bytes)]

/-- A call that copies nothing looks nothing up. -/
theorem readDataLookups_refused {buf : Option (Nat → Byte)}
    (refused : buf = none ∨ image.numInode ≤ inode) :
    readDataLookups image inode offset buf length = [] := by
  by_cases atEnd : offset = image.inodeLength inode
  · cases buf <;> exact if_pos atEnd
  · cases buf with
    | none => exact if_neg atEnd
    | some bytes =>
        rw [readDataLookups, if_neg atEnd]
        exact if_pos (.inl (refused.resolve_left (by simp)))

/-- A file of whole blocks that is read to its end. -/
theorem lookups_behind (listed : inode < image.numInode) (inside : offset < image.inodeLength inode)
    (positive : 0 < length) (bytes : Nat → Byte) (whole : FOUR_KILOBYTES ∣ image.inodeLength inode)
    (toEnd : image.inodeLength inode ≤ offset + length) :
    ¬ LooksUpInside image inode offset (some bytes) length := by
  intro looksUp
  obtain ⟨blocks, length_eq⟩ := whole
  have behind : blocks ∈ readDataLookups image inode offset (some bytes) length :=
    (mem_readDataLookups listed inside positive bytes).mpr (.inr (by omega))
  have bound := (looksUp blocks behind).1
  omega

theorem lookups_inside (listed : inode < image.numInode) (inside : offset < image.inodeLength inode)
    (positive : 0 < length) (bytes : Nat → Byte)
    (safe : ¬ FOUR_KILOBYTES ∣ image.inodeLength inode ∨
      offset + length < image.inodeLength inode) :
    ∀ k ∈ readDataLookups image inode offset (some bytes) length,
      FOUR_KILOBYTES * k < image.inodeLength inode := by
  intro k member
  rcases (mem_readDataLookups listed inside positive bytes).mp member with first | next
  · have start := Nat.mul_div_le offset FOUR_KILOBYTES
    rw [first]
    omega
  · rcases safe with partly | ends
    · have different : FOUR_KILOBYTES * k ≠ image.inodeLength inode :=
        fun same => partly ⟨k, same.symm⟩
      omega
    · omega

/-- The block behind the file is looked up exactly when a file of whole blocks
is read to its end. -/
theorem read_data_lookups_iff {image : Image} {inode offset length : Nat}
    (fits : image.inodeLength inode ≤ NUM_DATA_BLOCK * FOUR_KILOBYTES)
    (inside : offset < image.inodeLength inode) (positive : 0 < length)
    (buf : Option (Nat → Byte)) :
    LooksUpInside image inode offset buf length ↔
      buf = none ∨ image.numInode ≤ inode ∨ ¬ FOUR_KILOBYTES ∣ image.inodeLength inode ∨
        offset + length < image.inodeLength inode := by
  by_cases refused : buf = none ∨ image.numInode ≤ inode
  · have nothing : LooksUpInside image inode offset buf length := by
      intro k member
      rw [readDataLookups_refused refused] at member
      cases member
    exact ⟨fun _ => or_assoc.mp (.inl refused), fun _ => nothing⟩
  · obtain ⟨notNull, unlisted⟩ := not_or.mp refused
    obtain ⟨bytes, rfl⟩ := Option.ne_none_iff_exists'.mp notNull
    have listed : inode < image.numInode := Nat.lt_of_not_le unlisted
    constructor
    · intro looksUp
      by_contra reaches
      obtain ⟨whole, toEnd⟩ := not_or.mp (not_or.mp (not_or.mp reaches).2).2
      exact lookups_behind listed inside positive bytes (not_not.mp whole)
        (Nat.le_of_not_lt toEnd) looksUp
    · intro safe k member
      have copies := (or_assoc.mpr safe).resolve_left refused
      have short := lookups_inside listed inside positive bytes copies k member
      refine ⟨short, ?_⟩
      simp only [FOUR_KILOBYTES, NUM_DATA_BLOCK] at short fits ⊢
      omega

/-- One inode whose blocks are the 1023 data blocks of the image in their order,
and as long as these are. -/
def fullImage : Image where
  byte offset :=
    if offset = 0 ∨ offset = 4 then 1
    else if offset = 8 then 0xFF
    else if offset = 9 then 0x03
    else if offset = 4097 then 0xF0
    else if offset = 4098 then 0x3F
    else if 4100 ≤ offset ∧ offset < 8192 then
      UInt8.ofNat ((offset - 4100) / 4 / 256 ^ (offset % 4))
    else 0

theorem fullImage_dataBlock {index : Nat} (inside : index < NUM_DATA_BLOCK) :
    fullImage.dataBlock 0 index = index := by
  unfold NUM_DATA_BLOCK at inside
  have start : getInodeptr 0 = 4096 := by decide
  have stored : ∀ lane < 4, (fullImage.byte (wrap (4096 + 4 + 4 * index + lane))).toNat =
      index / 256 ^ lane % 256 := by
    intro lane small
    have quotient : (4096 + 4 + 4 * index + lane - 4100) / 4 = index := by omega
    have remainder : (4096 + 4 + 4 * index + lane) % 4 = lane := by omega
    rw [wrap_of_lt (by omega), fullImage]
    dsimp only
    rw [if_neg (by omega), if_neg (by omega), if_neg (by omega), if_neg (by omega),
      if_neg (by omega), if_pos (by omega), quotient, remainder, UInt8.toNat_ofNat']
  rw [Image.dataBlock, Image.word, start, ← Nat.add_zero (4096 + 4 + 4 * index),
    stored 0 (by decide), stored 1 (by decide), stored 2 (by decide), stored 3 (by decide)]
  simp only [Nat.pow_zero, Nat.pow_one, Nat.reducePow]
  omega

theorem fullImage_validInode : ValidInode fullImage 0 := by
  have whole : fullImage.inodeLength 0 = NUM_DATA_BLOCK * FOUR_KILOBYTES := by decide +kernel
  refine ⟨by decide +kernel, Nat.le_of_eq whole, fun position inside => ?_⟩
  have listed : position / FOUR_KILOBYTES < NUM_DATA_BLOCK := by
    simp only [FOUR_KILOBYTES, NUM_DATA_BLOCK] at whole inside ⊢
    omega
  have blocks : fullImage.numDataBlock = NUM_DATA_BLOCK := by decide +kernel
  rw [fullImage_dataBlock listed, blocks]
  exact listed

/-- Up to its last byte the file is read inside its block list. -/
theorem read_data_lookups_iff_full :
    LooksUpInside fullImage 0 0 (some fun _ => 0) 4190207 :=
  (read_data_lookups_iff fullImage_validInode.length (by decide +kernel) (by decide) _).mpr
    (.inr (.inr (.inr (by decide +kernel))))

/-- Behind the last byte `dataBlock[1023]` is looked up, which is no element. -/
theorem read_data_looks_behind :
    InMemory fullImage ∧ ValidInode fullImage 0 ∧
      readDataLookups fullImage 0 4190207 (some fun _ => 0) 1 = [1022, NUM_DATA_BLOCK] ∧
      ¬ LooksUpInside fullImage 0 4190207 (some fun _ => 0) 1 := by
  have looked : readDataLookups fullImage 0 4190207 (some fun _ => 0) 1 = [1022, NUM_DATA_BLOCK] := by
    decide +kernel
  refine ⟨by decide +kernel, fullImage_validInode, looked, fun inside => ?_⟩
  have bound := (inside NUM_DATA_BLOCK (by rw [looked]; decide)).2
  exact absurd bound (Nat.lt_irrefl _)

end Ece391
