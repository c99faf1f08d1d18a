import Ece391.Lib

namespace Ece391

/-! # The file system image (file_system.c)

Every pointer of file_system.c is `bootHead` plus an offset, so the image is a
function from offsets, and pointer arithmetic is arithmetic modulo 2^32 on them.
-/

def CHAR_LENGTH : Nat := 32
def NUM_DIR_ENTRIES : Nat := 63
def NUM_DATA_BLOCK : Nat := 1023
def FOUR_KILOBYTES : Nat := 4096

/-- The value of a `uint32_t` expression. -/
def wrap (value : Nat) : Nat := value % 4294967296

/-- The `int32_t` with the same bits as a `uint32_t`. -/
def int32 (value : Nat) : Int :=
  if value < 2147483648 then value else value - 4294967296

theorem wrap_of_lt {value : Nat} (small : value < 4294967296) : wrap value = value :=
  Nat.mod_eq_of_lt small

theorem int32_of_lt {value : Nat} (small : value < 2147483648) : int32 value = value :=
  if_pos small

/-- `&bootHead[inodeNum + 1]` -/
def getInodeptr (inodeNum : Nat) : Nat := wrap (FOUR_KILOBYTES * (inodeNum + 1))

structure Dentry where
  fileName : Nat → Byte
  fileType : Nat
  inodeNum : Nat

structure Image where
  byte : Nat → Byte

namespace Image

variable (image : Image)

/-- The 32-bit word stored little-endian at an offset. -/
def word (offset : Nat) : Nat :=
  (image.byte (wrap offset)).toNat + 256 * (image.byte (wrap (offset + 1))).toNat +
    65536 * (image.byte (wrap (offset + 2))).toNat +
    16777216 * (image.byte (wrap (offset + 3))).toNat

/-! The boot block: three counts, 52 reserved bytes, 63 entries of 64 bytes. -/

def numDirectory : Nat := image.word 0
def numInode : Nat := image.word 4
def numDataBlock : Nat := image.word 8

def dirEntry (index : Nat) : Dentry where
  fileName i := image.byte (64 + 64 * index + i)
  fileType := image.word (64 + 64 * index + 32)
  inodeNum := image.word (64 + 64 * index + 36)

def inodeLength (inodeNum : Nat) : Nat := image.word (getInodeptr inodeNum)

def dataBlock (inodeNum index : Nat) : Nat :=
  image.word (getInodeptr inodeNum + 4 + 4 * index)

/-- `&bootHead[dataBlock[index] + numInode + 1]` -/
def blockPtr (inodeNum index : Nat) : Nat :=
  wrap (FOUR_KILOBYTES * wrap (image.dataBlock inodeNum index + image.numInode + 1))

theorem word_lt (offset : Nat) : image.word offset < 4294967296 := by
  simp only [word]
  have byte0 := (image.byte (wrap offset)).toNat_lt
  have byte1 := (image.byte (wrap (offset + 1))).toNat_lt
  have byte2 := (image.byte (wrap (offset + 2))).toNat_lt
  have byte3 := (image.byte (wrap (offset + 3))).toNat_lt
  omega

theorem inodeLength_lt (inodeNum : Nat) : image.inodeLength inodeNum < 4294967296 :=
  image.word_lt _

/-- A block pointer is aligned, so offsets inside the block never wrap. -/
theorem blockPtr_aligned (inodeNum index : Nat) :
    ∃ block, block < 1048576 ∧ image.blockPtr inodeNum index = FOUR_KILOBYTES * block := by
  refine ⟨(image.dataBlock inodeNum index + image.numInode + 1) % 4294967296 % 1048576,
    Nat.mod_lt _ (by decide), ?_⟩
  simp only [blockPtr, wrap, FOUR_KILOBYTES]
  omega

end Image

/-- The first of the entries from `i` on whose name compares equal. -/
def findEntry (image : Image) (tempString : Nat → Byte) : (remaining i : Nat) → Option Nat
  | 0, _ => none
  | remaining + 1, i =>
      if strncmp tempString (image.dirEntry i).fileName (CHAR_LENGTH - 1) = 0 then some i
      else findEntry image tempString remaining (i + 1)

/-- `none` is the result -1, with `*dentry` left alone.  The name is copied to
`tempString[CHAR_LENGTH]` and padded with zeros there. -/
def readDentryByName (image : Image) (fname : CString) : Outcome (Option Dentry) :=
  if CHAR_LENGTH ≤ fname.strlen then .outOfBounds
  else .done ((findEntry image fname.char NUM_DIR_ENTRIES 0).map image.dirEntry)

/-- Entry `index` is what the lookup takes for a file called `fname`. -/
def EntryMatches (image : Image) (fname : CString) (index : Nat) : Prop :=
  strncmp fname.char (image.dirEntry index).fileName (CHAR_LENGTH - 1) = 0

instance (image : Image) (fname : CString) (index : Nat) :
    Decidable (EntryMatches image fname index) := by
  unfold EntryMatches; infer_instance

theorem findEntry_eq_some {image : Image} {fname : CString} {remaining i index : Nat} :
    findEntry image fname.char remaining i = some index ↔
      i ≤ index ∧ index < i + remaining ∧ EntryMatches image fname index ∧
        ∀ j, i ≤ j → j < index → ¬ EntryMatches image fname j := by
  induction remaining generalizing i with
  | zero => simp only [findEntry, reduceCtorEq, false_iff]; omega
  | succ remaining ih =>
      simp only [findEntry]
      split
      · rename_i found
        simp only [Option.some.injEq]
        constructor
        · rintro rfl
          exact ⟨Nat.le_refl _, by omega, found, fun j low high => by omega⟩
        · rintro ⟨low, _, _, first⟩
          by_contra different
          exact first i (Nat.le_refl _) (by omega) found
      · rename_i other
        rw [ih]
        constructor
        · rintro ⟨low, high, found, first⟩
          refine ⟨by omega, by omega, found, fun j jLow jHigh => ?_⟩
          by_cases here : j = i
          · exact here ▸ other
          · exact first j (by omega) jHigh
        · rintro ⟨low, high, found, first⟩
          have moved : index ≠ i := fun here => other (here ▸ found)
          exact ⟨by omega, by omega, found, fun j jLow jHigh => first j (by omega) jHigh⟩

theorem readDentryByName_of_short {image : Image} {fname : CString}
    (short : fname.strlen < CHAR_LENGTH) :
    readDentryByName image fname =
      .done ((findEntry image fname.char NUM_DIR_ENTRIES 0).map image.dirEntry) :=
  if_neg (by omega)

/-- The slot the look-up stops at. -/
structure FirstMatch (image : Image) (fname : CString) (index : Nat) : Prop where
  bound : index < NUM_DIR_ENTRIES
  found : EntryMatches image fname index
  first : ∀ j, j < index → ¬ EntryMatches image fname j

/-- What a successful lookup says: the first of all 63 slots that matches. -/
theorem readDentryByName_eq_some {image : Image} {fname : CString} {dentry : Dentry} :
    readDentryByName image fname = .done (some dentry) ↔
      fname.strlen < CHAR_LENGTH ∧
        ∃ index, FirstMatch image fname index ∧ dentry = image.dirEntry index := by
  simp only [readDentryByName]
  split
  · simp only [reduceCtorEq, false_iff]; omega
  · rename_i short
    simp only [Outcome.done.injEq, Option.map_eq_some_iff, findEntry_eq_some]
    constructor
    · rintro ⟨index, ⟨_, bound, found, first⟩, rfl⟩
      exact ⟨by omega, index, ⟨by omega, found, fun j below => first j (Nat.zero_le _) below⟩, rfl⟩
    · rintro ⟨_, index, ⟨bound, found, first⟩, rfl⟩
      exact ⟨index, ⟨Nat.zero_le _, by omega, found, fun j _ below => first j below⟩, rfl⟩

/-- The locals of the copy loop of `read_data`. -/
structure CopyState where
  blockNUM : Nat
  dataPtr : Nat
  dataEnd : Nat
  buf : Nat → Byte

def copyByte (image : Image) (inode i : Nat) (state : CopyState) : CopyState :=
  let buf := Function.update state.buf i (image.byte state.dataPtr)
  if state.dataPtr = state.dataEnd then
    -- the block is used up: look the next one up in the inode
    let blockNUM := state.blockNUM + 1
    let dataPtr := image.blockPtr inode blockNUM
    { blockNUM, dataPtr, dataEnd := wrap (dataPtr + FOUR_KILOBYTES - 1), buf }
  else { state with dataPtr := wrap (state.dataPtr + 1), buf }

def copyLoop (image : Image) (inode : Nat) : (remaining i : Nat) → CopyState → CopyState
  | 0, _, state => state
  | remaining + 1, i, state => copyLoop image inode remaining (i + 1) (copyByte image inode i state)

/-- `buf` is `none` for NULL.  The result is the value returned and the buffer
as the call leaves it. -/
def readData (image : Image) (inode offset : Nat) (buf : Option (Nat → Byte)) (length : Nat) :
    Int × Option (Nat → Byte) :=
  let blockNUM := offset / FOUR_KILOBYTES
  let blockOffset := offset % FOUR_KILOBYTES
  let dataLength := image.inodeLength inode
  if offset = dataLength then (0, buf)
  else
    match buf with
    | none => (-1, none)
    | some bytes =>
        if inode ≥ image.numInode ∨ length = 0 then (-1, some bytes)
        else
          let left := wrap (dataLength + 4294967296 - offset)
          let length := if length ≥ left then left else length
          let dataPtr := wrap (image.blockPtr inode blockNUM + blockOffset)
          let dataEnd := wrap (dataPtr + FOUR_KILOBYTES - blockOffset - 1)
          let final := copyLoop image inode length 0
            { blockNUM, dataPtr, dataEnd, buf := bytes }
          (int32 length, some final.buf)

def openFile (image : Image) (filename : CString) : Outcome Int := do
  match ← readDentryByName image filename with
  | none => return -1
  | some _ => return 0

/-- The header read of `execute`: the value returned and the buffer. -/
def readFileSysHelper (image : Image) (filename : CString) (buf : Nat → Byte) (bytes : Nat) :
    Outcome (Int × (Nat → Byte)) := do
  match ← readDentryByName image filename with
  | none => return (-1, buf)
  | some tempDentry =>
      let (byteRead, after) := readData image tempDentry.inodeNum 0 (some buf) bytes
      let buf := after.getD buf
      if byteRead = -1 then return (-1, buf)
      else if byteRead = 0 then return (int32 (image.inodeLength tempDentry.inodeNum), buf)
      else return (byteRead, buf)

/-- Byte `position` of a file, through its block list. -/
def fileByte (image : Image) (inode position : Nat) : Byte :=
  image.byte (image.blockPtr inode (position / FOUR_KILOBYTES) + position % FOUR_KILOBYTES)

/-- The loop stands at byte `position` of the file. -/
structure PointsAt (image : Image) (inode position : Nat) (state : CopyState) : Prop where
  blockNUM : state.blockNUM = position / FOUR_KILOBYTES
  dataPtr : state.dataPtr =
    image.blockPtr inode (position / FOUR_KILOBYTES) + position % FOUR_KILOBYTES
  dataEnd : state.dataEnd =
    image.blockPtr inode (position / FOUR_KILOBYTES) + (FOUR_KILOBYTES - 1)

theorem copyByte_pointsAt {image : Image} {inode position i : Nat} {state : CopyState}
    (points : PointsAt image inode position state) :
    PointsAt image inode (position + 1) (copyByte image inode i state) ∧
      (copyByte image inode i state).buf =
        Function.update state.buf i (fileByte image inode position) := by
  have inBlock := Nat.mod_lt position (show FOUR_KILOBYTES > 0 by decide)
  have copied : image.byte state.dataPtr = fileByte image inode position := by
    rw [points.dataPtr]; rfl
  obtain ⟨block, blockBound, aligned⟩ := image.blockPtr_aligned inode (position / FOUR_KILOBYTES)
  simp only [copyByte]
  by_cases atEnd : state.dataPtr = state.dataEnd
  · rw [if_pos atEnd]
    have last : position % FOUR_KILOBYTES = FOUR_KILOBYTES - 1 := by
      have same := points.dataPtr.symm.trans (atEnd.trans points.dataEnd)
      omega
    have nextBlock : (position + 1) / FOUR_KILOBYTES = state.blockNUM + 1 := by
      rw [points.blockNUM]; unfold FOUR_KILOBYTES at last ⊢; omega
    have nextStart : (position + 1) % FOUR_KILOBYTES = 0 := by
      simp only [FOUR_KILOBYTES] at last ⊢; omega
    obtain ⟨next, nextBound, nextAligned⟩ := image.blockPtr_aligned inode (state.blockNUM + 1)
    refine ⟨⟨nextBlock.symm, ?_, ?_⟩, by rw [← copied]⟩
    · simp only [nextBlock, nextStart, Nat.add_zero]
    · simp only [nextBlock, nextAligned]
      simp only [FOUR_KILOBYTES]
      rw [wrap_of_lt (by omega)]
      omega
  · rw [if_neg atEnd]
    have notLast : position % FOUR_KILOBYTES ≠ FOUR_KILOBYTES - 1 := by
      intro last
      exact atEnd (by rw [points.dataPtr, points.dataEnd, last])
    have sameBlock : (position + 1) / FOUR_KILOBYTES = position / FOUR_KILOBYTES := by
      simp only [FOUR_KILOBYTES] at notLast ⊢; omega
    have nextByte : (position + 1) % FOUR_KILOBYTES = position % FOUR_KILOBYTES + 1 := by
      simp only [FOUR_KILOBYTES] at notLast ⊢; omega
    refine ⟨⟨?_, ?_, ?_⟩, by rw [← copied]⟩
    · rw [sameBlock]; exact points.blockNUM
    · simp only [sameBlock, nextByte, points.dataPtr, aligned]
      simp only [FOUR_KILOBYTES] at inBlock notLast ⊢
      rw [wrap_of_lt (by omega)]
      omega
    · rw [sameBlock]; exact points.dataEnd

/-- The loop stores the next `remaining` bytes of the file from `buf[i]` on and
no other byte. -/
theorem copyLoop_buf {image : Image} {inode remaining i position : Nat} {state : CopyState}
    (points : PointsAt image inode position state) (j : Nat) :
    (copyLoop image inode remaining i state).buf j =
      if i ≤ j ∧ j < i + remaining then fileByte image inode (position + (j - i))
      else state.buf j := by
  induction remaining generalizing i position state with
  | zero => simp only [copyLoop]; rw [if_neg (by omega)]
  | succ remaining ih =>
      obtain ⟨next, stored⟩ := copyByte_pointsAt (i := i) points
      simp only [copyLoop]
      rw [ih next, stored]
      by_cases first : j = i
      · subst first
        rw [if_neg (by omega), if_pos (by omega), Function.update_self]
        congr 1; omega
      · rw [Function.update_of_ne first]
        by_cases inside : i ≤ j ∧ j < i + (remaining + 1)
        · rw [if_pos (by omega), if_pos inside]
          congr 1; omega
        · rw [if_neg (by omega), if_neg inside]

/-- `read_data` starts its loop at the byte asked for. -/
theorem PointsAt.start (image : Image) (inode offset : Nat) (buf : Nat → Byte) :
    PointsAt image inode offset
      { blockNUM := offset / FOUR_KILOBYTES
        dataPtr := wrap (image.blockPtr inode (offset / FOUR_KILOBYTES) + offset % FOUR_KILOBYTES)
        dataEnd := wrap (wrap (image.blockPtr inode (offset / FOUR_KILOBYTES) +
          offset % FOUR_KILOBYTES) + FOUR_KILOBYTES - offset % FOUR_KILOBYTES - 1)
        buf } := by
  obtain ⟨block, blockBound, aligned⟩ := image.blockPtr_aligned inode (offset / FOUR_KILOBYTES)
  have inBlock := Nat.mod_lt offset (show FOUR_KILOBYTES > 0 by decide)
  have start : wrap (image.blockPtr inode (offset / FOUR_KILOBYTES) + offset % FOUR_KILOBYTES) =
      image.blockPtr inode (offset / FOUR_KILOBYTES) + offset % FOUR_KILOBYTES := by
    rw [aligned]; unfold FOUR_KILOBYTES at inBlock ⊢; exact wrap_of_lt (by omega)
  refine ⟨rfl, start, ?_⟩
  simp only [start]
  rw [aligned]
  simp only [FOUR_KILOBYTES] at inBlock ⊢
  rw [wrap_of_lt (by omega)]
  omega

/-- The bytes that `read_data` finds between a position and the end of a file. -/
def bytesLeft (image : Image) (inode offset : Nat) : Nat :=
  wrap (image.inodeLength inode + 4294967296 - offset)

/-- What `read_data` copies: the bytes left or asked for, and no other byte of
the buffer. -/
theorem readData_copies {image : Image} {inode offset length : Nat} {buf : Nat → Byte}
    (valid : inode < image.numInode) (elsewhere : offset ≠ image.inodeLength inode)
    (positive : 0 < length) :
    readData image inode offset (some buf) length =
      (int32 (min length (bytesLeft image inode offset)),
        some fun j => if j < min length (bytesLeft image inode offset)
          then fileByte image inode (offset + j) else buf j) := by
  have clamped : (if length ≥ bytesLeft image inode offset then bytesLeft image inode offset
      else length) = min length (bytesLeft image inode offset) := by
    split <;> omega
  unfold bytesLeft at clamped ⊢
  simp only [readData]
  rw [if_neg elsewhere, if_neg (by omega), clamped]
  refine Prod.ext rfl (congrArg some (funext fun j => ?_))
  rw [copyLoop_buf (PointsAt.start image inode offset buf) j]
  simp only [Nat.zero_le, true_and, Nat.zero_add, Nat.sub_zero]

theorem bytesLeft_inside {image : Image} {inode offset : Nat}
    (inside : offset ≤ image.inodeLength inode) :
    bytesLeft image inode offset = image.inodeLength inode - offset := by
  have bound := image.inodeLength_lt inode
  simp only [bytesLeft, wrap]
  omega

/-- `read_data` inside a file: it returns the number of bytes left or asked
for, stores exactly those, and leaves the rest of the buffer. -/
theorem readData_inside {image : Image} {inode offset length : Nat} {buf : Nat → Byte}
    (valid : inode < image.numInode) (inside : offset < image.inodeLength inode)
    (positive : 0 < length) :
    readData image inode offset (some buf) length =
      (int32 (min length (image.inodeLength inode - offset)),
        some fun j => if j < min length (image.inodeLength inode - offset)
          then fileByte image inode (offset + j) else buf j) := by
  rw [← bytesLeft_inside (Nat.le_of_lt inside)]
  exact readData_copies valid (by omega) positive

/-- Reading a file from its start to its end. -/
theorem readData_whole {image : Image} {inode : Nat} (buf : Nat → Byte)
    (valid : inode < image.numInode) (nonempty : 0 < image.inodeLength inode) :
    readData image inode 0 (some buf) (image.inodeLength inode) =
      (int32 (image.inodeLength inode),
        some fun j => if j < image.inodeLength inode then fileByte image inode j else buf j) := by
  rw [readData_inside valid nonempty nonempty]
  simp only [Nat.sub_zero, Nat.min_self, Nat.zero_add]

theorem readData_atEnd {image : Image} {inode length : Nat} {buf : Option (Nat → Byte)} :
    readData image inode (image.inodeLength inode) buf length = (0, buf) := by
  simp [readData]

/-- The string "shell" of kernel.c and terminal.c. -/
def shellCommand : CString := ⟨[115, 104, 101, 108, 108], by simp⟩

/-- One directory entry, one inode, one data block: a shell of 40 bytes. -/
def shellImage : Image where
  byte offset :=
    if offset = 0 ∨ offset = 4 ∨ offset = 8 then 1
    else if 64 ≤ offset ∧ offset < 96 then shellCommand.char (offset - 64)
    else if offset = 96 then 2
    else if offset = 4096 then 40
    else if offset = 8192 then 0x7f
    else if offset = 8193 then 0x45
    else if offset = 8194 then 0x4c
    else if offset = 8195 then 0x46
    else if offset = 8217 then 0x80
    else if offset = 8218 then 0x04
    else if offset = 8219 then 0x08
    else 0

end Ece391
