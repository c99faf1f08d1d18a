import Mathlib.Algebra.Group.Nat.Defs
import Ece391.Kernel

namespace Ece391

/-! # getargs and vidmap (systemcall.c) -/

def ARGUMENT_LEN : Nat := 128

/-- The value returned and the bytes at `buf`. -/
def Kernel.getargs (kernel : Kernel) (buf : Nat → Byte) (nbytes : Int) :
    Outcome (Int × (Nat → Byte)) := do
  let curProgramid ← findProgramid kernel.cr3
  match stringAt (kernel.pcb curProgramid).argument ARGUMENT_LEN 0 with
  | none => .outOfBounds
  | some argument =>
      if nbytes < argument.strlen + 1 then return (-1, buf)
      else return (0, strcpy buf argument)

/-- `video_mem` of systemcall.h. -/
def VIDEO_MEM : Nat := 0xB8000

/-- `buf` holds the bytes at `screenStart`, where the address is stored
little-endian. -/
def vidmap (screenStart : Nat) (buf : Nat → Byte) : Int × (Nat → Byte) :=
  if screenStart = 0 ∨ screenStart = 0x400000 then (-1, buf)
  else (VIDEO_MEM, fun i => if i < 4 then UInt8.ofNat (VIDEO_MEM / 256 ^ i) else buf i)

end Ece391
