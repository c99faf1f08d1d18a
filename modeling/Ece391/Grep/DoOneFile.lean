import Ece391.Lib
import Mathlib.Logic.Function.Basic

namespace Ece391

/-! # do_one_file of grep

The functions are those of ece391grep.c and ece391support.c.  `read` stores the
bytes that are left, as many as it is asked for, and never fails.
-/

def BUFSIZE : Nat := 1024

/-- The loop of `ece391_strncmp` from index `i`, with `n` bytes to compare. -/
def ece391StrncmpFrom (s1 s2 : Nat → Byte) : (n i : Nat) → Int
  | 0, _ => 0
  | n + 1, i =>
      if s1 i = s2 i then
        if s1 i = 0 ∨ n = 0 then 0 else ece391StrncmpFrom s1 s2 n (i + 1)
      else (s1 i).toNat - (s2 i).toNat

def ece391Strncmp (s1 s2 : Nat → Byte) (n : Nat) : Int := ece391StrncmpFrom s1 s2 n 0

/-- `ece391_strcpy` within one array; `none` is a copy that runs past its end. -/
def ece391Strcpy (dst src : Nat) : (room : Nat) → (data : Nat → Byte) → Option (Nat → Byte)
  | 0, _ => none
  | room + 1, data =>
      let copied := Function.update data dst (data src)
      if data src = 0 then some copied else ece391Strcpy (dst + 1) (src + 1) room copied

namespace Grep

/-- The array `data`, the number of bytes in it, and what was written to the
terminal. -/
structure Progress where
  data : Nat → Byte
  last : Nat
  out : List Byte

def fileOpenFailed : List Byte :=
  [102, 105, 108, 101, 32, 111, 112, 101, 110, 32, 102, 97, 105, 108, 101, 100, 10]

def fileCloseFailed : List Byte :=
  [102, 105, 108, 101, 32, 99, 108, 111, 115, 101, 32, 102, 97, 105, 108, 101, 100, 10]

/-- The first newline from `lineEnd` on, or the end of the bytes. -/
def lineEndFrom (data : Nat → Byte) : (remaining lineEnd : Nat) → Nat
  | 0, lineEnd => lineEnd
  | remaining + 1, lineEnd =>
      if data lineEnd ≠ 10 then lineEndFrom data remaining (lineEnd + 1) else lineEnd

/-- The search of a line from `check` on.  The pattern is of `char`, which is signed, and
the buffer of `uint8_t`. -/
def matchFrom (s : CString) (data : Nat → Byte) : (remaining check : Nat) → Bool
  | 0, _ => false
  | remaining + 1, check =>
      if (s.char 0).toInt8.toInt = ((data check).toNat : Int) ∧
          ece391Strncmp (fun i => data (check + i)) s.char s.strlen = 0 then true
      else matchFrom s data remaining (check + 1)

/-- What is printed for a line. -/
def report (fname : CString) (line : List Byte) : List Byte := fname.bytes ++ [58] ++ line ++ [10]

/-- A line that is searched, and printed if the pattern is found. -/
def searchLine (s fname : CString) (lineStart lineEnd : Nat) (progress : Progress) :
    Option Progress :=
  if matchFrom s progress.data (lineEnd - lineStart) lineStart then
    (stringAt progress.data (BUFSIZE + 1 - lineStart) lineStart).map fun line =>
      { progress with out := progress.out ++ report fname line.bytes }
  else some progress

/-- The loop over the lines in the buffer. -/
def lineLoop (s fname : CString) (cnt : Nat) :
    (fuel lineStart : Nat) → Progress → Option Progress
  | 0, _, _ => none
  | fuel + 1, lineStart, progress =>
      let lineEnd := lineEndFrom progress.data (progress.last - lineStart) lineStart
      let ended := { progress with data := Function.update progress.data lineEnd 0 }
      if progress.data lineEnd ≠ 10 ∧ 0 ≠ cnt ∧ lineStart ≠ 0 then
        (ece391Strcpy 0 lineStart (BUFSIZE + 1 - lineStart) ended.data).map fun data =>
          { ended with data, last := progress.last - lineStart }
      else
        (searchLine s fname lineStart lineEnd ended).bind fun searched =>
          if progress.last ≤ lineEnd + 1 then some { searched with last := 0 }
          else lineLoop s fname cnt fuel (lineEnd + 1) searched

/-- The bytes of a read behind those that are in the buffer. -/
def storeRead (data : Nat → Byte) (last : Nat) (bytes : List Byte) : Nat → Byte :=
  fun i => if last ≤ i ∧ i < last + bytes.length then bytes.getD (i - last) 0 else data i

def Progress.fill (progress : Progress) (bytes : List Byte) : Progress :=
  { progress with
    data := storeRead progress.data progress.last bytes
    last := progress.last + bytes.length }

/-- The loop over the reads; a read of no bytes is the last one. -/
def readLoop (s fname : CString) : (fuel : Nat) → (rest : List Byte) → Progress → Option Progress
  | 0, _, _ => none
  | fuel + 1, rest, progress =>
      let got := rest.take (BUFSIZE - progress.last)
      let filled := progress.fill got
      (lineLoop s fname got.length (filled.last + 1) 0 filled).bind fun searched =>
        if got.length = 0 then some searched
        else readLoop s fname fuel (rest.drop (BUFSIZE - progress.last)) searched

/-- The value returned and the bytes written, with the values of `open` and
`close` and the initial contents of the array. -/
def doOneFile (s fname : CString) (fd closed : Int) (data : Nat → Byte) (file : List Byte) :
    Option (Int × List Byte) :=
  if fd = -1 then some (-1, fileOpenFailed)
  else
    (readLoop s fname (file.length + 1) file ⟨data, 0, []⟩).map fun progress =>
      if closed = -1 then (-1, progress.out ++ fileCloseFailed) else (0, progress.out)

end Grep

end Ece391
