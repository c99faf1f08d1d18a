import Ece391.Library.StringMoves

namespace Ece391

open Library Library.Assembly

/-! # memmove, memset_word and memset_dword (lib.c) -/

/-- `.memmove_go` -/
inductive MoveLabel where
  | go
deriving DecidableEq

open StringMoves.Line in
def memmoveCode : List (StringMoves.Line MoveLabel) :=
  [plain (.movwFromDs .edx),
    plain (.movwToEs .edx),
    plain .cld,
    cmp .edi .esi,
    jae .go,
    leal (-1) .esi .ecx .esi,
    leal (-1) .edi .ecx .edi,
    std,
    label .go,
    repMovsb]

open StringMoves.Line in
/-- Both routines up to their string instruction. -/
def fillCode (fill : StringMoves.Line Empty) : List (StringMoves.Line Empty) :=
  [plain (.movwFromDs .edx), plain (.movwToEs .edx), plain .cld, fill]

def memsetWordCode : List (StringMoves.Line Empty) := fillCode .repStosw

def memsetDwordCode : List (StringMoves.Line Empty) := fillCode (.plain .repStosl)

def memmoveEntry (s : StringMoves.State) (dest src n : BitVec 32) : StringMoves.State :=
  { s with edi := dest, esi := src, ecx := n, eip := 0 }

def fillEntry (s : StringMoves.State) (start c n : BitVec 32) : StringMoves.State :=
  { s with eax := c, edi := start, ecx := n, eip := 0 }

/-- The last line is behind, with that in memory. -/
structure ReturnsWith {Label : Type} [DecidableEq Label] (code : List (StringMoves.Line Label))
    (entry : StringMoves.State) (memory : Bytes) (df : Bool) : Prop where
  returns : ∃ final, StringMoves.Reaches code entry final ∧ final.eip = code.length ∧
    final.memory = memory ∧ final.df = df

variable {dest src n : BitVec 32} {s : StringMoves.State}

/-- What a C object promises: its bytes do not go around the end of memory. -/
def WithoutWrap (start n : BitVec 32) : Prop := start.toNat + n.toNat ≤ 2 ^ 32

theorem address_toNat {start : BitVec 32} (fits : WithoutWrap start n) {i : Nat}
    (inside : i < n.toNat) : (start + BitVec.ofNat 32 i).toNat = start.toNat + i := by
  rw [WithoutWrap] at fits
  rw [BitVec.toNat_add, BitVec.toNat_ofNat]
  omega

/-- The state after the first three lines of all routines. -/
def afterCld (entry : StringMoves.State) : StringMoves.State :=
  let edx := Processor.low entry.edx entry.ds
  { entry with edx, es := edx.extractLsb' 0 16, df := false, eip := entry.eip + 3 }

theorem reaches_afterCld {Label : Type} [DecidableEq Label] {code : List (StringMoves.Line Label)}
    {entry : StringMoves.State} (first : code[entry.eip]? = some (.plain (.movwFromDs .edx)))
    (second : code[entry.eip + 1]? = some (.plain (.movwToEs .edx)))
    (third : code[entry.eip + 2]? = some (.plain .cld)) :
    StringMoves.Reaches code entry (afterCld entry) := by
  refine StringMoves.Reaches.trans (StringMoves.Reaches.line first rfl) ?_
  refine StringMoves.Reaches.trans (StringMoves.Reaches.line second rfl) ?_
  exact StringMoves.Reaches.line third rfl

/-- The state at the string instruction of `memmove`. -/
structure AtMove (s : StringMoves.State) (n edi esi : BitVec 32) (df : Bool)
    (reached : StringMoves.State) : Prop where
  eip : reached.eip = 9
  ecx : reached.ecx = n
  edi : reached.edi = edi
  esi : reached.esi = esi
  df : reached.df = df
  memory : reached.memory = s.memory

theorem memmove_chooses (s : StringMoves.State) (dest src n : BitVec 32) : ∃ reached,
    StringMoves.Reaches memmoveCode (memmoveEntry s dest src n) reached ∧
      if src.toNat < dest.toNat then AtMove s n (dest + n + -1) (src + n + -1) true reached
      else AtMove s n dest src false reached := by
  let begun := afterCld (memmoveEntry s dest src n)
  have beginning : StringMoves.Reaches memmoveCode (memmoveEntry s dest src n) begun :=
    reaches_afterCld rfl rfl rfl
  let compared : StringMoves.State :=
    { begun with zf := src = dest, cf := decide (src.toNat < dest.toNat), eip := 4 }
  have compares : StringMoves.Reaches memmoveCode begun compared :=
    StringMoves.Reaches.line rfl rfl
  by_cases below : src.toNat < dest.toNat
  · have carry : compared.cf = true := decide_eq_true below
    have stays : StringMoves.execute memmoveCode compared (.jae .go) =
        some { compared with eip := 5 } := by
      rw [StringMoves.execute, if_pos carry]
    have passes : StringMoves.Reaches memmoveCode compared { compared with eip := 5 } :=
      StringMoves.Reaches.line rfl stays
    let turned : StringMoves.State :=
      { compared with esi := src + n + -1, edi := dest + n + -1, df := true, eip := 9 }
    have turns : StringMoves.Reaches memmoveCode { compared with eip := 5 } turned := by
      refine StringMoves.Reaches.trans (StringMoves.Reaches.line rfl rfl) ?_
      refine StringMoves.Reaches.trans (StringMoves.Reaches.line rfl rfl) ?_
      refine StringMoves.Reaches.trans (StringMoves.Reaches.line rfl rfl) ?_
      exact StringMoves.Reaches.line rfl rfl
    refine ⟨turned, beginning.trans (compares.trans (passes.trans turns)), ?_⟩
    rw [if_pos below]
    exact ⟨rfl, rfl, rfl, rfl, rfl, rfl⟩
  · have noCarry : ¬ compared.cf = true := by
      change ¬ decide (src.toNat < dest.toNat) = true
      rw [decide_eq_true_eq]
      exact below
    have jumps : StringMoves.execute memmoveCode compared (.jae .go) =
        some { compared with eip := 8 } := by
      rw [StringMoves.execute, if_neg noCarry]
      rfl
    have goes : StringMoves.Reaches memmoveCode compared { compared with eip := 8 } :=
      StringMoves.Reaches.line rfl jumps
    have behind : StringMoves.Reaches memmoveCode { compared with eip := 8 }
        { compared with eip := 9 } := StringMoves.Reaches.line rfl rfl
    refine ⟨_, beginning.trans (compares.trans (goes.trans behind)), ?_⟩
    rw [if_neg below]
    exact ⟨rfl, rfl, rfl, rfl, rfl, rfl⟩

/-- Every overlap is moved right; a move to higher addresses leaves the direction flag set. -/
theorem memmove_moves (s : StringMoves.State) (fits : WithoutWrap dest n)
    (fitsSource : WithoutWrap src n) :
    ReturnsWith memmoveCode (memmoveEntry s dest src n) (StringMoves.moved s.memory dest src n.toNat)
      (decide (src.toNat < dest.toNat)) := by
  obtain ⟨reached, reaches, atMove⟩ := memmove_chooses s dest src n
  by_cases below : src.toNat < dest.toNat
  · rw [if_pos below] at atMove
    have unread : ∀ j < n.toNat, ∀ i < j,
        dest + BitVec.ofNat 32 j ≠ src + BitVec.ofNat 32 i := by
      intro j inside i before same
      have addresses := congrArg BitVec.toNat same
      rw [address_toNat fits inside, address_toNat fitsSource (by omega)] at addresses
      omega
    have here : memmoveCode[reached.eip]? = some .repMovsb := by
      rw [atMove.eip]
      rfl
    have edi : reached.edi + 1 = dest + reached.ecx := by
      rw [atMove.edi, atMove.ecx, StringMoves.back_and_forth]
    have esi : reached.esi + 1 = src + reached.ecx := by
      rw [atMove.esi, atMove.ecx, StringMoves.back_and_forth]
    have memory : reached.memory =
        StringMoves.movedFrom s.memory dest src reached.ecx.toNat 0 := by
      rw [atMove.memory, StringMoves.movedFrom, StringMoves.moved, transfer_zero]
    obtain ⟨final, moves, ends, flag, moved⟩ := StringMoves.Reaches.downwards here atMove.df unread
      (by rw [atMove.ecx]; rfl) edi esi memory
    refine ⟨final, reaches.trans moves, ?_, moved, ?_⟩
    · rw [ends, atMove.eip]
      rfl
    · rw [flag, atMove.df, decide_eq_true below]
  · rw [if_neg below] at atMove
    have unread : ∀ i < n.toNat, ∀ j < i,
        dest + BitVec.ofNat 32 j ≠ src + BitVec.ofNat 32 i := by
      intro i inside j before same
      have addresses := congrArg BitVec.toNat same
      rw [address_toNat fits (by omega), address_toNat fitsSource inside] at addresses
      omega
    have here : memmoveCode[reached.eip]? = some .repMovsb := by
      rw [atMove.eip]
      rfl
    have memory : reached.memory = StringMoves.moved s.memory dest src 0 := by
      rw [atMove.memory, StringMoves.moved, transfer_zero]
    obtain ⟨final, moves, ends, flag, moved⟩ := StringMoves.Reaches.upwards here atMove.df unread
      (Nat.le_of_lt n.isLt) (by rw [atMove.ecx]; rfl)
      (by rw [atMove.edi]; exact (BitVec.add_zero dest).symm)
      (by rw [atMove.esi]; exact (BitVec.add_zero src).symm) memory
    refine ⟨final, reaches.trans moves, ?_, moved, ?_⟩
    · rw [ends, atMove.eip]
      rfl
    · rw [flag, atMove.df, decide_eq_false below]

variable {start c : BitVec 32}

theorem memsetWord_fills (s : StringMoves.State) (bounded : 2 * n.toNat ≤ 2 ^ 32) :
    ReturnsWith memsetWordCode (fillEntry s start c n)
      (transfer (StringMoves.repeated 2 c) s.memory start (2 * n.toNat)) false := by
  have beginning : StringMoves.Reaches memsetWordCode (fillEntry s start c n)
      (afterCld (fillEntry s start c n)) := reaches_afterCld rfl rfl rfl
  have here : memsetWordCode[(afterCld (fillEntry s start c n)).eip]? = some .repStosw := rfl
  obtain ⟨final, fills, ends, flag, filled⟩ := StringMoves.Reaches.stosw here rfl bounded
    (Nat.add_zero _) (BitVec.add_zero start).symm transfer_zero.symm
  exact ⟨final, beginning.trans fills, ends, filled, flag⟩

theorem memsetDword_fills (s : StringMoves.State) (bounded : 4 * n.toNat ≤ 2 ^ 32) :
    ReturnsWith memsetDwordCode (fillEntry s start c n)
      (transfer (StringMoves.repeated 4 c) s.memory start (4 * n.toNat)) false := by
  have beginning : StringMoves.Reaches memsetDwordCode (fillEntry s start c n)
      (afterCld (fillEntry s start c n)) := reaches_afterCld rfl rfl rfl
  have here : memsetDwordCode[(afterCld (fillEntry s start c n)).eip]? = some (.plain .repStosl) := rfl
  obtain ⟨final, fills, ends, flag, filled⟩ := StringMoves.Reaches.stosl here rfl bounded
    (Nat.add_zero _) (BitVec.add_zero start).symm transfer_zero.symm
  exact ⟨final, beginning.trans fills, ends, filled, flag⟩

/-- The three routines return whatever they are called with; `memmove` on blocks that overlap in
either way. -/
theorem move_routines (s : StringMoves.State) :
    (∀ dest src n, WithoutWrap dest n → WithoutWrap src n →
      ReturnsWith memmoveCode (memmoveEntry s dest src n)
        (transfer (fun offset => s.memory (src + offset)) s.memory dest n.toNat)
        (decide (src.toNat < dest.toNat))) ∧
      (∀ start c n : BitVec 32, 2 * n.toNat ≤ 2 ^ 32 →
        ReturnsWith memsetWordCode (fillEntry s start c n)
          (transfer (StringMoves.repeated 2 c) s.memory start (2 * n.toNat)) false) ∧
      ∀ start c n : BitVec 32, 4 * n.toNat ≤ 2 ^ 32 →
        ReturnsWith memsetDwordCode (fillEntry s start c n)
          (transfer (StringMoves.repeated 4 c) s.memory start (4 * n.toNat)) false :=
  ⟨fun _ _ _ fits fitsSource => memmove_moves s fits fitsSource,
    fun _ _ _ bounded => memsetWord_fills s bounded,
    fun _ _ _ bounded => memsetDword_fills s bounded⟩

/-- Every address is in its own byte. -/
def countingState : StringMoves.State where
  eax := 0
  ecx := 0
  edx := 0
  esi := 0
  edi := 0
  ds := 0x18
  es := 0x18
  zf := false
  df := false
  eip := 0
  memory address := address.setWidth 8
  cf := false

/-- A block is moved one byte up. -/
theorem move_routines_overlap : ∃ final,
    StringMoves.Reaches memmoveCode (memmoveEntry countingState 101 100 5) final ∧
      final.memory 105 = 104 ∧ final.df = true := by
  obtain ⟨final, reached, _, memory, flag⟩ := ((move_routines countingState).1 101 100 5
    (by rw [WithoutWrap]; decide) (by rw [WithoutWrap]; decide)).returns
  refine ⟨final, reached, ?_, flag⟩
  rw [memory]
  decide

end Ece391
