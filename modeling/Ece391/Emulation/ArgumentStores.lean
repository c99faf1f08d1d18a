import Ece391.Emulation.Arguments

namespace Ece391

open Library

namespace Emulation

/-! # Where ece391_getargs stores (ece391emulate.c) -/

/-- The strings at `argv`, each of which lies inside the address space. -/
structure ArgumentVector where
  strings : List CString
  addressed : ∀ string ∈ strings, string.strlen < 4294967296

/-- The value returned, `buf` afterwards, and every index of it stored at. -/
structure Getargs where
  value : Int
  buf : Nat → Byte
  stores : List Nat

/-- What follows the loop, `buf` having moved by `offset`. -/
def endStores (buf : Nat → Byte) (offset : Nat) (nbytes : Word) (stores : List Nat) : Getargs :=
  if nbytes.slt 1 then { value := -1, buf, stores }
  else { value := 0, buf := Function.update buf offset 0, stores := stores ++ [offset] }

/-- The loop over the rest of `argv`, where `len` and `nbytes` are `int32_t`. -/
def storesLoop : List CString → (buf : Nat → Byte) → (offset : Nat) → (nbytes : Word) →
    (stores : List Nat) → Getargs
  | [], buf, offset, nbytes, stores => endStores buf offset nbytes stores
  | argument :: rest, buf, offset, nbytes, stores =>
      let len : Word := BitVec.ofNat 32 argument.strlen
      if nbytes.slt len then { value := -1, buf, stores }
      else
        let stores := stores ++ (strcpyStores argument).map (offset + ·)
        let buf := strcpyAt buf offset argument
        let offset := offset + argument.strlen
        let nbytes := nbytes - len
        if rest.isEmpty then endStores buf offset nbytes stores
        else if nbytes.slt 1 then { value := -1, buf, stores }
        else storesLoop rest (Function.update buf offset 32) (offset + 1) (nbytes - 1)
          (stores ++ [offset])

def getargsStores (argv : ArgumentVector) (buf : Nat → Byte) (nbytes : Word) : Getargs :=
  storesLoop argv.strings.tail buf 0 nbytes []

/-- The arguments with one space between two of them. -/
def joined (arguments : List CString) : List Byte := [32].intercalate (arguments.map CString.bytes)

variable {argument : CString} {arguments rest : List CString} {buf : Nat → Byte}
  {offset room : Nat} {stores : List Nat} {i : Nat}

theorem joined_cons (nonempty : rest ≠ []) :
    joined (argument :: rest) = argument.bytes ++ [32] ++ joined rest := by
  obtain ⟨second, others, rfl⟩ := List.exists_cons_of_ne_nil nonempty
  rw [joined, List.map_cons, List.map_cons, List.intercalate_cons_cons]
  rfl

theorem joined_cons_length (nonempty : rest ≠ []) :
    (joined (argument :: rest)).length = argument.strlen + 1 + (joined rest).length := by
  rw [joined_cons nonempty, List.length_append, List.length_append]
  rfl

theorem joined_single : joined [argument] = argument.bytes := by
  rw [joined, List.map_singleton, List.intercalate_singleton]

theorem strlen_le_joined : argument.strlen ≤ (joined (argument :: rest)).length := by
  by_cases single : rest = []
  · rw [single, joined_single]
    exact Nat.le_refl _
  · rw [joined_cons_length single]
    omega

theorem toInt_ofNat_small {value : Nat} (small : value < 2147483648) :
    (BitVec.ofNat 32 value).toInt = value := by
  rw [BitVec.toInt_eq_toNat_cond, BitVec.toNat_ofNat]
  have kept : value % 2 ^ 32 = value := Nat.mod_eq_of_lt (by omega)
  rw [kept, if_pos (by omega)]

theorem toInt_ofNat_large {value : Nat} (large : 2147483648 ≤ value) (word : value < 4294967296) :
    (BitVec.ofNat 32 value).toInt = value - 4294967296 := by
  rw [BitVec.toInt_eq_toNat_cond, BitVec.toNat_ofNat]
  have kept : value % 2 ^ 32 = value := Nat.mod_eq_of_lt word
  rw [kept, if_neg (by omega)]
  rfl

theorem slt_ofNat {left right : Nat} (smallLeft : left < 2147483648)
    (smallRight : right < 2147483648) :
    (BitVec.ofNat 32 left).slt (BitVec.ofNat 32 right) = decide (left < right) := by
  rw [BitVec.slt, toInt_ofNat_small smallLeft, toInt_ofNat_small smallRight]
  simp

theorem sub_ofNat {left right : Nat} (less : right ≤ left) (small : left < 2147483648) :
    BitVec.ofNat 32 left - BitVec.ofNat 32 right = BitVec.ofNat 32 (left - right) :=
  BitVec.ofNat_sub_ofNat_of_le left right (by omega) less

theorem room_slt_one (small : room < 2147483648) :
    (BitVec.ofNat 32 room).slt 1 = decide (room < 1) :=
  slt_ofNat small (by decide)

/-- Some first arguments, joined, have exactly the length of the room. -/
def FitsExactly (arguments : List CString) (room : Nat) : Prop :=
  ∃ front argument back, arguments = front ++ argument :: back ∧
    (joined (front ++ [argument])).length = room

/-- An argument that the loop comes to has a length that is no `int32_t`. -/
def LengthOverflows (arguments : List CString) (room : Nat) : Prop :=
  ∃ front argument back, arguments = front ++ argument :: back ∧
    (front = [] ∨ (joined front).length < room) ∧ 2147483648 ≤ argument.strlen

/-- Every argument the loop comes to leaves room or does not fit. -/
def LeavesRoom : List CString → (room : Nat) → Prop
  | [], _ => True
  | argument :: rest, room =>
      argument.strlen ≠ room ∧ argument.strlen < 2147483648 ∧
        (argument.strlen < room → rest ≠ [] → LeavesRoom rest (room - argument.strlen - 1))

theorem not_fitsExactly_nil : ¬ FitsExactly [] room := by
  rintro ⟨front, _, _, split, _⟩
  exact List.append_ne_nil_of_right_ne_nil front (List.cons_ne_nil _ _) split.symm

theorem not_lengthOverflows_nil : ¬ LengthOverflows [] room := by
  rintro ⟨front, _, _, split, _⟩
  exact List.append_ne_nil_of_right_ne_nil front (List.cons_ne_nil _ _) split.symm

theorem fitsExactly_cons : FitsExactly (argument :: rest) room ↔
    argument.strlen = room ∨
      argument.strlen < room ∧ FitsExactly rest (room - argument.strlen - 1) := by
  constructor
  · rintro ⟨front, last, back, split, length⟩
    cases front with
    | nil =>
        cases split
        rw [List.nil_append, joined_single] at length
        exact .inl length
    | cons first front =>
        cases split
        rw [List.cons_append, joined_cons_length (by simp)] at length
        exact .inr ⟨by omega, front, last, back, rfl, by omega⟩
  · rintro (same | ⟨less, front, last, back, rfl, length⟩)
    · refine ⟨[], argument, rest, rfl, ?_⟩
      rw [List.nil_append, joined_single]
      exact same
    · refine ⟨argument :: front, last, back, rfl, ?_⟩
      rw [List.cons_append, joined_cons_length (by simp)]
      omega

theorem lengthOverflows_cons : LengthOverflows (argument :: rest) room ↔
    2147483648 ≤ argument.strlen ∨
      argument.strlen < room ∧ LengthOverflows rest (room - argument.strlen - 1) := by
  constructor
  · rintro ⟨front, last, back, split, reached, long⟩
    cases front with
    | nil =>
        cases split
        exact .inl long
    | cons first front =>
        cases split
        have length := reached.resolve_left (by simp)
        refine .inr ⟨Nat.lt_of_le_of_lt strlen_le_joined length, front, last, back, rfl, ?_, long⟩
        by_cases single : front = []
        · exact .inl single
        · rw [joined_cons_length single] at length
          exact .inr (by omega)
  · rintro (long | ⟨less, front, last, back, rfl, reached, long⟩)
    · exact ⟨[], argument, rest, rfl, .inl rfl, long⟩
    · refine ⟨argument :: front, last, back, rfl, .inr ?_, long⟩
      by_cases single : front = []
      · rw [single, joined_single]
        exact less
      · rw [joined_cons_length single]
        have length := reached.resolve_left single
        omega

theorem leavesRoom_iff : LeavesRoom arguments room ↔
    ¬ FitsExactly arguments room ∧ ¬ LengthOverflows arguments room := by
  induction arguments generalizing room with
  | nil => exact ⟨fun _ => ⟨not_fitsExactly_nil, not_lengthOverflows_nil⟩, fun _ => trivial⟩
  | cons argument rest ih =>
      rw [LeavesRoom, fitsExactly_cons, lengthOverflows_cons]
      constructor
      · rintro ⟨inexact, short, onwards⟩
        have later : argument.strlen < room → LeavesRoom rest (room - argument.strlen - 1) := by
          intro less
          cases rest with
          | nil => trivial
          | cons => exact onwards less (List.cons_ne_nil _ _)
        refine ⟨not_or.mpr ⟨inexact, ?_⟩, not_or.mpr ⟨by omega, ?_⟩⟩
        · exact fun fits => (ih.mp (later fits.1)).1 fits.2
        · exact fun overflows => (ih.mp (later overflows.1)).2 overflows.2
      · rintro ⟨inexact, short⟩
        obtain ⟨different, inexactLater⟩ := not_or.mp inexact
        obtain ⟨small, shortLater⟩ := not_or.mp short
        refine ⟨different, by omega, fun less _ => ih.mpr ⟨?_, ?_⟩⟩
        · exact fun fits => inexactLater ⟨less, fits⟩
        · exact fun overflows => shortLater ⟨less, overflows⟩

theorem endStores_eq (small : room < 2147483648) :
    endStores buf offset (BitVec.ofNat 32 room) stores =
      if room < 1 then { value := -1, buf, stores }
      else { value := 0, buf := Function.update buf offset 0, stores := stores ++ [offset] } := by
  rw [endStores, room_slt_one small]
  by_cases none : room < 1 <;> simp [none]

theorem forall_mem_concat {holds : Nat → Prop} :
    (∀ i ∈ stores ++ [offset], holds i) ↔ (∀ i ∈ stores, holds i) ∧ holds offset := by
  rw [List.forall_mem_append, List.forall_mem_singleton]

/-- Everything known of the stores of one argument. -/
theorem mem_argumentStores :
    i ∈ stores ++ (strcpyStores argument).map (offset + ·) ↔
      i ∈ stores ∨ offset ≤ i ∧ i ≤ offset + argument.strlen := by
  rw [List.mem_append, List.mem_map]
  refine or_congr_right ⟨?_, fun inside => ?_⟩
  · rintro ⟨index, member, rfl⟩
    have below := List.mem_range.mp member
    omega
  · exact ⟨i - offset, List.mem_range.mpr (by omega), by omega⟩

theorem storesLoop_refuses (small : room < 2147483648) (short : argument.strlen < 2147483648)
    (large : room < argument.strlen) :
    storesLoop (argument :: rest) buf offset (BitVec.ofNat 32 room) stores =
      { value := -1, buf, stores } := by
  rw [storesLoop]
  simp only [slt_ofNat small short, large, decide_true, if_true]

theorem storesLoop_last (small : room < 2147483648) (fits : argument.strlen ≤ room) :
    storesLoop [argument] buf offset (BitVec.ofNat 32 room) stores =
      endStores (strcpyAt buf offset argument) (offset + argument.strlen)
        (BitVec.ofNat 32 (room - argument.strlen))
        (stores ++ (strcpyStores argument).map (offset + ·)) := by
  have less : ¬ room < argument.strlen := by omega
  rw [storesLoop]
  simp only [slt_ofNat small (Nat.lt_of_le_of_lt fits small), less, decide_false,
    Bool.false_eq_true, if_false, sub_ofNat fits small]
  rfl

theorem storesLoop_next (small : room < 2147483648) (fits : argument.strlen < room)
    (more : rest ≠ []) :
    storesLoop (argument :: rest) buf offset (BitVec.ofNat 32 room) stores =
      storesLoop rest
        (Function.update (strcpyAt buf offset argument) (offset + argument.strlen) 32)
        (offset + argument.strlen + 1) (BitVec.ofNat 32 (room - argument.strlen - 1))
        (stores ++ (strcpyStores argument).map (offset + ·) ++ [offset + argument.strlen]) := by
  have less : ¬ room < argument.strlen := by omega
  have left : ¬ room - argument.strlen < 1 := by omega
  have one : (1 : Word) = BitVec.ofNat 32 1 := rfl
  have notEmpty : rest.isEmpty = false := by simpa using more
  rw [storesLoop]
  simp only [slt_ofNat small (Nat.lt_trans fits small), less, decide_false, Bool.false_eq_true,
    if_false, sub_ofNat (Nat.le_of_lt fits) small, notEmpty]
  rw [room_slt_one (by omega), if_neg (by simpa using left), one, sub_ofNat (by omega) (by omega)]

/-- Where room is left, the result is that of the loop with unbounded integers
and every store lies inside the buffer. -/
theorem storesLoop_inside {limit : Nat} (buf : Nat → Byte) (whole : offset + room = limit)
    (small : room < 2147483648) (leaves : LeavesRoom arguments room)
    (inside : ∀ i ∈ stores, i < limit) :
    ∃ value after all, storesLoop arguments buf offset (BitVec.ofNat 32 room) stores =
        { value, buf := after, stores := all } ∧
      getargsLoop arguments buf offset room = (value, after) ∧ ∀ i ∈ all, i < limit := by
  induction arguments generalizing buf offset room stores with
  | nil =>
      rw [storesLoop, endStores_eq small, getargsLoop, endArgs]
      by_cases none : room < 1
      · rw [if_pos none, if_pos (by omega)]
        exact ⟨_, _, _, rfl, rfl, inside⟩
      · rw [if_neg none, if_neg (by omega)]
        exact ⟨_, _, _, rfl, rfl, forall_mem_concat.mpr ⟨inside, by omega⟩⟩
  | cons argument rest ih =>
      obtain ⟨inexact, short, onwards⟩ := leaves
      by_cases large : room < argument.strlen
      · refine ⟨_, _, _, storesLoop_refuses small short large, ?_, inside⟩
        rw [getargsLoop, if_pos (by omega)]
      · have fits : argument.strlen < room := by omega
        have copied : ∀ i ∈ stores ++ (strcpyStores argument).map (offset + ·), i < limit := by
          intro i member
          rcases mem_argumentStores.mp member with old | new
          · exact inside i old
          · omega
        have ended := forall_mem_concat.mpr
          ⟨copied, (by omega : offset + argument.strlen < limit)⟩
        rw [getargsLoop, if_neg (by omega)]
        by_cases single : rest = []
        · subst single
          rw [storesLoop_last small (Nat.le_of_lt fits), endStores_eq (by omega),
            if_neg (by omega)]
          exact ⟨_, _, _, rfl, endArgs_ends (by omega), ended⟩
        · have notEmpty : rest.isEmpty = false := by simpa using single
          have nextRoom : (room : Int) - argument.strlen - 1 =
              (room - argument.strlen - 1 : Nat) := by omega
          rw [storesLoop_next small fits single]
          simp only [notEmpty, Bool.false_eq_true, if_false]
          rw [if_neg (by omega), nextRoom]
          exact ih _ (by omega) (by omega) (onwards fits single) ended

theorem endStores_keeps (nbytes : Word) :
    stores <+: (endStores buf offset nbytes stores).stores := by
  rw [endStores]
  split
  · exact List.prefix_rfl
  · exact List.prefix_append _ _

theorem storesLoop_keeps (nbytes : Word) :
    stores <+: (storesLoop arguments buf offset nbytes stores).stores := by
  induction arguments generalizing buf offset nbytes stores with
  | nil => exact endStores_keeps nbytes
  | cons argument rest ih =>
      rw [storesLoop]
      have copies := List.prefix_append stores ((strcpyStores argument).map (offset + ·))
      split
      · exact List.prefix_rfl
      · dsimp only
        split
        · exact copies.trans (endStores_keeps _)
        split
        · exact copies
        · exact (copies.trans (List.prefix_append _ _)).trans (ih _)

theorem endStores_elsewhere {nbytes : Word}
    (elsewhere : i ∉ (endStores buf offset nbytes stores).stores) :
    (endStores buf offset nbytes stores).buf i = buf i := by
  by_cases full : nbytes.slt 1
  · rw [endStores, if_pos full]
  · rw [endStores, if_neg full] at elsewhere ⊢
    apply Function.update_of_ne
    rintro rfl
    exact elsewhere (List.mem_append_right _ (List.mem_singleton_self _))

/-- What is not stored at stays. -/
theorem storesLoop_elsewhere {nbytes : Word}
    (elsewhere : i ∉ (storesLoop arguments buf offset nbytes stores).stores) :
    (storesLoop arguments buf offset nbytes stores).buf i = buf i := by
  induction arguments generalizing buf offset nbytes stores with
  | nil => exact endStores_elsewhere elsewhere
  | cons argument rest ih =>
      have copied : i ∉ stores ++ (strcpyStores argument).map (offset + ·) →
          strcpyAt buf offset argument i = buf i := by
        intro absent
        apply if_neg
        exact fun inside => absent (mem_argumentStores.mpr (.inr inside))
      rw [storesLoop] at elsewhere ⊢
      by_cases refused : nbytes.slt (BitVec.ofNat 32 argument.strlen)
      · rw [if_pos refused]
      rw [if_neg refused] at elsewhere ⊢
      dsimp only at elsewhere ⊢
      by_cases last : rest.isEmpty
      · rw [if_pos last] at elsewhere ⊢
        rw [endStores_elsewhere elsewhere]
        exact copied fun member => elsewhere ((endStores_keeps _).subset member)
      rw [if_neg last] at elsewhere ⊢
      by_cases full : (nbytes - BitVec.ofNat 32 argument.strlen).slt 1
      · rw [if_pos full] at elsewhere ⊢
        exact copied elsewhere
      · rw [if_neg full] at elsewhere ⊢
        have absent : i ∉ stores ++ (strcpyStores argument).map (offset + ·) ++
            [offset + argument.strlen] :=
          fun member => elsewhere ((storesLoop_keeps _).subset member)
        rw [ih elsewhere, Function.update_of_ne]
        · exact copied fun member => absent (List.mem_append_left _ member)
        · rintro rfl
          exact absent (List.mem_append_right _ (List.mem_singleton_self _))

/-- An argument is copied with its terminator when the comparison lets it. -/
theorem storesLoop_copies {nbytes : Word}
    (passes : nbytes.slt (BitVec.ofNat 32 argument.strlen) = false)
    (low : offset ≤ i) (high : i ≤ offset + argument.strlen) :
    i ∈ (storesLoop (argument :: rest) buf offset nbytes stores).stores := by
  have copied : i ∈ stores ++ (strcpyStores argument).map (offset + ·) :=
    mem_argumentStores.mpr (.inr ⟨low, high⟩)
  rw [storesLoop, if_neg (by simp [passes])]
  dsimp only
  split
  · exact (endStores_keeps _).subset copied
  split
  · exact copied
  · exact (storesLoop_keeps _).subset (List.mem_append_left _ copied)

/-- Where no room is left behind an argument, its terminator is stored behind
the buffer. -/
theorem storesLoop_outside (buf : Nat → Byte) (offset : Nat) (stores : List Nat)
    (small : room < 2147483648)
    (addressed : ∀ argument ∈ arguments, argument.strlen < 4294967296)
    (overruns : ¬ LeavesRoom arguments room) :
    ∃ i ∈ (storesLoop arguments buf offset (BitVec.ofNat 32 room) stores).stores,
      offset + room ≤ i := by
  induction arguments generalizing buf offset room stores with
  | nil => exact absurd trivial overruns
  | cons argument rest ih =>
      have inMemory := addressed argument (List.mem_cons_self ..)
      by_cases short : argument.strlen < 2147483648
      · by_cases full : argument.strlen = room
        · refine ⟨offset + room, storesLoop_copies ?_ (by omega) (by omega), Nat.le_refl _⟩
          rw [slt_ofNat small short]
          exact decide_eq_false (by omega)
        · obtain ⟨fits, more, remaining⟩ : argument.strlen < room ∧ rest ≠ [] ∧
              ¬ LeavesRoom rest (room - argument.strlen - 1) := by
            by_contra none
            refine overruns ⟨full, short, fun fits more => ?_⟩
            by_contra remaining
            exact none ⟨fits, more, remaining⟩
          rw [storesLoop_next small fits more]
          obtain ⟨i, stored, outside⟩ := ih _ _ _ (by omega)
            (fun other member => addressed other (List.mem_cons_of_mem _ member)) remaining
          exact ⟨i, stored, by omega⟩
      · -- the length is negative, so that no comparison refuses it
        refine ⟨offset + argument.strlen, storesLoop_copies ?_ (by omega) (Nat.le_refl _), by omega⟩
        rw [BitVec.slt, toInt_ofNat_small small, toInt_ofNat_large (by omega) inMemory]
        exact decide_eq_false (by omega)

/-- The loop with unbounded integers refuses what does not fit. -/
theorem getargsLoop_refuses (tooLong : room ≤ (joined arguments).length) :
    (getargsLoop arguments buf offset room).1 = -1 := by
  induction arguments generalizing buf offset room with
  | nil =>
      have empty : (joined []).length = 0 := rfl
      rw [getargsLoop, endArgs, if_pos (by omega)]
  | cons argument rest ih =>
      rw [getargsLoop]
      split
      · rfl
      · rename_i fits
        by_cases single : rest = []
        · subst single
          rw [joined_single] at tooLong
          have length : argument.strlen = argument.bytes.length := rfl
          simp only [List.isEmpty_nil, if_true]
          rw [endArgs, if_pos (by omega)]
        · have notEmpty : rest.isEmpty = false := by simpa using single
          rw [joined_cons_length single] at tooLong
          simp only [notEmpty, Bool.false_eq_true, if_false]
          split
          · rfl
          · have nextRoom : (room : Int) - argument.strlen - 1 =
                (room - argument.strlen - 1 : Nat) := by omega
            rw [nextRoom]
            exact ih (by omega)

/-- The call stores in `buf[0..nbytes)` only, and gives 0 with the arguments
joined, or -1 where they do not fit. -/
def RespectsBuffer (argv : ArgumentVector) (nbytes : Word) : Prop :=
  ∀ buf, (∀ i ∈ (getargsStores argv buf nbytes).stores, i < nbytes.toNat) ∧
    (∀ i, nbytes.toNat ≤ i → (getargsStores argv buf nbytes).buf i = buf i) ∧
    if (joined argv.strings.tail).length + 1 ≤ nbytes.toNat then
      (getargsStores argv buf nbytes).value = 0 ∧
        Stored (getargsStores argv buf nbytes).buf 0 (joined argv.strings.tail ++ [0])
    else (getargsStores argv buf nbytes).value = -1

theorem respectsBuffer_iff (argv : ArgumentVector) (nbytes : Word) (nonnegative : 0 ≤ nbytes.toInt) :
    RespectsBuffer argv nbytes ↔
      ¬ FitsExactly argv.strings.tail nbytes.toNat ∧
        ¬ LengthOverflows argv.strings.tail nbytes.toNat := by
  have small : nbytes.toNat < 2147483648 := by
    have bound := nbytes.isLt
    rw [BitVec.toInt_eq_toNat_cond] at nonnegative
    split at nonnegative <;> omega
  have addressed : ∀ argument ∈ argv.strings.tail, argument.strlen < 4294967296 :=
    fun argument member => argv.addressed argument (List.mem_of_mem_tail member)
  have room : nbytes = BitVec.ofNat 32 nbytes.toNat := by simp
  rw [← leavesRoom_iff]
  constructor
  · intro respects
    by_contra overruns
    obtain ⟨i, stored, outside⟩ := storesLoop_outside (fun _ => 0) 0 [] small addressed overruns
    rw [← room] at stored
    exact absurd ((respects fun _ => 0).1 i stored) (by omega)
  · intro leaves buf
    obtain ⟨value, after, all, run, result, inside⟩ :=
      storesLoop_inside buf (Nat.zero_add nbytes.toNat) small leaves
        (fun i none => absurd none List.not_mem_nil)
    have called : getargsStores argv buf nbytes = { value, buf := after, stores := all } := by
      rw [getargsStores, room]
      exact run
    have outside : ∀ i, nbytes.toNat ≤ i → (getargsStores argv buf nbytes).buf i = buf i := by
      intro i behind
      apply storesLoop_elsewhere
      intro stored
      rw [← getargsStores, called] at stored
      exact absurd (inside i stored) (by omega)
    rw [called] at outside ⊢
    refine ⟨inside, outside, ?_⟩
    split
    · rename_i fits
      have length : ((joined argv.strings.tail).length : Int) < nbytes.toNat := by omega
      obtain ⟨other, joins, _, stored⟩ := getargsLoop_joins buf 0 length
      rw [result] at joins
      cases joins
      exact ⟨rfl, stored⟩
    · rename_i tooLong
      have behind : nbytes.toNat ≤ (joined argv.strings.tail).length := by omega
      have refused : (getargsLoop argv.strings.tail buf 0 nbytes.toNat).1 = -1 :=
        getargsLoop_refuses behind
      rw [result] at refused
      exact refused

/-- The string `cat`. -/
def cat : CString := ((CString.empty.cons 116 (by decide)).cons 97 (by decide)).cons 99 (by decide)

theorem cat_addressed : ∀ string ∈ [cat, cat], string.strlen < 4294967296 := by
  intro string member
  have same : string = cat := by simpa using member
  rw [same]
  decide

/-- The program `cat` with the argument `cat`. -/
def catArgv : ArgumentVector := ⟨[cat, cat], cat_addressed⟩

/-- With room for the terminator the argument is delivered. -/
theorem catArgv_respects : RespectsBuffer catArgv 4 :=
  (respectsBuffer_iff catArgv 4 (by decide)).mpr
    (leavesRoom_iff.mp ⟨by decide, by decide, fun _ more => absurd rfl more⟩)

/-- Without it the terminator is stored behind the buffer. -/
theorem catArgv_overruns :
    (getargsStores catArgv (fun _ => 0) 3).stores = [0, 1, 2, 3] ∧ ¬ RespectsBuffer catArgv 3 := by
  have stored : (getargsStores catArgv (fun _ => 0) 3).stores = [0, 1, 2, 3] := by decide
  refine ⟨stored, fun respects => ?_⟩
  have inside := (respects fun _ => 0).1 3 (by rw [stored]; decide)
  exact absurd inside (by decide)

end Emulation

end Ece391
