import Ece391.Library.Assembly

namespace Ece391.Library

universe u

/-! # Overlapping moves

Instructions that choose the direction of a move, beside those of `Assembly`
that do not jump.
-/

namespace StringMoves

open Assembly

/-- CF is the only flag that is new. -/
structure State extends Processor where
  cf : Bool

inductive Line (Label : Type u) where
  | plain (line : Assembly.Line Empty)
  | label (name : Label)
  /-- Compares as `target - source`. -/
  | cmp (source target : Register)
  | jae (target : Label)
  | leal (displacement : BitVec 32) (base index target : Register)
  | std
  | repMovsb
  | repStosw

variable {Label : Type u} [DecidableEq Label]

def position (name : Label) : List (Line Label) → Option Nat
  | [] => none
  | .label other :: rest => if other = name then some 0 else (position name rest).map (· + 1)
  | _ :: rest => (position name rest).map (· + 1)

/-- How far a string instruction over `size` bytes moves its pointers. -/
def State.strideOf (s : State) (size : BitVec 32) : BitVec 32 := if s.df then -size else size

def storeHalf (memory : Bytes) (address : BitVec 32) (value : BitVec 16) : Bytes :=
  Function.update (Function.update memory address (value.extractLsb' 0 8)) (address + 1)
    (value.extractLsb' 8 8)

/-- One line, and of a repeated instruction one turn. -/
def execute (code : List (Line Label)) (s : State) : Line Label → Option State
  | .plain line => (Assembly.execute [] s.toProcessor line).map fun p => { s with toProcessor := p }
  | .label _ => some { s with eip := s.eip + 1 }
  | .cmp source target =>
      let left := s.toProcessor.get target
      let right := s.toProcessor.get source
      some { s with zf := left = right, cf := decide (left.toNat < right.toNat), eip := s.eip + 1 }
  | .jae target =>
      if s.cf then some { s with eip := s.eip + 1 }
      else (position target code).map fun eip => { s with eip }
  | .leal displacement base index target =>
      let address := s.toProcessor.get base + s.toProcessor.get index + displacement
      some { s with toProcessor := (s.toProcessor.set address target).next }
  | .std => some { s with df := true, eip := s.eip + 1 }
  | .repMovsb =>
      if s.ecx = 0 then some { s with eip := s.eip + 1 }
      else some
        { s with
          memory := Function.update s.memory s.edi (s.memory s.esi)
          esi := s.esi + s.strideOf 1
          edi := s.edi + s.strideOf 1
          ecx := s.ecx - 1 }
  | .repStosw =>
      if s.ecx = 0 then some { s with eip := s.eip + 1 }
      else some
        { s with
          memory := storeHalf s.memory s.edi (s.eax.extractLsb' 0 16)
          edi := s.edi + s.strideOf 2
          ecx := s.ecx - 1 }

def step (code : List (Line Label)) (s : State) : Option State :=
  code[s.eip]?.bind (execute code s)

def Reaches (code : List (Line Label)) : State → State → Prop :=
  Relation.ReflTransGen fun before after => step code before = some after

variable {code : List (Line Label)} {s : State}

theorem Reaches.line {line : Line Label} {after : State} (here : code[s.eip]? = some line)
    (executed : execute code s line = some after) : Reaches code s after := by
  apply Relation.ReflTransGen.single
  rw [step, here]
  exact executed

theorem Reaches.trans {middle after : State} (first : Reaches code s middle)
    (rest : Reaches code middle after) : Reaches code s after :=
  Relation.ReflTransGen.trans first rest

variable {α : Type u} {memory : BitVec 32 → α} {dest : BitVec 32} {count : Nat}

/-- A block grows by the element in front of it. -/
theorem transfer_front (source memory : BitVec 32 → α) (dest : BitVec 32) (count : Nat) :
    Function.update (transfer (fun offset => source (1 + offset)) memory (dest + 1) count) dest
      (source 0#32) = transfer source memory dest (count + 1) := by
  funext address
  by_cases here : address = dest
  · subst address
    rw [Function.update_self, transfer, BitVec.sub_self]
    exact (if_pos (Nat.zero_lt_succ count)).symm
  · rw [Function.update_of_ne here, transfer, transfer]
    have nonzero : (address - dest).toNat ≠ 0 := by
      intro zero
      apply here
      rw [← add_offset dest address, BitVec.eq_of_toNat_eq (y := 0#32) zero, BitVec.add_zero]
    have offset : 1 + (address - (dest + 1)) = address - dest := by
      apply BitVec.eq_of_toNat_eq
      simp only [BitVec.ofNat_eq_ofNat, BitVec.toNat_add, BitVec.toNat_sub, BitVec.toNat_ofNat]
      omega
    have sizes : (address - dest).toNat = (address - (dest + 1)).toNat + 1 := by
      rw [← offset] at nonzero ⊢
      have bound := (address - (dest + 1)).isLt
      simp only [BitVec.ofNat_eq_ofNat, BitVec.toNat_add, BitVec.toNat_ofNat] at nonzero ⊢
      omega
    rw [offset, sizes]
    simp only [Nat.add_lt_add_iff_right]

/-- What a move leaves. -/
def moved (before : Bytes) (dest src : BitVec 32) (count : Nat) : Bytes :=
  transfer (fun offset => before (src + offset)) before dest count

variable {before : Bytes} {src : BitVec 32} {total : Nat}

theorem succ_inj {left right : BitVec 32} (same : left + 1 = right + 1) : left = right := by
  rw [← BitVec.add_sub_cancel left 1, same, BitVec.add_sub_cancel]

theorem back_and_forth (address : BitVec 32) : address + -1 + 1 = address := by
  have nothing : (-1 : BitVec 32) + 1 = 0#32 := by decide
  rw [BitVec.add_assoc, nothing, BitVec.add_zero]

theorem ecx_pred {ecx : BitVec 32} {count : Nat} (counted : ecx.toNat = count + 1) :
    ecx ≠ 0 ∧ (ecx - 1).toNat = count := by
  have bound := ecx.isLt
  constructor
  · rintro rfl
    cases counted
  · simp only [BitVec.ofNat_eq_ofNat, BitVec.toNat_sub, BitVec.toNat_ofNat]
    omega

/-- Upwards, while no byte is stored to that is still to be read. -/
theorem Reaches.upwards (line : code[s.eip]? = some .repMovsb) (forwards : s.df = false)
    (unread : ∀ i < total, ∀ j < i, dest + BitVec.ofNat 32 j ≠ src + BitVec.ofNat 32 i)
    (bounded : total ≤ 2 ^ 32) {done : Nat} (ecx : s.ecx.toNat + done = total)
    (edi : s.edi = dest + BitVec.ofNat 32 done) (esi : s.esi = src + BitVec.ofNat 32 done)
    (memory : s.memory = moved before dest src done) :
    ∃ after, Reaches code s after ∧ after.eip = s.eip + 1 ∧ after.df = s.df ∧
      after.memory = moved before dest src total := by
  induction counted : s.ecx.toNat generalizing s done with
  | zero =>
      have none : s.ecx = 0 := BitVec.eq_of_toNat_eq counted
      have all : done = total := by omega
      refine ⟨_, Reaches.line line (if_pos none), rfl, rfl, ?_⟩
      rw [← all]
      exact memory
  | succ remaining ih =>
      obtain ⟨more, fewer⟩ := ecx_pred counted
      have read : s.memory s.esi = before (src + BitVec.ofNat 32 done) := by
        rw [memory, esi]
        exact transfer_outside fun j below same => unread done (by omega) j below same.symm
      have stride : s.strideOf 1 = BitVec.ofNat 32 1 := by
        rw [State.strideOf, forwards]
        rfl
      let next : State := { s with
        memory := Function.update s.memory s.edi (s.memory s.esi)
        esi := s.esi + s.strideOf 1
        edi := s.edi + s.strideOf 1
        ecx := s.ecx - 1 }
      have stored : next.memory = moved before dest src (done + 1) := by
        change Function.update s.memory s.edi (s.memory s.esi) = _
        rw [read, memory, edi]
        exact transfer_succ (by omega)
      have nextEdi : next.edi = dest + BitVec.ofNat 32 (done + 1) := by
        change s.edi + s.strideOf 1 = _
        rw [edi, stride, offset_add]
      have nextEsi : next.esi = src + BitVec.ofNat 32 (done + 1) := by
        change s.esi + s.strideOf 1 = _
        rw [esi, stride, offset_add]
      have count : next.ecx.toNat + (done + 1) = total := by
        change (s.ecx - 1).toNat + (done + 1) = total
        omega
      obtain ⟨after, reached, ends⟩ := ih (s := next) line forwards count nextEdi nextEsi stored fewer
      exact ⟨after, Reaches.trans (Reaches.line line (if_neg more)) reached, ends⟩

/-- The part of a move from an offset on. -/
def movedFrom (before : Bytes) (dest src : BitVec 32) (start count : Nat) : Bytes :=
  moved before (dest + BitVec.ofNat 32 start) (src + BitVec.ofNat 32 start) count

theorem movedFrom_front {start : Nat} :
    Function.update (movedFrom before dest src (start + 1) count) (dest + BitVec.ofNat 32 start)
      (before (src + BitVec.ofNat 32 start)) = movedFrom before dest src start (count + 1) := by
  have front := transfer_front (fun offset => before (src + BitVec.ofNat 32 start + offset)) before
    (dest + BitVec.ofNat 32 start) count
  rw [BitVec.add_zero] at front
  have shifted : (fun offset => before (src + BitVec.ofNat 32 (start + 1) + offset)) =
      fun offset => before (src + BitVec.ofNat 32 start + (1 + offset)) := by
    funext offset
    rw [← offset_add, BitVec.add_assoc _ _ offset]
    rfl
  rw [movedFrom, movedFrom, moved, moved, shifted, ← offset_add dest]
  exact front

/-- Downwards from the last byte. -/
theorem Reaches.downwards (line : code[s.eip]? = some .repMovsb) (backwards : s.df = true)
    (unread : ∀ j < total, ∀ i < j, dest + BitVec.ofNat 32 j ≠ src + BitVec.ofNat 32 i)
    {done : Nat} (ecx : s.ecx.toNat + done = total)
    (edi : s.edi + 1 = dest + s.ecx) (esi : s.esi + 1 = src + s.ecx)
    (memory : s.memory = movedFrom before dest src s.ecx.toNat done) :
    ∃ after, Reaches code s after ∧ after.eip = s.eip + 1 ∧ after.df = s.df ∧
      after.memory = moved before dest src total := by
  induction counted : s.ecx.toNat generalizing s done with
  | zero =>
      have none : s.ecx = 0 := BitVec.eq_of_toNat_eq counted
      have all : done = total := by omega
      refine ⟨_, Reaches.line line (if_pos none), rfl, rfl, ?_⟩
      rw [counted, movedFrom, BitVec.add_zero, BitVec.add_zero, all] at memory
      exact memory
  | succ remaining ih =>
      obtain ⟨more, fewer⟩ := ecx_pred counted
      have count : s.ecx = BitVec.ofNat 32 remaining + 1 := by
        apply BitVec.eq_of_toNat_eq
        have bound := s.ecx.isLt
        simp only [BitVec.ofNat_eq_ofNat, BitVec.toNat_add, BitVec.toNat_ofNat]
        omega
      have ediHere : s.edi = dest + BitVec.ofNat 32 remaining := by
        rw [count, ← BitVec.add_assoc] at edi
        exact succ_inj edi
      have esiHere : s.esi = src + BitVec.ofNat 32 remaining := by
        rw [count, ← BitVec.add_assoc] at esi
        exact succ_inj esi
      rw [counted] at memory
      have read : s.memory s.esi = before (src + BitVec.ofNat 32 remaining) := by
        rw [memory, esiHere, movedFrom, moved]
        apply transfer_outside
        intro i below same
        rw [offset_add] at same
        exact unread (remaining + 1 + i) (by omega) remaining (by omega) same.symm
      have stride : s.strideOf 1 = -1 := by
        rw [State.strideOf, backwards]
        rfl
      let next : State := { s with
        memory := Function.update s.memory s.edi (s.memory s.esi)
        esi := s.esi + s.strideOf 1
        edi := s.edi + s.strideOf 1
        ecx := s.ecx - 1 }
      have stored : next.memory = movedFrom before dest src next.ecx.toNat (done + 1) := by
        change Function.update s.memory s.edi (s.memory s.esi) =
          movedFrom before dest src (s.ecx - 1).toNat (done + 1)
        rw [read, memory, ediHere, fewer]
        exact movedFrom_front
      have less : s.ecx - 1 = BitVec.ofNat 32 remaining := by
        rw [count]
        exact BitVec.add_sub_cancel _ _
      have nextEdi : next.edi + 1 = dest + next.ecx := by
        change s.edi + s.strideOf 1 + 1 = dest + (s.ecx - 1)
        rw [ediHere, stride, less, back_and_forth]
      have nextEsi : next.esi + 1 = src + next.ecx := by
        change s.esi + s.strideOf 1 + 1 = src + (s.ecx - 1)
        rw [esiHere, stride, less, back_and_forth]
      have total : next.ecx.toNat + (done + 1) = total := by
        change (s.ecx - 1).toNat + (done + 1) = total
        omega
      obtain ⟨after, reached, ends⟩ := ih (s := next) line backwards total nextEdi nextEsi stored fewer
      exact ⟨after, Reaches.trans (Reaches.line line (if_neg more)) reached, ends⟩

/-- The bytes of a value that is repeated every `size` bytes. -/
def repeated (size : Nat) (value : BitVec 32) (offset : BitVec 32) : BitVec 8 :=
  value.extractLsb' (8 * (offset.toNat % size)) 8

theorem repeated_lane {size lane : Nat} (value : BitVec 32) (turns : Nat) (inside : lane < size)
    (bounded : size * turns + lane < 2 ^ 32) :
    repeated size value (BitVec.ofNat 32 (size * turns + lane)) =
      value.extractLsb' (8 * lane) 8 := by
  rw [repeated, BitVec.toNat_ofNat, Nat.mod_eq_of_lt bounded, Nat.mul_add_mod,
    Nat.mod_eq_of_lt inside]

theorem storeHalf_transfer {value : BitVec 32} (turns : Nat) (bounded : 2 * turns + 2 ≤ 2 ^ 32) :
    storeHalf (transfer (repeated 2 value) before dest (2 * turns))
        (dest + BitVec.ofNat 32 (2 * turns)) (value.extractLsb' 0 16) =
      transfer (repeated 2 value) before dest (2 * (turns + 1)) := by
  have low : (value.extractLsb' 0 16).extractLsb' 0 8 =
      repeated 2 value (BitVec.ofNat 32 (2 * turns)) := by
    rw [← Nat.add_zero (2 * turns), repeated_lane value turns (by decide) (by omega)]
    ext i inside
    simp
  have high : (value.extractLsb' 0 16).extractLsb' 8 8 =
      repeated 2 value (BitVec.ofNat 32 (2 * turns + 1)) := by
    rw [repeated_lane value turns (by decide) (by omega)]
    ext i inside
    simp
  rw [storeHalf, low, high]
  change Function.update (Function.update _ _ _)
    (dest + BitVec.ofNat 32 (2 * turns) + BitVec.ofNat 32 1) _ = _
  rw [offset_add, transfer_succ (by omega), transfer_succ (by omega)]
  rfl

theorem storeWord_repeated {value : BitVec 32} (turns : Nat) (bounded : 4 * turns + 4 ≤ 2 ^ 32) :
    storeWord (transfer (repeated 4 value) before dest (4 * turns))
        (dest + BitVec.ofNat 32 (4 * turns)) value =
      transfer (repeated 4 value) before dest (4 * (turns + 1)) :=
  storeWord_transfer bounded fun lane inside =>
    (repeated_lane value turns inside (by omega)).symm

theorem Reaches.stosw (line : code[s.eip]? = some .repStosw) (forwards : s.df = false)
    (bounded : 2 * total ≤ 2 ^ 32) {turns : Nat} (ecx : s.ecx.toNat + turns = total)
    (edi : s.edi = dest + BitVec.ofNat 32 (2 * turns))
    (memory : s.memory = transfer (repeated 2 s.eax) before dest (2 * turns)) :
    ∃ after, Reaches code s after ∧ after.eip = s.eip + 1 ∧ after.df = s.df ∧
      after.memory = transfer (repeated 2 s.eax) before dest (2 * total) := by
  induction counted : s.ecx.toNat generalizing s turns with
  | zero =>
      have none : s.ecx = 0 := BitVec.eq_of_toNat_eq counted
      have all : turns = total := by omega
      refine ⟨_, Reaches.line line (if_pos none), rfl, rfl, ?_⟩
      rw [← all]
      exact memory
  | succ remaining ih =>
      obtain ⟨more, fewer⟩ := ecx_pred counted
      have stride : s.strideOf 2 = BitVec.ofNat 32 2 := by
        rw [State.strideOf, forwards]
        rfl
      let next : State := { s with
        memory := storeHalf s.memory s.edi (s.eax.extractLsb' 0 16)
        edi := s.edi + s.strideOf 2
        ecx := s.ecx - 1 }
      have stored : next.memory = transfer (repeated 2 next.eax) before dest (2 * (turns + 1)) := by
        change storeHalf s.memory s.edi (s.eax.extractLsb' 0 16) = _
        rw [memory, edi]
        exact storeHalf_transfer turns (by omega)
      have nextEdi : next.edi = dest + BitVec.ofNat 32 (2 * (turns + 1)) := by
        change s.edi + s.strideOf 2 = _
        rw [edi, stride, offset_add]
        rfl
      have count : next.ecx.toNat + (turns + 1) = total := by
        change (s.ecx - 1).toNat + (turns + 1) = total
        omega
      obtain ⟨after, reached, ends⟩ := ih (s := next) line forwards count nextEdi stored fewer
      exact ⟨after, Reaches.trans (Reaches.line line (if_neg more)) reached, ends⟩

theorem Reaches.stosl (line : code[s.eip]? = some (.plain .repStosl)) (forwards : s.df = false)
    (bounded : 4 * total ≤ 2 ^ 32) {turns : Nat} (ecx : s.ecx.toNat + turns = total)
    (edi : s.edi = dest + BitVec.ofNat 32 (4 * turns))
    (memory : s.memory = transfer (repeated 4 s.eax) before dest (4 * turns)) :
    ∃ after, Reaches code s after ∧ after.eip = s.eip + 1 ∧ after.df = s.df ∧
      after.memory = transfer (repeated 4 s.eax) before dest (4 * total) := by
  induction counted : s.ecx.toNat generalizing s turns with
  | zero =>
      have none : s.ecx = 0 := BitVec.eq_of_toNat_eq counted
      have all : turns = total := by omega
      have executed : execute code s (.plain .repStosl) = some { s with eip := s.eip + 1 } := by
        rw [execute, Assembly.execute, if_pos none]
        rfl
      refine ⟨_, Reaches.line line executed, rfl, rfl, ?_⟩
      rw [← all]
      exact memory
  | succ remaining ih =>
      obtain ⟨more, fewer⟩ := ecx_pred counted
      have stride : s.toProcessor.stride = BitVec.ofNat 32 4 := by
        rw [Processor.stride, forwards]
        rfl
      let next : State := { s with
        memory := storeWord s.memory s.edi s.eax
        edi := s.edi + s.toProcessor.stride
        ecx := s.ecx - 1 }
      have executed : execute code s (.plain .repStosl) = some next := by
        rw [execute, Assembly.execute, if_neg more]
        rfl
      have stored : next.memory = transfer (repeated 4 next.eax) before dest (4 * (turns + 1)) := by
        change storeWord s.memory s.edi s.eax = _
        rw [memory, edi]
        exact storeWord_repeated turns (by omega)
      have nextEdi : next.edi = dest + BitVec.ofNat 32 (4 * (turns + 1)) := by
        change s.edi + s.toProcessor.stride = _
        rw [edi, stride, offset_add]
        rfl
      have count : next.ecx.toNat + (turns + 1) = total := by
        change (s.ecx - 1).toNat + (turns + 1) = total
        omega
      obtain ⟨after, reached, ends⟩ := ih (s := next) line forwards count nextEdi stored fewer
      exact ⟨after, Reaches.trans (Reaches.line line executed) reached, ends⟩

end StringMoves

end Ece391.Library
