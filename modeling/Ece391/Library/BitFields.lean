import Mathlib.Algebra.BigOperators.Group.List.Basic
import Mathlib.Algebra.Ring.Nat

namespace Ece391.Library

/-! # Packed bit fields

Fields lie one behind the other, the first in the lowest bits.
-/

/-- The word of fields, each given by its width and its value. -/
def pack : List (Nat × Nat) → Nat
  | [] => 0
  | (width, value) :: rest => value % 2 ^ width + 2 ^ width * pack rest

/-- The value of the `width` bits from `offset` on. -/
def bitField (offset width word : Nat) : Nat := word / 2 ^ offset % 2 ^ width

variable {fields before after : List (Nat × Nat)} {width value : Nat}

theorem pack_cons_mod (rest : List (Nat × Nat)) :
    pack ((width, value) :: rest) % 2 ^ width = value % 2 ^ width := by
  rw [pack, Nat.add_mul_mod_self_left, Nat.mod_mod]

theorem pack_cons_div (rest : List (Nat × Nat)) :
    pack ((width, value) :: rest) / 2 ^ width = pack rest := by
  have positive : 0 < 2 ^ width := Nat.two_pow_pos width
  rw [pack, Nat.add_mul_div_left _ _ positive, Nat.div_eq_of_lt (Nat.mod_lt _ positive),
    Nat.zero_add]

/-- Fields are read back where they lie. -/
theorem bitField_pack :
    bitField (before.map Prod.fst).sum width (pack (before ++ (width, value) :: after)) =
      value % 2 ^ width := by
  induction before with
  | nil =>
      rw [bitField, List.map_nil, List.sum_nil, Nat.pow_zero, Nat.div_one]
      exact pack_cons_mod after
  | cons field rest ih =>
      obtain ⟨first, low⟩ := field
      rw [bitField, List.map_cons, List.sum_cons, Nat.pow_add, ← Nat.div_div_eq_div_mul,
        List.cons_append, pack_cons_div]
      exact ih

/-- The field with index `k`. -/
theorem bitField_getElem {k : Nat} (inside : k < fields.length) :
    bitField ((fields.take k).map Prod.fst).sum fields[k].1 (pack fields) =
      fields[k].2 % 2 ^ fields[k].1 := by
  have split : fields.take k ++ (fields[k].1, fields[k].2) :: fields.drop (k + 1) = fields := by
    rw [← List.drop_eq_getElem_cons inside, List.take_append_drop]
  have read : bitField ((fields.take k).map Prod.fst).sum fields[k].1
      (pack (fields.take k ++ (fields[k].1, fields[k].2) :: fields.drop (k + 1))) =
        fields[k].2 % 2 ^ fields[k].1 := bitField_pack
  rwa [split] at read

theorem bitField_read {widths : List Nat} {offset : Nat} (k : Nat)
    (layout : fields.map Prod.fst = widths) (start : (widths.take k).sum = offset)
    (field : fields[k]? = some (width, value)) (fits : value < 2 ^ width) :
    bitField offset width (pack fields) = value := by
  obtain ⟨inside, field⟩ := List.getElem?_eq_some_iff.mp field
  have found := bitField_getElem inside
  rw [List.map_take, layout, start, field] at found
  rw [found, Nat.mod_eq_of_lt fits]

/-- Neighbouring fields are one wider field. -/
theorem bitField_add (word offset low high : Nat) : bitField offset (low + high) word =
    bitField offset low word + 2 ^ low * bitField (offset + low) high word := by
  rw [bitField, bitField, bitField, Nat.pow_add, Nat.pow_add, ← Nat.div_div_eq_div_mul]
  exact Nat.mod_mul

/-- A field of a word, cut out by a mask of its bits. -/
theorem masked_toNat (word mask : BitVec 32) (shift width : Nat)
    (covers : (mask >>> shift).toNat = 2 ^ width - 1) :
    (((word &&& mask) >>> shift).setWidth width).toNat = bitField shift width word.toNat := by
  rw [BitVec.ushiftRight_and_distrib, BitVec.toNat_setWidth, BitVec.toNat_and, covers,
    Nat.and_two_pow_sub_one_eq_mod, Nat.mod_mod, BitVec.toNat_ushiftRight,
    Nat.shiftRight_eq_div_pow, bitField]

end Ece391.Library
