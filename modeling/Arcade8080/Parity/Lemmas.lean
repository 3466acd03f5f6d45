import Arcade8080.Parity

/-!
The mask of a size keeps the bits below that size and no others, so the parity of a number's
low bits is that of how many of them are set.
-/

namespace Arcade8080.Parity

theorem getLsbD_mask (size index : Nat) :
    (mask size).getLsbD index = decide (index < min size 32) := by
  simp only [mask]
  split
  · have hall : min size 32 = 32 := by omega
    rw [BitVec.getLsbD_allOnes, hall]
  · have hsize : size < 32 := by omega
    have hmin : min size 32 = size := by omega
    have hbit : (1#32 <<< size).toNat = 1 <<< size := by
      rw [BitVec.toNat_shiftLeft, Nat.mod_eq_of_lt]
      · rfl
      · rw [BitVec.toNat_ofNat, Nat.mod_eq_of_lt (by decide), Nat.one_shiftLeft]
        exact Nat.pow_lt_pow_right (by decide) hsize
    have hone : (1#32).toNat ≤ (1#32 <<< size).toNat := by
      rw [hbit, Nat.one_shiftLeft]
      exact Nat.one_le_two_pow
    have hmask : (1#32 <<< size - 1#32).toNat = 1 <<< size - 1 := by
      rw [BitVec.toNat_sub_of_le hone, hbit]
      rfl
    rw [BitVec.getLsbD, hmask, Nat.one_shiftLeft, Nat.testBit_two_pow_sub_one, hmin]

/-- Counting under a mask is counting the bits that it keeps. -/
theorem ones_and_mask (value : BitVec 32) (size : Nat) :
    ones (value &&& mask size) = (List.range (min size 32)).countP value.getLsbD := by
  have hsplit : List.range 32 =
      List.range (min size 32) ++ (List.range (32 - min size 32)).map (min size 32 + ·) := by
    rw [← List.range_add]
    congr 1
    omega
  have hkept : (List.range (min size 32)).countP (value &&& mask size).getLsbD =
      (List.range (min size 32)).countP value.getLsbD := by
    apply List.countP_congr
    intro index hindex
    have hlt : index < min size 32 := List.mem_range.mp hindex
    simp [BitVec.getLsbD_and, getLsbD_mask, hlt]
  have hcleared : ((List.range (32 - min size 32)).map (min size 32 + ·)).countP
      (value &&& mask size).getLsbD = 0 := by
    rw [List.countP_eq_zero]
    intro index hindex
    obtain ⟨offset, _, rfl⟩ := List.mem_map.mp hindex
    have hnot : ¬ min size 32 + offset < min size 32 := by omega
    rw [BitVec.getLsbD_and, getLsbD_mask, decide_eq_false hnot, Bool.and_false]
    exact Bool.false_ne_true
  rw [ones, hsplit, List.countP_append, hkept, hcleared, Nat.add_zero]

/-- How many bits of a byte are set. -/
def onesOfByte (value : Byte) : Nat := (List.range 8).countP value.getLsbD

theorem evenByte_iff (value : Byte) : evenByte value = true ↔ onesOfByte value % 2 = 0 := by
  have hcount : (List.range 8).countP (value.setWidth 32).getLsbD = onesOfByte value := by
    apply List.countP_congr
    intro index hindex
    have hlt : index < 32 := Nat.lt_trans (List.mem_range.mp hindex) (by decide)
    simp [hlt]
  have hmin : min 8 32 = 8 := rfl
  rw [evenByte, even, ones_and_mask, hmin, hcount, beq_iff_eq]

end Arcade8080.Parity
