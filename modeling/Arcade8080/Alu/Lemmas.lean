import Arcade8080.Alu
import Arcade8080.Parity.Lemmas

/-!
The arithmetic unit in integers. A sum, a difference and a bitwise result are told from the
numbers that the operands stand for, with the flags that go with them; which of these an
operation comes to is all that is needed to know about it.
-/

namespace Arcade8080

namespace Flags

/-- Z, S and P of a byte, as numbers and counts tell them. -/
structure Shows (flags : Flags) (value : Byte) : Prop where
  zero : flags.z = true ↔ value.toNat = 0
  sign : flags.s = true ↔ 128 ≤ value.toNat
  parity : flags.p = true ↔ Parity.onesOfByte value % 2 = 0

theorem shows_withResult (flags : Flags) (value : Byte) :
    (flags.withResult value).Shows value where
  zero := by
    rw [withResult, beq_iff_eq, ← BitVec.toNat_inj]
    rfl
  sign := by
    have hmsb : value.getLsbD 7 = value.msb := (BitVec.msb_eq_getLsbD_last value).symm
    rw [withResult, hmsb, BitVec.msb_eq_decide, decide_eq_true_iff]
  parity := Parity.evenByte_iff value

/-- Neither carry has a part in what the other three show. -/
theorem Shows.congr {flags other : Flags} {value : Byte} (h : flags.Shows value)
    (hz : other.z = flags.z) (hs : other.s = flags.s) (hp : other.p = flags.p) :
    other.Shows value where
  zero := hz ▸ h.zero
  sign := hs ▸ h.sign
  parity := hp ▸ h.parity

end Flags

namespace Alu

/-- A sum, with the carries out of its low digit and out of the byte. -/
structure Sums (augend addend carry : Nat) (result : Byte) (flags : Flags) : Prop where
  value : result.toNat = (augend + addend + carry) % 256
  cy : flags.cy = true ↔ 256 ≤ augend + addend + carry
  ac : flags.ac = true ↔ 16 ≤ augend % 16 + addend % 16 + carry
  shows : flags.Shows result

/-- A difference. CY shows that the byte borrows, AC that the low digit does not. -/
structure Differs (minuend subtrahend borrow : Nat) (result : Byte) (flags : Flags) : Prop where
  value : (result.toNat : Int) = ((minuend : Int) - subtrahend - borrow) % 256
  cy : flags.cy = true ↔ minuend < subtrahend + borrow
  ac : flags.ac = true ↔ subtrahend % 16 + borrow ≤ minuend % 16
  shows : flags.Shows result

/-- A result whose bits are each made of the two bits in the same place. -/
structure Combines (combine : Bool → Bool → Bool) (first second result : Byte) (flags : Flags) :
    Prop where
  bits : ∀ index < 8,
    result.getLsbD index = combine (first.getLsbD index) (second.getLsbD index)
  cy : flags.cy = false
  ac : flags.ac = false
  shows : flags.Shows result

/-- What A and the flags become, given A, an operand and the carry before. A comparison has the
flags of a difference that goes nowhere. -/
def Computes (kind : Arithmetic) (a operand : Byte) (carry : Bool) (after : Byte) (flags : Flags) :
    Prop :=
  match kind with
  | .add => Sums a.toNat operand.toNat 0 after flags
  | .adc => Sums a.toNat operand.toNat carry.toNat after flags
  | .sub => Differs a.toNat operand.toNat 0 after flags
  | .sbb => Differs a.toNat operand.toNat carry.toNat after flags
  | .ana => Combines and a operand after flags
  | .xra => Combines xor a operand after flags
  | .ora => Combines or a operand after flags
  | .cmp => after = a ∧ ∃ difference, Differs a.toNat operand.toNat 0 difference flags

/-- The low digit of a byte. -/
theorem toNat_and_fifteen (value : Byte) : (value &&& 0x0F).toNat = value.toNat % 16 := by
  rw [BitVec.toNat_and]
  exact Nat.and_two_pow_sub_one_eq_mod value.toNat 4

/-- Two bytes and a carry fit into sixteen bits. -/
theorem toNat_wide (augend addend : Byte) (carry : Bool) :
    (augend.setWidth 16 + addend.setWidth 16 + (BitVec.ofBool carry).setWidth 16).toNat =
      augend.toNat + addend.toNat + carry.toNat := by
  have haugend := augend.isLt
  have haddend := addend.isLt
  have hcarry := carry.toNat_le
  simp only [BitVec.toNat_add, BitVec.toNat_setWidth, BitVec.toNat_ofBool]
  omega

/-- Where operands and sum do not add up without a carry, one has come in. -/
theorem halfCarry_sum (augend addend : Byte) (carry : Bool) :
    halfCarry augend addend (augend + addend + (BitVec.ofBool carry).setWidth 8) =
      decide (16 ≤ augend.toNat % 16 + addend.toNat % 16 + carry.toNat) := by
  have hcarry : BitVec.carry 4 augend addend carry =
      decide (16 ≤ augend.toNat % 16 + addend.toNat % 16 + carry.toNat) := rfl
  rw [halfCarry, BitVec.getLsbD_xor, BitVec.getLsbD_xor,
    BitVec.getLsbD_add_add_bool (by decide), hcarry]
  cases augend.getLsbD 4 <;> cases addend.getLsbD 4 <;> simp

/-- The byte that is left of a sum, and the carries out of its digits. -/
theorem add_eq (flags : Flags) (augend addend : Byte) (carry : Bool) :
    add flags augend addend carry =
      let sum := augend + addend + (BitVec.ofBool carry).setWidth 8
      (sum, { flags.withResult sum with
        cy := decide (256 ≤ augend.toNat + addend.toNat + carry.toNat)
        ac := decide (16 ≤ augend.toNat % 16 + addend.toNat % 16 + carry.toNat) }) := by
  have hnarrow : (augend.setWidth 16 + addend.setWidth 16 +
      (BitVec.ofBool carry).setWidth 16).setWidth 8 =
        augend + addend + (BitVec.ofBool carry).setWidth 8 := by
    rw [BitVec.setWidth_add _ _ (by decide), BitVec.setWidth_add _ _ (by decide)]
    simp
  have hcarry : decide (0xFF#16 < augend.setWidth 16 + addend.setWidth 16 +
      (BitVec.ofBool carry).setWidth 16) =
        decide (256 ≤ augend.toNat + addend.toNat + carry.toNat) := by
    rw [← toNat_wide]
    rfl
  simp only [add, Flags.withSum, Flags.withResult, hnarrow, hcarry, halfCarry_sum]

/-- Adding the complement and the opposite of a borrow takes away both. -/
theorem subtract_eq (flags : Flags) (minuend subtrahend : Byte) (borrow : Bool) :
    subtract flags minuend subtrahend borrow =
      let difference := minuend - subtrahend - (BitVec.ofBool borrow).setWidth 8
      (difference, { flags.withResult difference with
        cy := decide (minuend.toNat < subtrahend.toNat + borrow.toNat)
        ac := decide (subtrahend.toNat % 16 + borrow.toNat ≤ minuend.toNat % 16) }) := by
  have hminuend := minuend.isLt
  have hsubtrahend := subtrahend.isLt
  have hcomplement : (~~~subtrahend).toNat = 255 - subtrahend.toNat := BitVec.toNat_not
  have hopposite : (!borrow).toNat = 1 - borrow.toNat := by cases borrow <;> rfl
  have hborrow := borrow.toNat_le
  have hdifference : minuend + ~~~subtrahend + (BitVec.ofBool (!borrow)).setWidth 8 =
      minuend - subtrahend - (BitVec.ofBool borrow).setWidth 8 := by
    apply BitVec.eq_of_toNat_eq
    simp only [BitVec.toNat_add, BitVec.toNat_sub, BitVec.toNat_setWidth, BitVec.toNat_ofBool,
      hcomplement, hopposite]
    omega
  have hcy : (!decide (256 ≤ minuend.toNat + (~~~subtrahend).toNat + (!borrow).toNat)) =
      decide (minuend.toNat < subtrahend.toNat + borrow.toNat) := by
    rw [← decide_not, hcomplement, hopposite]
    exact decide_eq_decide.mpr (by omega)
  have hac : decide (16 ≤ minuend.toNat % 16 + (~~~subtrahend).toNat % 16 + (!borrow).toNat) =
      decide (subtrahend.toNat % 16 + borrow.toNat ≤ minuend.toNat % 16) := by
    rw [hcomplement, hopposite]
    exact decide_eq_decide.mpr (by omega)
  simp only [subtract, add_eq, hdifference, hcy, hac]

theorem sums_add (flags : Flags) (augend addend : Byte) (carry : Bool) :
    Sums augend.toNat addend.toNat carry.toNat (add flags augend addend carry).1
      (add flags augend addend carry).2 := by
  rw [add_eq]
  constructor
  case value =>
    simp only [BitVec.toNat_add, BitVec.toNat_setWidth, BitVec.toNat_ofBool]
    omega
  case cy => exact decide_eq_true_iff
  case ac => exact decide_eq_true_iff
  case shows => exact (Flags.shows_withResult flags _).congr rfl rfl rfl

theorem differs_subtract (flags : Flags) (minuend subtrahend : Byte) (borrow : Bool) :
    Differs minuend.toNat subtrahend.toNat borrow.toNat
      (subtract flags minuend subtrahend borrow).1
      (subtract flags minuend subtrahend borrow).2 := by
  rw [subtract_eq]
  constructor
  case value =>
    have hsubtrahend := subtrahend.isLt
    have hborrow := borrow.toNat_le
    simp only [BitVec.toNat_sub, BitVec.toNat_setWidth, BitVec.toNat_ofBool]
    omega
  case cy => exact decide_eq_true_iff
  case ac => exact decide_eq_true_iff
  case shows => exact (Flags.shows_withResult flags _).congr rfl rfl rfl

/-- A sum with its carry out is the whole sum. -/
theorem Sums.total {augend addend : Byte} {carry : Bool} {result : Byte} {flags : Flags}
    (h : Sums augend.toNat addend.toNat carry.toNat result flags) :
    result.toNat + 256 * flags.cy.toNat = augend.toNat + addend.toNat + carry.toNat := by
  have haugend := augend.isLt
  have haddend := addend.isLt
  have hcarry := carry.toNat_le
  have hvalue := h.value
  by_cases hcy : flags.cy = true
  · have hover := h.cy.mp hcy
    rw [hcy, Bool.toNat_true]
    omega
  · have hwithin := mt h.cy.mpr hcy
    rw [eq_false_of_ne_true hcy, Bool.toNat_false]
    omega

/-- A difference and what was taken away make up for the minuend and the borrow. -/
theorem Differs.total {minuend subtrahend : Byte} {borrow : Bool} {result : Byte} {flags : Flags}
    (h : Differs minuend.toNat subtrahend.toNat borrow.toNat result flags) :
    result.toNat + subtrahend.toNat + borrow.toNat = minuend.toNat + 256 * flags.cy.toNat := by
  have hminuend := minuend.isLt
  have hsubtrahend := subtrahend.isLt
  have hborrow := borrow.toNat_le
  have hvalue := h.value
  by_cases hcy : flags.cy = true
  · have hover := h.cy.mp hcy
    rw [hcy, Bool.toNat_true]
    omega
  · have hwithin := mt h.cy.mpr hcy
    rw [eq_false_of_ne_true hcy, Bool.toNat_false]
    omega

theorem combines_logic (flags : Flags) {combine : Bool → Bool → Bool} {first second result : Byte}
    (h : ∀ index < 8,
      result.getLsbD index = combine (first.getLsbD index) (second.getLsbD index)) :
    Combines combine first second (logic flags result).1 (logic flags result).2 where
  bits := h
  cy := rfl
  ac := rfl
  shows := Flags.shows_withResult _ result

theorem computes_apply (kind : Arithmetic) (flags : Flags) (a operand : Byte) :
    Computes kind a operand flags.cy (apply kind flags a operand).1
      (apply kind flags a operand).2 := by
  cases kind with
  | add => exact sums_add flags a operand false
  | adc => exact sums_add flags a operand flags.cy
  | sub => exact differs_subtract flags a operand false
  | sbb => exact differs_subtract flags a operand flags.cy
  | ana => exact combines_logic flags fun _ _ => BitVec.getLsbD_and
  | xra => exact combines_logic flags fun _ _ => BitVec.getLsbD_xor
  | ora => exact combines_logic flags fun _ _ => BitVec.getLsbD_or
  | cmp => exact ⟨rfl, _, differs_subtract flags a operand false⟩

/-- The nine bits of A and the carry go around in either direction. -/
theorem rotate_rar_ral (carry : Bool) (a : Byte) :
    rotate .rar (rotate .ral carry a).2 (rotate .ral carry a).1 = (a, carry) := by
  simp only [rotate, Prod.mk.injEq]
  constructor
  · apply BitVec.eq_of_getLsbD_eq
    intro index hindex
    by_cases hlast : index = 7
    · subst hlast
      simp
    · have hlower : 1 + index < 8 := by omega
      have hbelow : index < 7 := by omega
      simp [hlower, hbelow, hindex]
  · simp

theorem rotate_ral_rar (carry : Bool) (a : Byte) :
    rotate .ral (rotate .rar carry a).2 (rotate .rar carry a).1 = (a, carry) := by
  simp only [rotate, Prod.mk.injEq]
  constructor
  · apply BitVec.eq_of_getLsbD_eq
    intro index hindex
    cases index with
    | zero => simp
    | succ index =>
      have hbelow : index < 7 := by omega
      simp [hbelow, hindex, Nat.add_comm 1 index]
  · simp

theorem rotate_rrc_rlc (carry other : Bool) (a : Byte) :
    rotate .rrc other (rotate .rlc carry a).1 = (a, a.getLsbD 7) := by
  simp only [rotate, Prod.mk.injEq]
  constructor
  · apply BitVec.eq_of_getLsbD_eq
    intro index hindex
    by_cases hlast : index = 7
    · subst hlast
      simp
    · have hbelow : index < 7 := by omega
      simp [hbelow, hindex]
  · simp

end Alu

end Arcade8080
