import Arcade8080.Alu

/-!
Arithmetic that has no value where it goes out of range: where a sum does not fit its
width, a difference is below zero, or a shift is as long as the number is wide. The
arithmetic unit, formed from these steps, always has a value, and it is the one that
unchecked arithmetic gives.
-/

namespace Arcade8080

namespace Checked

variable {width : Nat}

def add (augend addend : BitVec width) : Option (BitVec width) :=
  if BitVec.uaddOverflow augend addend then none else some (augend + addend)

def sub (minuend subtrahend : BitVec width) : Option (BitVec width) :=
  if BitVec.usubOverflow minuend subtrahend then none else some (minuend - subtrahend)

def shiftLeft (value : BitVec width) (count : Nat) : Option (BitVec width) :=
  if count < width then some (value <<< count) else none

def shiftRight (value : BitVec width) (count : Nat) : Option (BitVec width) :=
  if count < width then some (value >>> count) else none

example : add 0xFFFF#16 1 = none ∧ sub 0#8 1 = none ∧ shiftLeft 1#32 32 = none := by decide

theorem add_eq_some {augend addend : BitVec width}
    (h : (augend + addend).toNat = augend.toNat + addend.toNat) :
    add augend addend = some (augend + addend) := by
  have hfits := (augend + addend).isLt
  rw [h] at hfits
  rw [add, if_neg]
  simp [BitVec.uaddOverflow, hfits]

theorem sub_eq_some {minuend subtrahend : BitVec width}
    (h : subtrahend.toNat ≤ minuend.toNat) :
    sub minuend subtrahend = some (minuend - subtrahend) := by
  simp [sub, BitVec.usubOverflow, h]

@[simp] theorem shiftLeft_eq_some {count : Nat} (h : count < width) (value : BitVec width) :
    shiftLeft value count = some (value <<< count) := if_pos h

@[simp] theorem shiftRight_eq_some {count : Nat} (h : count < width) (value : BitVec width) :
    shiftRight value count = some (value >>> count) := if_pos h

end Checked

namespace Parity

/-- Parity of the lowest `size` bits, with a mask that is made by a shift and a difference. -/
def even? (value size : BitVec 32) : Option Bool := do
  let mask ←
    if 32 ≤ size.toNat then some (BitVec.allOnes 32)
    else do
      let bit ← Checked.shiftLeft 1#32 size.toNat
      Checked.sub bit 1#32
  return ones (value &&& mask) % 2 == 0

theorem even?_eq (value size : BitVec 32) : even? value size = some (even value size.toNat) := by
  simp only [even?, even, mask]
  split
  · rfl
  · have hsize : size.toNat < 32 := by omega
    have hbit : (1#32).toNat ≤ (1#32 <<< size.toNat).toNat := by
      rw [BitVec.toNat_shiftLeft, BitVec.toNat_ofNat, Nat.mod_eq_of_lt (by decide),
        Nat.one_shiftLeft, Nat.mod_eq_of_lt (Nat.pow_lt_pow_right (by decide) hsize)]
      exact Nat.one_le_two_pow
    rw [Checked.shiftLeft_eq_some hsize]
    simp only [Option.bind_eq_bind, Option.bind_some]
    rw [Checked.sub_eq_some hbit]
    rfl

end Parity

namespace Flags

def withResult? (flags : Flags) (value : Byte) : Option Flags := do
  let p ← Parity.even? (value.setWidth 32) 8#32
  return { flags with z := value == 0, s := value.getLsbD 7, p }

def withLogic? (flags : Flags) (value : Byte) : Option Flags :=
  { flags with cy := false, ac := false }.withResult? value

def withSum? (flags : Flags) (sum : BitVec 16) : Option Flags :=
  { flags with cy := 0xFF#16 < sum }.withResult? (sum.setWidth 8)

@[simp] theorem withResult?_eq (flags : Flags) (value : Byte) :
    flags.withResult? value = some (flags.withResult value) := by
  rw [withResult?, Parity.even?_eq]
  rfl

@[simp] theorem withLogic?_eq (flags : Flags) (value : Byte) :
    flags.withLogic? value = some (flags.withLogic value) := withResult?_eq _ value

@[simp] theorem withSum?_eq (flags : Flags) (sum : BitVec 16) :
    flags.withSum? sum = some (flags.withSum sum) := withResult?_eq _ _

end Flags

namespace Alu

def add? (flags : Flags) (augend addend : Byte) (carry : Bool) : Option (Byte × Flags) := do
  let operands ← Checked.add (augend.setWidth 16) (addend.setWidth 16)
  let wide ← Checked.add operands ((BitVec.ofBool carry).setWidth 16)
  let sum := wide.setWidth 8
  let flags ← flags.withSum? wide
  return (sum, { flags with ac := halfCarry augend addend sum })

def subtract? (flags : Flags) (minuend subtrahend : Byte) (borrow : Bool) :
    Option (Byte × Flags) := do
  let (difference, after) ← add? flags minuend (~~~subtrahend) (!borrow)
  return (difference, { after with cy := !after.cy })

def logic? (flags : Flags) (result : Byte) : Option (Byte × Flags) := do
  return (result, ← flags.withLogic? result)

def applyKind? (kind : Arithmetic) (flags : Flags) (a operand : Byte) : Option (Byte × Flags) :=
  match kind with
  | .add => add? flags a operand false
  | .adc => add? flags a operand flags.cy
  | .sub => subtract? flags a operand false
  | .sbb => subtract? flags a operand flags.cy
  | .ana => logic? flags (a &&& operand)
  | .xra => logic? flags (a ^^^ operand)
  | .ora => logic? flags (a ||| operand)
  | .cmp => do
    let (_, after) ← subtract? flags a operand false
    return (a, after)

def increment? (flags : Flags) (value : Byte) : Option (Byte × Flags) := do
  let result := value + 1
  let flags ← flags.withResult? result
  return (result, { flags with ac := result &&& 0x0F == 0 })

def decrement? (flags : Flags) (value : Byte) : Option (Byte × Flags) := do
  let result := value - 1
  let flags ← flags.withResult? result
  return (result, { flags with ac := result &&& 0x0F != 0x0F })

def addWords? (augend addend : Word) : Option (Word × Bool) := do
  let wide ← Checked.add (augend.setWidth 32) (addend.setWidth 32)
  return (wide.setWidth 16, 0xFFFF#32 < wide)

def decimalAdjust? (flags : Flags) (a : Byte) : Option (Byte × Flags) := do
  let low := a &&& 0x0F
  let high ← Checked.shiftRight a 4
  let lowPast := low > 9 || flags.ac
  let highPast := high > 9 || flags.cy || (high ≥ 9 && low > 9)
  let correction : Byte := (if lowPast then 0x06 else 0) ||| (if highPast then 0x60 else 0)
  let (result, after) ← add? flags a correction false
  return (result, { after with cy := highPast })

def rotate? (kind : Rotation) (carry : Bool) (a : Byte) : Option (Byte × Bool) :=
  match kind with
  | .rlc => some (a.rotateLeft 1, a.getLsbD 7)
  | .rrc => some (a.rotateRight 1, a.getLsbD 0)
  | .ral => do
    let shifted ← Checked.shiftLeft a 1
    return (shifted ||| (BitVec.ofBool carry).setWidth 8, a.getLsbD 7)
  | .rar => do
    let shifted ← Checked.shiftRight a 1
    let top ← Checked.shiftLeft ((BitVec.ofBool carry).setWidth 8) 7
    return (shifted ||| top, a.getLsbD 0)

/-- Two bytes and a carry are a sum of nine bits, and seven more are to spare. -/
@[simp] theorem add?_eq (flags : Flags) (augend addend : Byte) (carry : Bool) :
    add? flags augend addend carry = some (add flags augend addend carry) := by
  have hoperands : (augend.setWidth 16 + addend.setWidth 16).toNat =
      (augend.setWidth 16).toNat + (addend.setWidth 16).toNat := by
    simp only [BitVec.toNat_add, BitVec.toNat_setWidth]
    omega
  have hcarry : (augend.setWidth 16 + addend.setWidth 16 +
      (BitVec.ofBool carry).setWidth 16).toNat =
        (augend.setWidth 16 + addend.setWidth 16).toNat +
          ((BitVec.ofBool carry).setWidth 16).toNat := by
    simp only [BitVec.toNat_add, BitVec.toNat_setWidth]
    omega
  rw [add?, Checked.add_eq_some hoperands, Option.bind_eq_bind, Option.bind_some,
    Checked.add_eq_some hcarry]
  simp only [Option.bind_eq_bind, Option.bind_some, Flags.withSum?_eq]
  rfl

@[simp] theorem subtract?_eq (flags : Flags) (minuend subtrahend : Byte) (borrow : Bool) :
    subtract? flags minuend subtrahend borrow =
      some (subtract flags minuend subtrahend borrow) := by
  rw [subtract?, add?_eq]
  rfl

@[simp] theorem logic?_eq (flags : Flags) (result : Byte) :
    logic? flags result = some (logic flags result) := by
  rw [logic?, Flags.withLogic?_eq]
  rfl

@[simp] theorem applyKind?_eq (kind : Arithmetic) (flags : Flags) (a operand : Byte) :
    applyKind? kind flags a operand = some (apply kind flags a operand) := by
  cases kind with
  | add | adc => exact add?_eq flags a operand _
  | sub | sbb => exact subtract?_eq flags a operand _
  | ana | xra | ora => exact logic?_eq flags _
  | cmp =>
    rw [applyKind?, subtract?_eq]
    rfl

@[simp] theorem increment?_eq (flags : Flags) (value : Byte) :
    increment? flags value = some (increment flags value) := by
  simp only [increment?, Flags.withResult?_eq]
  rfl

@[simp] theorem decrement?_eq (flags : Flags) (value : Byte) :
    decrement? flags value = some (decrement flags value) := by
  simp only [decrement?, Flags.withResult?_eq]
  rfl

@[simp] theorem addWords?_eq (augend addend : Word) :
    addWords? augend addend = some (addWords augend addend) := by
  have hsum : (augend.setWidth 32 + addend.setWidth 32).toNat =
      (augend.setWidth 32).toNat + (addend.setWidth 32).toNat := by
    simp only [BitVec.toNat_add, BitVec.toNat_setWidth]
    omega
  rw [addWords?, Checked.add_eq_some hsum]
  rfl

@[simp] theorem decimalAdjust?_eq (flags : Flags) (a : Byte) :
    decimalAdjust? flags a = some (decimalAdjust flags a) := by
  rw [decimalAdjust?, Checked.shiftRight_eq_some (by decide)]
  simp only [Option.bind_eq_bind, Option.bind_some, add?_eq]
  rfl

@[simp] theorem rotate?_eq (kind : Rotation) (carry : Bool) (a : Byte) :
    rotate? kind carry a = some (rotate kind carry a) := by
  cases kind <;> rfl

end Alu

end Arcade8080
