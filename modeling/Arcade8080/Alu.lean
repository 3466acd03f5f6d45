import Arcade8080.Operation

/-!
Arithmetic on bytes and words. Each function takes the operands and the flags
before it, and gives the result with the flags after it. Sums are formed at
twice the width of their operands, so that no carry is lost.
-/

namespace Arcade8080.Alu

/-- The carry into bit 4: where it is set, the sum differs there from what the
operands alone would give. -/
def halfCarry (augend addend sum : Byte) : Bool := (augend ^^^ addend ^^^ sum).getLsbD 4

def add (flags : Flags) (augend addend : Byte) (carry : Bool) : Byte × Flags :=
  let wide := augend.setWidth 16 + addend.setWidth 16 + (BitVec.ofBool carry).setWidth 16
  let sum := wide.setWidth 8
  (sum, { flags.withSum wide with ac := halfCarry augend addend sum })

/-- Adds the complement. That carries out exactly when nothing is borrowed, so
the carry flag is the opposite of the carry. -/
def subtract (flags : Flags) (minuend subtrahend : Byte) (borrow : Bool) : Byte × Flags :=
  let (difference, after) := add flags minuend (~~~subtrahend) (!borrow)
  (difference, { after with cy := !after.cy })

def logic (flags : Flags) (result : Byte) : Byte × Flags := (result, flags.withLogic result)

/-- What A becomes. A comparison subtracts for the flags alone. -/
def apply (kind : Arithmetic) (flags : Flags) (a operand : Byte) : Byte × Flags :=
  match kind with
  | .add => add flags a operand false
  | .adc => add flags a operand flags.cy
  | .sub => subtract flags a operand false
  | .sbb => subtract flags a operand flags.cy
  | .ana => logic flags (a &&& operand)
  | .xra => logic flags (a ^^^ operand)
  | .ora => logic flags (a ||| operand)
  | .cmp => (a, (subtract flags a operand false).2)

/-- Carry stays; the auxiliary carry shows that the low digit wrapped to 0. -/
def increment (flags : Flags) (value : Byte) : Byte × Flags :=
  let result := value + 1
  (result, { flags.withResult result with ac := result &&& 0x0F == 0 })

/-- Carry stays; the auxiliary carry shows that the low digit borrowed nothing. -/
def decrement (flags : Flags) (value : Byte) : Byte × Flags :=
  let result := value - 1
  (result, { flags.withResult result with ac := result &&& 0x0F != 0x0F })

/-- The sum of two words and the carry out of it. -/
def addWords (augend addend : Word) : Word × Bool :=
  let wide := augend.setWidth 32 + addend.setWidth 32
  (wide.setWidth 16, 0xFFFF#32 < wide)

/-- Turns the sum of two packed decimal bytes into packed decimal: a digit that
went past 9 gets the 6 it needs to carry. -/
def decimalAdjust (flags : Flags) (a : Byte) : Byte × Flags :=
  let low := a &&& 0x0F
  let high := a >>> 4
  let lowPast := low > 9 || flags.ac
  let highPast := high > 9 || flags.cy || (high ≥ 9 && low > 9)
  let correction : Byte := (if lowPast then 0x06 else 0) ||| (if highPast then 0x60 else 0)
  let (result, after) := add flags a correction false
  (result, { after with cy := highPast })

/-- A after a rotation, and the bit that left it. RLC and RRC put that bit back
in at the other end, RAL and RAR put the old carry there. -/
def rotate (kind : Rotation) (carry : Bool) (a : Byte) : Byte × Bool :=
  match kind with
  | .rlc => (a.rotateLeft 1, a.getLsbD 7)
  | .rrc => (a.rotateRight 1, a.getLsbD 0)
  | .ral => ((a <<< 1) ||| (BitVec.ofBool carry).setWidth 8, a.getLsbD 7)
  | .rar => ((a >>> 1) ||| (BitVec.ofBool carry).setWidth 8 <<< 7, a.getLsbD 0)

end Arcade8080.Alu
