import Arcade8080.Parity

/-!
The five condition flags and the three ways an instruction sets them from a
result. In memory the flags are packed into the low five bits of a status
byte; unpacking ignores the other three.
-/

namespace Arcade8080

structure Flags where
  /-- Zero. -/
  z : Bool := false
  /-- Sign. -/
  s : Bool := false
  /-- Even parity. -/
  p : Bool := false
  /-- Carry. -/
  cy : Bool := false
  /-- Auxiliary carry, out of bit 3. -/
  ac : Bool := false
  deriving DecidableEq

namespace Flags

/-- Z, S and P of a byte. Both carries stay. -/
def withResult (flags : Flags) (value : Byte) : Flags :=
  { flags with z := value == 0, s := value.getLsbD 7, p := Parity.evenByte value }

/-- Flags of a bitwise result, which has no carries. -/
def withLogic (flags : Flags) (value : Byte) : Flags :=
  { flags with cy := false, ac := false }.withResult value

/-- Flags of a sum that was formed at twice its width, so that the carry out of
bit 7 is still visible. The auxiliary carry stays: only the operands show it. -/
def withSum (flags : Flags) (sum : BitVec 16) : Flags :=
  { flags with cy := 0xFF#16 < sum }.withResult (sum.setWidth 8)

/-- The status byte: Z, S, P, CY and AC from bit 0 up. -/
def toByte (flags : Flags) : Byte :=
  (BitVec.ofBool flags.z).setWidth 8
    ||| (BitVec.ofBool flags.s).setWidth 8 <<< 1
    ||| (BitVec.ofBool flags.p).setWidth 8 <<< 2
    ||| (BitVec.ofBool flags.cy).setWidth 8 <<< 3
    ||| (BitVec.ofBool flags.ac).setWidth 8 <<< 4

def ofByte (status : Byte) : Flags where
  z := status.getLsbD 0
  s := status.getLsbD 1
  p := status.getLsbD 2
  cy := status.getLsbD 3
  ac := status.getLsbD 4

@[simp] theorem ofByte_toByte (flags : Flags) : ofByte flags.toByte = flags := by
  obtain ⟨z, s, p, cy, ac⟩ := flags
  cases z <;> cases s <;> cases p <;> cases cy <;> cases ac <;> rfl

/-- Packing what was unpacked clears the three unused bits. -/
theorem toByte_ofByte (status : Byte) : (ofByte status).toByte = status &&& 0x1F#8 := by
  revert status
  decide

end Flags

end Arcade8080
