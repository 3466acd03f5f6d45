import Arcade8080.Word

/-!
Parity of the low bits of a number. A mask keeps the bits that are asked for
and the ones among them are counted; parity is even when that count is even.
-/

namespace Arcade8080.Parity

/-- The lowest `size` bits set, all 32 of them from size 32 on. -/
def mask (size : Nat) : BitVec 32 :=
  if 32 ≤ size then BitVec.allOnes 32 else (1#32 <<< size) - 1#32

/-- How many bits are set. -/
def ones (value : BitVec 32) : Nat := (List.range 32).countP value.getLsbD

/-- Whether the lowest `size` bits hold an even number of ones. -/
def even (value : BitVec 32) (size : Nat) : Bool := ones (value &&& mask size) % 2 == 0

def evenByte (value : Byte) : Bool := even (value.setWidth 32) 8

end Arcade8080.Parity
