import Arcade8080.Text.Hex
import Arcade8080.Window

/-!
Why a memory access fails. Unassigned opcodes are no faults: they run as
instructions that do nothing.
-/

namespace Arcade8080

inductive Fault where
  /-- There is no memory yet. -/
  | unallocated
  /-- The address is past the end of memory, which has `size` bytes. -/
  | outOfBounds (addr size : Nat)
  deriving DecidableEq

namespace Fault

/-- The fault of reaching for `count` bytes from `start` up. It names the last of
them, as far as a host can name addresses. -/
def pastEnd (start count size : Nat) : Fault :=
  .outOfBounds (min (start + (count - 1)) Address.last) size

def message : Fault → String
  | .unallocated => "memory accessed before it was allocated"
  | .outOfBounds addr size =>
    "memory access at 0x" ++ Text.Hex.padded 4 addr ++ " is out of bounds ("
      ++ toString size ++ " bytes allocated)"

end Fault

end Arcade8080
