import Arcade8080.Core
import Arcade8080.Text.Hex

/-!
The registers and the flags as one line of text each. Every field has a fixed
width, so that lines compare column by column.
-/

namespace Arcade8080

open Text

def Registers.statusLine (registers : Registers) : String :=
  "A=" ++ Hex.fixed 2 registers.a.toNat
    ++ " B=" ++ Hex.fixed 2 registers.b.toNat
    ++ " C=" ++ Hex.fixed 2 registers.c.toNat
    ++ " D=" ++ Hex.fixed 2 registers.d.toNat
    ++ " E=" ++ Hex.fixed 2 registers.e.toNat
    ++ " H=" ++ Hex.fixed 2 registers.h.toNat
    ++ " L=" ++ Hex.fixed 2 registers.l.toNat

def Flags.statusLine (flags : Flags) : String :=
  let bit (set : Bool) : String := if set then "1" else "0"
  "Z=" ++ bit flags.z ++ " S=" ++ bit flags.s ++ " P=" ++ bit flags.p
    ++ " CY=" ++ bit flags.cy ++ " AC=" ++ bit flags.ac

/-- The registers with stack pointer and program counter. -/
def Core.statusLine (core : Core) : String :=
  core.registers.statusLine ++ " SP=" ++ Hex.fixed 4 core.sp.toNat
    ++ " PC=" ++ Hex.fixed 4 core.pc.toNat

end Arcade8080
