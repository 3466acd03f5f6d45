import Arcade8080.Operation

/-!
The processor without its memory: registers, flags, program counter, stack
pointer and the interrupt enable, and the word operands among these.
-/

namespace Arcade8080

structure Core where
  registers : Registers := {}
  flags : Flags := {}
  pc : Word := 0
  sp : Word := 0
  interruptsEnabled : Bool := false
  deriving DecidableEq

namespace Core

def wide (core : Core) : WideOperand → Word
  | .pair name => core.registers.pair name
  | .sp => core.sp

def setWide (core : Core) (target : WideOperand) (value : Word) : Core :=
  match target with
  | .pair name => { core with registers := core.registers.setPair name value }
  | .sp => { core with sp := value }

/-- A is the high half of the status word, the packed flags are the low one. -/
def stackOperand (core : Core) : StackOperand → Word
  | .pair name => core.registers.pair name
  | .psw => Word.ofBytes core.registers.a core.flags.toByte

def setStackOperand (core : Core) (target : StackOperand) (value : Word) : Core :=
  match target with
  | .pair name => { core with registers := core.registers.setPair name value }
  | .psw =>
    { core with
      registers := { core.registers with a := Word.high value }
      flags := Flags.ofByte (Word.low value) }

end Core

end Arcade8080
