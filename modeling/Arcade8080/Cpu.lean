import Arcade8080.Cpu.Routine

/-!
What whoever holds a processor can have it do. What fails leaves a processor as well,
the one that its routine has got to.
-/

namespace Arcade8080.Cpu

/-- Fetches and executes one instruction, or delivers the pending request. In
either case nothing is pending afterwards. -/
def step (cpu : Cpu) : Attempt Cpu StepOutcome := Routine.step cpu

/-- Executes an instruction as if it had been fetched. -/
def execute (cpu : Cpu) (instruction : Instruction) : Attempt Cpu StepOutcome :=
  Routine.execute instruction cpu

def push (cpu : Cpu) (value : Word) : Attempt Cpu Unit := Routine.push value cpu

def pop (cpu : Cpu) : Attempt Cpu Word := Routine.pop cpu

def readByte (cpu : Cpu) (addr : Word) : Except Fault Byte := cpu.memory.read addr.toNat

def writeByte (cpu : Cpu) (addr : Word) (value : Byte) : Attempt Cpu Unit :=
  Routine.store addr value cpu

end Arcade8080.Cpu
