import Arcade8080.Core.Perform
import Arcade8080.Outcome

/-!
One step of the processor: fetch and execute, or deliver an interrupt. Fetching
reads the operand bytes that the operation has and no others, so an instruction
may end on the last byte of memory. As in `Core.Perform`, a step is one transaction here.
-/

namespace Arcade8080

namespace Core

/-- The port that an instruction addresses, with what it sends there. -/
def portAccess? (core : Core) (instruction : Instruction) : Option PortAccess :=
  match instruction.operation with
  | .input => some (.input instruction.lo)
  | .output => some (.output instruction.lo core.registers.a)
  | _ => none

/-- Records that an instruction leaves before it has any effect. -/
def announce (core : Core) (instruction : Instruction) : Bus Unit := do
  Bus.emit (.executing core.pc instruction.opcode)
  match instruction.operation with
  | .hlt => Bus.emit (.haltPassed core.pc)
  | .unassigned => Bus.emit (.unassignedOpcode instruction.opcode core.pc)
  | _ => return ()

/-- Executes an instruction as if it stood at the program counter. -/
def execute (core : Core) (instruction : Instruction) : Bus (StepOutcome × Core) := do
  core.announce instruction
  let length := instruction.operation.length
  let after ← perform { core with pc := core.pc + BitVec.ofNat 16 length } instruction
  return (.executed instruction.opcode length (core.portAccess? instruction), after)

/-- Reads the instruction at the program counter, and no byte past it. -/
def fetch (core : Core) : Bus Instruction := do
  let opcode ← Bus.load core.pc
  let length := (Operation.decode opcode).length
  let lo ← if 1 < length then Bus.load (core.pc + 1) else pure 0
  let hi ← if 2 < length then Bus.load (core.pc + 2) else pure 0
  return ⟨opcode, lo, hi⟩

/-- Enters the handler of a restart, as if the program had called it between two
instructions. Interrupts stay disabled until the handler enables them. -/
def enterHandler (core : Core) (number : Restart) : Bus Core := do
  let after ← core.call number.address
  Bus.emit (.requestTaken number core.pc)
  return { after with interruptsEnabled := false }

/-- One step: delivers the request that is due, or else runs one instruction. A
request that comes while interrupts are disabled is lost. -/
def step (core : Core) (request : Option Restart) : Bus (StepOutcome × Core) := do
  match request with
  | none =>
    let instruction ← core.fetch
    core.execute instruction
  | some number =>
    if core.interruptsEnabled then
      let after ← core.enterHandler number
      return (.interrupted number, after)
    else
      Bus.emit (.requestDropped number)
      let instruction ← core.fetch
      core.execute instruction

end Core

end Arcade8080
