import Arcade8080.Core.Step

/-!
Which addresses a step uses: the bytes of the instruction itself, and those
where the instruction finds or leaves data. They are told from the registers and
from the instruction, without running it.
-/

namespace Arcade8080

/-- The bytes of an instruction stand in memory from an address up, which wraps
as words do. Nothing is asked about operand bytes that the operation lacks. -/
structure Instruction.StandsAt (instruction : Instruction) (memory : Memory) (addr : Word) :
    Prop where
  opcode : memory.byte? addr.toNat = some instruction.opcode
  lo : 1 < instruction.operation.length → memory.byte? (addr + 1).toNat = some instruction.lo
  hi : 2 < instruction.operation.length → memory.byte? (addr + 2).toNat = some instruction.hi

namespace Core

/-- How many bytes the instruction at the program counter takes: one, where there
is no opcode to say more. -/
def codeLength (core : Core) (memory : Memory) : Nat :=
  match memory.byte? core.pc.toNat with
  | some opcode => (Operation.decode opcode).length
  | none => 1

/-- Where the bytes of the instruction at the program counter are, in order. -/
def codeAddrs (core : Core) (memory : Memory) : List Word :=
  [core.pc, core.pc + 1, core.pc + 2].take (core.codeLength memory)

/-- The first byte of the instruction at the program counter that memory lacks. -/
def missing? (core : Core) (memory : Memory) : Option Word :=
  (core.codeAddrs memory).find? fun addr => memory.size ≤ addr.toNat

def operandAddrs (core : Core) : Operand → List Word
  | .register _ => []
  | .memory => [core.registers.hl]

/-- Where the next word goes that is put on the stack. -/
def pushAddrs (core : Core) : List Word := [core.sp - 2, core.sp - 1]

/-- Where the word on top of the stack is. -/
def popAddrs (core : Core) : List Word := [core.sp, core.sp + 1]

/-- Where an instruction finds or leaves data, in the order in which it gets there. -/
def dataAddrs (core : Core) (instruction : Instruction) : List Word :=
  match instruction.operation with
  | .mov target source => core.operandAddrs source ++ core.operandAddrs target
  | .mvi target | .inr target | .dcr target => core.operandAddrs target
  | .arithmetic _ source => core.operandAddrs source
  | .stax pointer | .ldax pointer => [core.registers.pair pointer.pair]
  | .sta | .lda => [instruction.word]
  | .shld | .lhld => [instruction.word, instruction.word + 1]
  | .push _ | .call | .rst _ => core.pushAddrs
  | .callIf condition => if condition.holds core.flags then core.pushAddrs else []
  | .pop _ | .ret | .xthl => core.popAddrs
  | .retIf condition => if condition.holds core.flags then core.popAddrs else []
  | _ => []

/-- Every address that a step uses. The delivery of a request uses the stack
alone, and an instruction whose bytes are not all there gets to no data. -/
def footprint (core : Core) (request : Option Restart) (memory : Memory) : List Word :=
  if request.isSome && core.interruptsEnabled then core.pushAddrs
  else
    core.codeAddrs memory ++
      match (core.fetch.run memory).result with
      | .ok instruction => core.dataAddrs instruction
      | .error _ => []

end Core

end Arcade8080
