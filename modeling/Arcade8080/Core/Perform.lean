import Arcade8080.Alu
import Arcade8080.Bus
import Arcade8080.Core
import Arcade8080.Instruction

/-!
The effect of each instruction as one transaction: what it asks of memory, and the
core that it ends with if it is granted all of that. `perform` works on a core whose
program counter already stands behind the instruction, so what it pushes is the return
address, and only transfers of control mention the counter at all.

`Cpu.Routine.perform` is how the processor goes about it, one assignment after the
other; `Cpu.Transact` proves that both come to the same.
-/

namespace Arcade8080.Core

def readOperand (core : Core) : Operand → Bus Byte
  | .register name => return core.registers.get name
  | .memory => Bus.load core.registers.hl

def writeOperand (core : Core) (target : Operand) (value : Byte) : Bus Core :=
  match target with
  | .register name => return { core with registers := core.registers.set name value }
  | .memory => do
    Bus.store core.registers.hl value
    return core

/-- A word in memory, low byte first; addresses wrap at the end of the space. -/
def loadWord (addr : Word) : Bus Word := do
  let low ← Bus.load addr
  let high ← Bus.load (addr + 1)
  return Word.ofBytes high low

def storeWord (addr value : Word) : Bus Unit := do
  Bus.store addr (Word.low value)
  Bus.store (addr + 1) (Word.high value)

/-- The stack grows down. Its pointer moves once both bytes are stored. -/
def push (core : Core) (value : Word) : Bus Core := do
  let sp := core.sp - 2
  storeWord sp value
  return { core with sp }

def pop (core : Core) : Bus (Word × Core) := do
  let value ← loadWord core.sp
  return (value, { core with sp := core.sp + 2 })

/-- Goes to `target` and leaves the program counter on the stack. -/
def call (core : Core) (target : Word) : Bus Core := do
  let core ← core.push core.pc
  return { core with pc := target }

def ret (core : Core) : Bus Core := do
  let (target, core) ← core.pop
  return { core with pc := target }

/-- The core after an instruction, given the core that has moved past it. -/
def perform (core : Core) (instruction : Instruction) : Bus Core :=
  let registers := core.registers
  let flags := core.flags
  match instruction.operation with
  | .nop | .hlt | .unassigned | .input | .output => return core
  | .mov target source => do
    let value ← core.readOperand source
    core.writeOperand target value
  | .mvi target => core.writeOperand target instruction.lo
  | .lxi target => return core.setWide target instruction.word
  | .stax pointer => do
    Bus.store (registers.pair pointer.pair) registers.a
    return core
  | .ldax pointer => do
    let value ← Bus.load (registers.pair pointer.pair)
    return { core with registers := { registers with a := value } }
  | .sta => do
    Bus.store instruction.word registers.a
    return core
  | .lda => do
    let value ← Bus.load instruction.word
    return { core with registers := { registers with a := value } }
  | .shld => do
    storeWord instruction.word registers.hl
    return core
  | .lhld => do
    let value ← loadWord instruction.word
    return { core with registers := registers.setPair .hl value }
  | .xchg =>
    return { core with
      registers := (registers.setPair .de registers.hl).setPair .hl registers.de }
  | .inr target => do
    let value ← core.readOperand target
    let (result, flags) := Alu.increment flags value
    writeOperand { core with flags } target result
  | .dcr target => do
    let value ← core.readOperand target
    let (result, flags) := Alu.decrement flags value
    writeOperand { core with flags } target result
  | .inx target => return core.setWide target (core.wide target + 1)
  | .dcx target => return core.setWide target (core.wide target - 1)
  | .dad source =>
    let (sum, carry) := Alu.addWords registers.hl (core.wide source)
    return { core with
      registers := registers.setPair .hl sum
      flags := { flags with cy := carry } }
  | .arithmetic kind source => do
    let value ← core.readOperand source
    let (a, flags) := Alu.apply kind flags registers.a value
    return { core with registers := { registers with a }, flags }
  | .arithmeticImmediate kind =>
    let (a, flags) := Alu.apply kind flags registers.a instruction.lo
    return { core with registers := { registers with a }, flags }
  | .rotate kind =>
    let (a, carry) := Alu.rotate kind flags.cy registers.a
    return { core with registers := { registers with a }, flags := { flags with cy := carry } }
  | .daa =>
    let (a, flags) := Alu.decimalAdjust flags registers.a
    return { core with registers := { registers with a }, flags }
  | .cma => return { core with registers := { registers with a := ~~~registers.a } }
  | .stc => return { core with flags := { flags with cy := true } }
  | .cmc => return { core with flags := { flags with cy := !flags.cy } }
  | .jump => return { core with pc := instruction.word }
  | .jumpIf condition =>
    if condition.holds flags then return { core with pc := instruction.word } else return core
  | .call => core.call instruction.word
  | .callIf condition =>
    if condition.holds flags then core.call instruction.word else return core
  | .ret => core.ret
  | .retIf condition => if condition.holds flags then core.ret else return core
  | .rst number => core.call number.address
  | .pchl => return { core with pc := registers.hl }
  | .push source => core.push (core.stackOperand source)
  | .pop target => do
    let (value, core) ← core.pop
    return core.setStackOperand target value
  | .xthl => do
    let value ← loadWord core.sp
    storeWord core.sp registers.hl
    return { core with registers := registers.setPair .hl value }
  | .sphl => return { core with sp := registers.hl }
  | .ei => return { core with interruptsEnabled := true }
  | .di => return { core with interruptsEnabled := false }

end Arcade8080.Core
