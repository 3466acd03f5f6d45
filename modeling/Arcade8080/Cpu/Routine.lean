import Arcade8080.Alu
import Arcade8080.Cpu.State
import Arcade8080.Instruction
import Arcade8080.Outcome

/-!
The processor at work. A routine works on the processor in place, one access and
one assignment after the other, in the order of its text. Where an access fails it
stops, and what it has done until then stays done.
-/

namespace Arcade8080.Cpu

def Routine (α : Type) : Type := Cpu → Attempt Cpu α

/-- How an instruction leaves the program counter: behind itself, also if it has
addressed a port, or at a target. -/
inductive Flow where
  | next
  | jump (target : Word)
  | port (access : PortAccess)

namespace Routine

instance : Monad Routine where
  pure value cpu := .succeed value cpu
  bind first next cpu := (first cpu).andThen next

/-- The core as it is at this point. -/
def core : Routine Core := fun cpu => .succeed cpu.toCore cpu

def change (f : Core → Core) : Routine Unit := fun cpu =>
  .succeed () { cpu with toCore := f cpu.toCore }

def emit (record : Record) : Routine Unit := fun cpu => ⟨.ok (), cpu, [record]⟩

/-- Takes the pending request, so that there is none any more. -/
def takeRequest : Routine (Option Restart) := fun cpu =>
  .succeed cpu.pending { cpu with pending := none }

/-- Reads one byte. -/
def load (addr : Word) : Routine Byte := fun cpu =>
  match cpu.memory.read addr.toNat with
  | .ok byte => .succeed byte cpu
  | .error fault => .fail fault cpu

/-- Stores one byte through the window. -/
def store (addr : Word) (value : Byte) : Routine Unit
  | ⟨core, pending, memory, config⟩ =>
    match memory.write addr.toNat value with
    | ⟨result, memory, records⟩ => ⟨result, ⟨core, pending, memory, config⟩, records⟩

def readOperand : Operand → Routine Byte
  | .register name => return (← core).registers.get name
  | .memory => do load (← core).registers.hl

def writeOperand (target : Operand) (value : Byte) : Routine Unit :=
  match target with
  | .register name =>
    change fun core => { core with registers := core.registers.set name value }
  | .memory => do store (← core).registers.hl value

/-- The stack grows down. Its pointer moves once both bytes are stored. -/
def push (value : Word) : Routine Unit := do
  let sp := (← core).sp - 2
  store sp (Word.low value)
  store (sp + 1) (Word.high value)
  change fun core => { core with sp }

def pop : Routine Word := do
  let sp := (← core).sp
  let low ← load sp
  let high ← load (sp + 1)
  change fun core => { core with sp := sp + 2 }
  return Word.ofBytes high low

/-- Goes to `target` and leaves the address behind an instruction of `length` bytes
on the stack. -/
def call (length : Nat) (target : Word) : Routine Flow := do
  push ((← core).pc + BitVec.ofNat 16 length)
  return .jump target

def ret : Routine Flow := return .jump (← pop)

/-- The effect of an instruction, all but that on the program counter. -/
def perform (instruction : Instruction) : Routine Flow := do
  let ⟨registers, flags, pc, sp, _⟩ ← core
  match instruction.operation with
  | .nop => return .next
  | .hlt =>
    emit (.haltPassed pc)
    return .next
  | .unassigned =>
    emit (.unassignedOpcode instruction.opcode pc)
    return .next
  | .mov target source =>
    let value ← readOperand source
    writeOperand target value
    return .next
  | .mvi target =>
    writeOperand target instruction.lo
    return .next
  | .lxi target =>
    change (·.setWide target instruction.word)
    return .next
  | .stax pointer =>
    store (registers.pair pointer.pair) registers.a
    return .next
  | .ldax pointer =>
    let value ← load (registers.pair pointer.pair)
    change ({ · with registers.a := value })
    return .next
  | .sta =>
    store instruction.word registers.a
    return .next
  | .lda =>
    let value ← load instruction.word
    change ({ · with registers.a := value })
    return .next
  | .shld =>
    store instruction.word registers.l
    store (instruction.word + 1) registers.h
    return .next
  | .lhld =>
    let l ← load instruction.word
    let h ← load (instruction.word + 1)
    change ({ · with registers.l := l })
    change ({ · with registers.h := h })
    return .next
  | .xchg =>
    change ({ · with registers.d := registers.h, registers.h := registers.d })
    change ({ · with registers.e := registers.l, registers.l := registers.e })
    return .next
  | .inr target =>
    let value ← readOperand target
    let (result, flags) := Alu.increment flags value
    change ({ · with flags })
    writeOperand target result
    return .next
  | .dcr target =>
    let value ← readOperand target
    let (result, flags) := Alu.decrement flags value
    change ({ · with flags })
    writeOperand target result
    return .next
  | .inx target =>
    change fun core => core.setWide target (core.wide target + 1)
    return .next
  | .dcx target =>
    change fun core => core.setWide target (core.wide target - 1)
    return .next
  | .dad source =>
    let (sum, cy) := Alu.addWords registers.hl ((← core).wide source)
    change (·.setWide (.pair .hl) sum)
    change ({ · with flags.cy := cy })
    return .next
  | .arithmetic kind source =>
    let value ← readOperand source
    let (a, flags) := Alu.apply kind flags registers.a value
    change ({ · with registers.a := a, flags })
    return .next
  | .arithmeticImmediate kind =>
    let (a, flags) := Alu.apply kind flags registers.a instruction.lo
    change ({ · with registers.a := a, flags })
    return .next
  | .rotate kind =>
    let (a, cy) := Alu.rotate kind flags.cy registers.a
    change ({ · with registers.a := a })
    change ({ · with flags.cy := cy })
    return .next
  | .daa =>
    let (a, flags) := Alu.decimalAdjust flags registers.a
    change ({ · with registers.a := a, flags })
    return .next
  | .cma =>
    change ({ · with registers.a := ~~~registers.a })
    return .next
  | .stc =>
    change ({ · with flags.cy := true })
    return .next
  | .cmc =>
    change ({ · with flags.cy := !flags.cy })
    return .next
  | .jump => return .jump instruction.word
  | .jumpIf condition =>
    if condition.holds flags then return .jump instruction.word else return .next
  | .call => call 3 instruction.word
  | .callIf condition =>
    if condition.holds flags then call 3 instruction.word else return .next
  | .ret => ret
  | .retIf condition => if condition.holds flags then ret else return .next
  | .rst number => call 1 number.address
  | .pchl => return .jump registers.hl
  | .push source =>
    push ((← core).stackOperand source)
    return .next
  | .pop target =>
    let value ← pop
    change (·.setStackOperand target value)
    return .next
  | .xthl =>
    let low ← load sp
    let high ← load (sp + 1)
    store sp registers.l
    store (sp + 1) registers.h
    change ({ · with registers.h := high })
    change ({ · with registers.l := low })
    return .next
  | .sphl =>
    change ({ · with sp := registers.hl })
    return .next
  | .ei =>
    change ({ · with interruptsEnabled := true })
    return .next
  | .di =>
    change ({ · with interruptsEnabled := false })
    return .next
  | .input => return .port (.input instruction.lo)
  | .output => return .port (.output instruction.lo registers.a)

/-- Moves the program counter, at the end of an instruction of `length` bytes, and
gives the port that it addressed. -/
def follow (length : Nat) : Flow → Routine (Option PortAccess)
  | .next => do
    change fun core => { core with pc := core.pc + BitVec.ofNat 16 length }
    return none
  | .jump target => do
    change fun core => { core with pc := target }
    return none
  | .port access => do
    change fun core => { core with pc := core.pc + BitVec.ofNat 16 length }
    return some access

/-- Executes an instruction as if it stood at the program counter. -/
def execute (instruction : Instruction) : Routine StepOutcome := do
  emit (.executing (← core).pc instruction.opcode)
  let length := instruction.operation.length
  let flow ← perform instruction
  let port ← follow length flow
  return .executed instruction.opcode length port

/-- Reads the instruction at the program counter, and no byte past it. -/
def fetch : Routine Instruction := do
  let pc := (← core).pc
  let opcode ← load pc
  let length := (Operation.decode opcode).length
  let lo ← if 1 < length then load (pc + 1) else pure 0
  let hi ← if 2 < length then load (pc + 2) else pure 0
  return ⟨opcode, lo, hi⟩

/-- Enters the handler of a restart, as if the program had called it between two
instructions. Interrupts stay disabled until the handler enables them. -/
def enterHandler (number : Restart) : Routine Unit := do
  let pc := (← core).pc
  push pc
  change ({ · with pc := number.address })
  change ({ · with interruptsEnabled := false })
  emit (.requestTaken number pc)

/-- A step once the request that was pending has been taken: delivers it, or else runs
one instruction. A request that comes while interrupts are disabled is lost. -/
def proceed : Option Restart → Routine StepOutcome
  | none => do execute (← fetch)
  | some number => do
    if (← core).interruptsEnabled then
      enterHandler number
      return .interrupted number
    else
      emit (.requestDropped number)
      execute (← fetch)

def step : Routine StepOutcome := do proceed (← takeRequest)

end Routine

end Arcade8080.Cpu
