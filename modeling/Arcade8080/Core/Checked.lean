import Arcade8080.Alu.Checked
import Arcade8080.Core.Step
import Arcade8080.Operation.Table

/-!
The processor with every step that could go wrong left open: the routine comes from the
table and reads the opcode for itself, and the arithmetic is checked. Such a program has no
value where one of these has none, which is something else than a fault of memory. It turns
out to have a value always, the one that the processor gives.
-/

namespace Arcade8080.Core

variable {α β : Type}

/-- A value that may be missing, as a step of a program. -/
def demand (value : Option α) : OptionT Bus α := OptionT.mk (pure value)

@[simp] theorem demand_some (value : α) : demand (some value) = pure value := rfl

/-- The core after an instruction, as long as all of its arithmetic has a value. -/
def perform? (core : Core) (instruction : Instruction) : OptionT Bus Core :=
  let registers := core.registers
  let flags := core.flags
  match instruction.operation with
  | .inr target => do
    let value ← core.readOperand target
    let (result, flags) ← demand (Alu.increment? flags value)
    writeOperand { core with flags } target result
  | .dcr target => do
    let value ← core.readOperand target
    let (result, flags) ← demand (Alu.decrement? flags value)
    writeOperand { core with flags } target result
  | .dad source => do
    let (sum, carry) ← demand (Alu.addWords? registers.hl (core.wide source))
    return { core with
      registers := registers.setPair .hl sum
      flags := { flags with cy := carry } }
  | .arithmetic kind source => do
    let value ← core.readOperand source
    let (a, flags) ← demand (Alu.applyKind? kind flags registers.a value)
    return { core with registers := { registers with a }, flags }
  | .arithmeticImmediate kind => do
    let (a, flags) ← demand (Alu.applyKind? kind flags registers.a instruction.lo)
    return { core with registers := { registers with a }, flags }
  | .rotate kind => do
    let (a, carry) ← demand (Alu.rotate? kind flags.cy registers.a)
    return { core with registers := { registers with a }, flags := { flags with cy := carry } }
  | .daa => do
    let (a, flags) ← demand (Alu.decimalAdjust? flags registers.a)
    return { core with registers := { registers with a }, flags }
  | _ => core.perform instruction

/-- The routine in the table has to serve the opcode, and to make of it what it decodes to. -/
def execute? (core : Core) (instruction : Instruction) : OptionT Bus (StepOutcome × Core) := do
  core.announce instruction
  let entry := Operation.entry instruction.opcode
  let operation ← demand (entry.routine.operation? instruction.opcode)
  let after ←
    if operation = instruction.operation then
      perform? { core with pc := core.pc + BitVec.ofNat 16 entry.length } instruction
    else failure
  return (.executed instruction.opcode entry.length (core.portAccess? instruction), after)

/-- Fetching by the lengths that the table has. -/
def fetch? (core : Core) : OptionT Bus Instruction := do
  let opcode ← Bus.load core.pc
  let length := (Operation.entry opcode).length
  let lo ← if 1 < length then Bus.load (core.pc + 1) else pure 0
  let hi ← if 2 < length then Bus.load (core.pc + 2) else pure 0
  return ⟨opcode, lo, hi⟩

def step? (core : Core) (request : Option Restart) : OptionT Bus (StepOutcome × Core) := do
  match request with
  | none =>
    let instruction ← core.fetch?
    core.execute? instruction
  | some number =>
    if core.interruptsEnabled then
      let after ← core.enterHandler number
      return (.interrupted number, after)
    else
      Bus.emit (.requestDropped number)
      let instruction ← core.fetch?
      core.execute? instruction

theorem perform?_eq (core : Core) (instruction : Instruction) :
    core.perform? instruction = liftM (core.perform instruction) := by
  simp only [perform?, perform]
  cases instruction.operation with
  | inr target | dcr target => simp
  | dad source | arithmetic kind source => simp
  | arithmeticImmediate kind | rotate kind | daa => simp
  | _ => rfl

theorem execute?_eq (core : Core) (instruction : Instruction) :
    core.execute? instruction = liftM (core.execute instruction) := by
  obtain ⟨hoperation, hlength⟩ := Operation.entry_spec instruction.opcode
  simp only [execute?, execute, hoperation, hlength, demand_some, pure_bind, perform?_eq]
  simp [Instruction.operation]

theorem fetch?_eq (core : Core) : core.fetch? = liftM core.fetch := by
  have hlength (opcode : Byte) := (Operation.entry_spec opcode).2
  simp only [fetch?, hlength, fetch, liftM_bind]
  apply bind_congr
  intro opcode
  by_cases htwo : 1 < (Operation.decode opcode).length <;>
    by_cases hthree : 2 < (Operation.decode opcode).length <;>
      simp [htwo, hthree]

theorem step?_eq (core : Core) (request : Option Restart) :
    core.step? request = liftM (core.step request) := by
  cases request with
  | none => simp [step?, step, fetch?_eq, execute?_eq]
  | some number =>
    simp only [step?, step, fetch?_eq, execute?_eq]
    split <;> simp

end Arcade8080.Core
