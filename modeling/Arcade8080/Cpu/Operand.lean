import Arcade8080.Core.Lemmas
import Arcade8080.Cpu.Place

/-!
Operands as bytes that are there or not, and what an instruction leaves that works on them. An
arithmetic instruction finds its operand on one of several routes; once it is found, nothing
more depends on the route than how far the program counter moves.
-/

namespace Arcade8080

/-- Where an arithmetic instruction finds its second operand. -/
inductive Route where
  | operand (source : Operand)
  /-- In the byte after the opcode. -/
  | immediate
  deriving DecidableEq

namespace Route

def operation (kind : Arithmetic) : Route → Operation
  | .operand source => .arithmetic kind source
  | .immediate => .arithmeticImmediate kind

def length : Route → Nat
  | .operand _ => 1
  | .immediate => 2

end Route

namespace Core

variable {α : Type}

/-- What an instruction finds on a route. There is nothing where HL points past the end of
memory. -/
def routed? (core : Core) (memory : Memory) (instruction : Instruction) : Route → Option Byte
  | .operand source => core.at? memory (core.place source)
  | .immediate => some instruction.lo

theorem run_readOperand_bind {core : Core} {memory : Memory} {source : Operand} {value : Byte}
    (h : core.at? memory (core.place source) = some value) (next : Byte → Bus α) :
    (core.readOperand source >>= next).run memory = (next value).run memory := by
  cases source with
  | register name =>
    rw [place, at?_register] at h
    cases h
    rfl
  | memory =>
    rw [place_memory] at h
    exact Bus.run_load_bind_of_byte h next

/-- The core after an arithmetic instruction that has found its operand. -/
def computed (core : Core) (kind : Arithmetic) (operand : Byte) : Core :=
  { core with
    registers := { core.registers with
      a := (Alu.apply kind core.flags core.registers.a operand).1 }
    flags := (Alu.apply kind core.flags core.registers.a operand).2 }

theorem run_perform_of_routed {core : Core} {memory : Memory} {kind : Arithmetic} {route : Route}
    {instruction : Instruction} {operand : Byte}
    (hoperation : instruction.operation = route.operation kind)
    (hoperand : core.routed? memory instruction route = some operand) :
    (core.perform instruction).run memory = .succeed (core.computed kind operand) memory := by
  cases route with
  | operand source =>
    have hsource : instruction.operation = .arithmetic kind source := hoperation
    simp only [perform, hsource]
    exact run_readOperand_bind hoperand _
  | immediate =>
    have himmediate : instruction.operation = .arithmeticImmediate kind := hoperation
    cases hoperand
    simp only [perform, himmediate]
    rfl

end Core

namespace Cpu

variable {cpu : Cpu} {instruction : Instruction} {after : Core} {memory : Memory}

/-- Executing an instruction whose accesses all succeed. -/
theorem execute_of_run {records : List Record}
    (h : ((cpu.past instruction).perform instruction).run cpu.memory =
      ⟨.ok after, memory, records⟩) :
    (cpu.execute instruction).result = .ok (cpu.report instruction) ∧
      (cpu.execute instruction).state = { cpu with toCore := after, memory } := by
  rw [execute_eq]
  apply transact_of_ok
  · rw [Core.result_run_execute, h]
    rfl
  · rw [Core.state_run_execute, h]

/-- Executing an instruction that has nothing to do with memory. -/
theorem execute_of_pure (h : (cpu.past instruction).perform instruction = pure after) :
    (cpu.execute instruction).result = .ok (cpu.report instruction) ∧
      (cpu.execute instruction).state = { cpu with toCore := after } := by
  have hrun : ((cpu.past instruction).perform instruction).run cpu.memory =
      ⟨.ok after, cpu.memory, []⟩ := by
    rw [h]
    rfl
  exact execute_of_run hrun

/-- The same processor with another byte in A. -/
def withA (cpu : Cpu) (value : Byte) : Cpu :=
  { cpu with registers := { cpu.registers with a := value } }

theorem lt_size_of_isSome {addr : Nat} (h : (cpu.at? (.memory addr)).isSome = true) :
    addr < cpu.memory.size := by
  rw [at?_memory, Memory.isSome_byte?] at h
  exact of_decide_eq_true h

/-- Where an operand is there to be read, a byte can be put in its place. The window may keep
it from getting there, which is no failure. -/
theorem run_writeOperand {target : Operand} (h : (cpu.at? (cpu.place target)).isSome = true)
    (value : Byte) :
    ∃ records, (cpu.writeOperand target value).run cpu.memory =
      ⟨.ok (cpu.assign (cpu.place target) value).toCore,
        (cpu.assign (cpu.place target) value).memory, records⟩ := by
  cases target with
  | register name => exact ⟨[], rfl⟩
  | memory =>
    rw [Core.place_memory] at h ⊢
    have hstored : (cpu.memory.write cpu.registers.hl.toNat value).result = .ok () :=
      Memory.result_write_eq_ok_iff.mpr (lt_size_of_isSome h)
    refine ⟨(cpu.memory.write cpu.registers.hl.toNat value).records, ?_⟩
    rw [Core.writeOperand, Bus.run_bind_pure, Bus.run_store, hstored]
    rfl

theorem execute_of_routed {kind : Arithmetic} {route : Route} {operand : Byte}
    (hoperation : instruction.operation = route.operation kind)
    (hoperand : cpu.routed? cpu.memory instruction route = some operand) :
    (cpu.execute instruction).result = .ok (.executed instruction.opcode route.length none) ∧
      (cpu.execute instruction).state =
        { cpu with
          toCore :=
            { cpu.computed kind operand with pc := cpu.pc + BitVec.ofNat 16 route.length } } := by
  have hlength : instruction.operation.length = route.length := by
    rw [hoperation]
    cases route <;> rfl
  have hport : cpu.portAccess? instruction = none := by
    rw [Core.portAccess?, hoperation]
    cases route <;> rfl
  have hpast : (cpu.past instruction).routed? cpu.memory instruction route = some operand := by
    cases route <;> exact hoperand
  obtain ⟨hresult, hstate⟩ := execute_of_run (Core.run_perform_of_routed hoperation hpast)
  rw [Core.report, hlength, hport] at hresult
  refine ⟨hresult, ?_⟩
  rw [hstate, Core.past, hlength]
  rfl

end Cpu

end Arcade8080
