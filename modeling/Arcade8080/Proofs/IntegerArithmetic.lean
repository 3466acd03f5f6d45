import Arcade8080.Alu.Lemmas
import Arcade8080.Cpu.Operand
import Arcade8080.Memory.Lemmas

/-!
The arithmetic instructions meet the arithmetic of integers. There is one result and one set
of flags for each operation, operand and carry, and it is the same whether the operand stands
in a register, in memory or in the instruction; beside A, the flags and the program counter
nothing changes.
-/

namespace Arcade8080

/-- The number of an operand in an opcode. -/
def Operand.field : Operand → Nat
  | .register .b => 0
  | .register .c => 1
  | .register .d => 2
  | .register .e => 3
  | .register .h => 4
  | .register .l => 5
  | .memory => 6
  | .register .a => 7

/-- The number of an operation in an opcode. -/
def Arithmetic.field : Arithmetic → Nat
  | .add => 0
  | .adc => 1
  | .sub => 2
  | .sbb => 3
  | .ana => 4
  | .xra => 5
  | .ora => 6
  | .cmp => 7

/-- The opcodes with a register or memory fill a quarter of the table, eight to an operation;
those with an immediate byte lie eight apart. -/
def Route.opcode (kind : Arithmetic) : Route → Nat
  | .operand source => 0x80 + 8 * kind.field + source.field
  | .immediate => 0xC6 + 8 * kind.field

namespace Operation

/-- The opcode of an arithmetic operation. -/
def arithmeticOpcode? : Operation → Option Nat
  | .arithmetic kind source => some (Route.opcode kind (.operand source))
  | .arithmeticImmediate kind => some (Route.opcode kind .immediate)
  | _ => none

theorem arithmeticOpcode?_route (kind : Arithmetic) (route : Route) :
    (route.operation kind).arithmeticOpcode? = some (route.opcode kind) := by
  cases route <;> rfl

theorem eq_toNat_of_arithmeticOpcode? (opcode : Byte) :
    ∀ code ∈ (decode opcode).arithmeticOpcode?, code = opcode.toNat := by
  revert opcode
  decide +kernel

theorem decode_opcode (kind : Arithmetic) (route : Route) :
    decode (BitVec.ofNat 8 (route.opcode kind)) = route.operation kind := by
  rcases route with (name | _) | _
  · cases kind <;> cases name <;> rfl
  · cases kind <;> rfl
  · cases kind <;> rfl

theorem decode_eq_route_iff (opcode : Byte) (kind : Arithmetic) (route : Route) :
    decode opcode = route.operation kind ↔ opcode.toNat = route.opcode kind := by
  constructor
  · intro h
    have hcode := eq_toNat_of_arithmeticOpcode? opcode (route.opcode kind)
    rw [h, arithmeticOpcode?_route] at hcode
    exact (hcode rfl).symm
  · intro h
    rw [← decode_opcode, ← h, BitVec.ofNat_toNat, BitVec.setWidth_eq]

end Operation

namespace Core

/-- The one operand that may not be there is the byte that H and L point at. -/
theorem isSome_routed?_iff (core : Core) (memory : Memory) (instruction : Instruction)
    (route : Route) :
    (core.routed? memory instruction route).isSome = true ↔
      (route = .operand .memory →
        core.registers.h.toNat * 256 + core.registers.l.toNat < memory.size) := by
  rcases route with (name | _) | _
  · simp [routed?, place, at?_register]
  · simp [routed?, place, at?, Memory.isSome_byte?]
  · simp [routed?]

end Core

namespace Cpu

/-- The opcode names the operation and the route. Given A and the carry, an operation makes of
an operand what integers say, on every route on which that operand is found, and only the byte
that H and L point at may not be found at all. The program counter moves past the instruction,
and all else stays. -/
theorem arithmetic_is_that_of_integers (cpu : Cpu) :
    (∀ (instruction : Instruction) (kind : Arithmetic) (route : Route),
      instruction.operation = route.operation kind ↔
        instruction.opcode.toNat = route.opcode kind) ∧
    (∀ (instruction : Instruction) (route : Route),
      (cpu.routed? cpu.memory instruction route).isSome = true ↔
        (route = .operand .memory →
          cpu.registers.h.toNat * 256 + cpu.registers.l.toNat < cpu.memory.size)) ∧
    ∀ (kind : Arithmetic) (operand : Byte), ∃ a flags,
      Alu.Computes kind cpu.registers.a operand cpu.flags.cy a flags ∧
      ∀ (route : Route) (instruction : Instruction),
        instruction.operation = route.operation kind →
        cpu.routed? cpu.memory instruction route = some operand →
          (cpu.execute instruction).result =
            .ok (.executed instruction.opcode route.length none) ∧
          (cpu.execute instruction).state =
            { cpu with
              registers := { cpu.registers with a }
              flags
              pc := cpu.pc + BitVec.ofNat 16 route.length } := by
  refine ⟨?_, cpu.isSome_routed?_iff cpu.memory, ?_⟩
  · intro instruction kind route
    exact Operation.decode_eq_route_iff instruction.opcode kind route
  · intro kind operand
    refine ⟨_, _, Alu.computes_apply kind cpu.flags cpu.registers.a operand, ?_⟩
    intro route instruction hoperation hoperand
    exact execute_of_routed hoperation hoperand

/-- A subtraction with a borrow, of a byte that memory has at 0001 and E as well. -/
def borrowing : Cpu where
  registers := { a := 0x14, b := 0x0C, e := 0x25, l := 0x01 }
  flags := { cy := true }
  memory.cells := some #[0, 0x25]

/-- SBB M, SBB E and SBI 25 all take 26 from 14: the byte borrows and so does its low digit.
ADD B carries out of the low digit, and SUB A leaves nothing. -/
theorem arithmetic_is_that_of_integers_of_borrowing :
    (borrowing.execute ⟨0x9E, 0, 0⟩).state.registers.a = 0xEE ∧
    (borrowing.execute ⟨0x9E, 0, 0⟩).state.flags.cy = true ∧
    (borrowing.execute ⟨0x9E, 0, 0⟩).state.flags.ac = false ∧
    (borrowing.execute ⟨0x9B, 0, 0⟩).state = (borrowing.execute ⟨0x9E, 0, 0⟩).state ∧
    (borrowing.execute ⟨0xDE, 0x25, 0⟩).state =
      { (borrowing.execute ⟨0x9E, 0, 0⟩).state with pc := 2 } ∧
    (borrowing.execute ⟨0x80, 0, 0⟩).state.registers.a = 0x20 ∧
    (borrowing.execute ⟨0x80, 0, 0⟩).state.flags.ac = true ∧
    (borrowing.execute ⟨0x97, 0, 0⟩).state.registers.a = 0 := by
  obtain ⟨_, _, hkinds⟩ := arithmetic_is_that_of_integers borrowing
  obtain ⟨a, flags, hdiffers, hroutes⟩ := hkinds .sbb 0x25
  obtain ⟨_, hmemory⟩ := hroutes (.operand .memory) ⟨0x9E, 0, 0⟩ rfl (by decide)
  obtain ⟨_, hregister⟩ := hroutes (.operand (.register .e)) ⟨0x9B, 0, 0⟩ rfl rfl
  obtain ⟨_, himmediate⟩ := hroutes .immediate ⟨0xDE, 0x25, 0⟩ rfl rfl
  have hvalue : (a.toNat : Int) = 0xEE := hdiffers.value
  have hac : ¬ flags.ac = true := fun hac => absurd (hdiffers.ac.mp hac) (by decide)
  obtain ⟨sum, sumFlags, hadds, haddRoutes⟩ := hkinds .add 0x0C
  obtain ⟨_, hadd⟩ := haddRoutes (.operand (.register .b)) ⟨0x80, 0, 0⟩ rfl rfl
  have hsum : sum.toNat = 0x20 := hadds.value
  obtain ⟨nothing, noFlags, hcancels, hsubRoutes⟩ := hkinds .sub 0x14
  obtain ⟨_, hsub⟩ := hsubRoutes (.operand (.register .a)) ⟨0x97, 0, 0⟩ rfl rfl
  have hnothing : (nothing.toNat : Int) = 0 := hcancels.value
  rw [hmemory, hregister, himmediate, hadd, hsub]
  refine ⟨?_, hdiffers.cy.mpr (by decide), eq_false_of_ne_true hac, rfl, rfl, ?_, ?_, ?_⟩
  · exact BitVec.eq_of_toNat_eq (Int.ofNat_inj.mp hvalue)
  · exact BitVec.eq_of_toNat_eq hsum
  · exact hadds.ac.mpr (by decide)
  · exact BitVec.eq_of_toNat_eq (Int.ofNat_inj.mp hnothing)

end Cpu

end Arcade8080
