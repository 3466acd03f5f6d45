import Arcade8080.Core.Footprint
import Arcade8080.Core.Lemmas
import Arcade8080.Cpu.Lemmas

/-!
A step without a delivery is a fetch followed by the execution of what was
fetched. The two halves meet in the length of the operation: fetching reads no
byte past it, and executing looks at none, so that it makes no difference what
such a byte holds or whether memory has it at all.
-/

namespace Arcade8080

theorem Operation.length_cases (operation : Operation) :
    operation.length = 1 ∨ operation.length = 2 ∨ operation.length = 3 := by
  cases operation <;> simp [length]

namespace Instruction

/-- The instruction as fetching gives it: operand bytes that the operation lacks
are 0. -/
def trimmed (instruction : Instruction) : Instruction where
  opcode := instruction.opcode
  lo := if 1 < instruction.operation.length then instruction.lo else 0
  hi := if 2 < instruction.operation.length then instruction.hi else 0

theorem operation_trimmed (instruction : Instruction) :
    instruction.trimmed.operation = instruction.operation := rfl

theorem lo_trimmed {instruction : Instruction} (h : 1 < instruction.operation.length) :
    instruction.trimmed.lo = instruction.lo := if_pos h

theorem word_trimmed {instruction : Instruction} (h : 2 < instruction.operation.length) :
    instruction.trimmed.word = instruction.word := by
  have hhi : instruction.trimmed.hi = instruction.hi := if_pos h
  have hlo : instruction.trimmed.lo = instruction.lo := lo_trimmed (by omega)
  rw [word, word, hhi, hlo]

/-- Instructions with the same bytes, as far as their operation has them. -/
theorem trimmed_congr {first second : Instruction} (hopcode : first.opcode = second.opcode)
    (hlo : 1 < first.operation.length → first.lo = second.lo)
    (hhi : 2 < first.operation.length → first.hi = second.hi) :
    first.trimmed = second.trimmed := by
  have hoperation : second.operation = first.operation := by rw [operation, operation, hopcode]
  simp only [trimmed, hoperation, hopcode]
  congr 1
  · split
    · exact hlo ‹_›
    · rfl
  · split
    · exact hhi ‹_›
    · rfl

end Instruction

namespace Core

variable {core : Core} {memory : Memory}

/-- No operation uses an operand byte that it lacks. -/
theorem perform_trimmed (core : Core) (instruction : Instruction) :
    core.perform instruction.trimmed = core.perform instruction := by
  simp only [perform, Instruction.operation_trimmed]
  cases hoperation : instruction.operation with
  | mvi | arithmeticImmediate =>
    have hlo : instruction.trimmed.lo = instruction.lo :=
      Instruction.lo_trimmed (by simp [hoperation, Operation.length])
    simp only [hlo]
  | lxi | sta | lda | shld | lhld | jump | jumpIf | call | callIf =>
    have hword : instruction.trimmed.word = instruction.word :=
      Instruction.word_trimmed (by simp [hoperation, Operation.length])
    simp only [hword]
  | _ => rfl

theorem portAccess?_trimmed (core : Core) (instruction : Instruction) :
    core.portAccess? instruction.trimmed = core.portAccess? instruction := by
  simp only [portAccess?, Instruction.operation_trimmed]
  cases hoperation : instruction.operation with
  | input | output =>
    have hlo : instruction.trimmed.lo = instruction.lo :=
      Instruction.lo_trimmed (by simp [hoperation, Operation.length])
    simp only [hlo]
  | _ => rfl

theorem execute_trimmed (core : Core) (instruction : Instruction) :
    core.execute instruction.trimmed = core.execute instruction := by
  simp only [execute, perform_trimmed, portAccess?_trimmed]
  rfl

theorem codeAddrs_eq {opcode : Byte} (h : memory.byte? core.pc.toNat = some opcode) :
    core.codeAddrs memory =
      [core.pc, core.pc + 1, core.pc + 2].take (Operation.decode opcode).length := by
  simp only [codeAddrs, codeLength, h]

/-- Fetching what stands at the program counter, whatever follows it. -/
theorem run_fetch_of_standsAt {instruction : Instruction}
    (h : instruction.StandsAt memory core.pc) :
    core.fetch.run memory = .succeed instruction.trimmed memory := by
  have hlength : (Operation.decode instruction.opcode).length = instruction.operation.length := rfl
  rw [fetch_eq, Bus.run_load_bind_of_byte h.opcode, hlength]
  by_cases htwo : 1 < instruction.operation.length
  · rw [if_pos htwo, Bus.run_load_bind_of_byte (h.lo htwo)]
    by_cases hthree : 2 < instruction.operation.length
    · rw [if_pos hthree, Bus.run_load_bind_of_byte (h.hi hthree), Bus.run_pure]
      simp only [Instruction.trimmed, htwo, hthree, if_true]
    · rw [if_neg hthree, pure_bind, Bus.run_pure]
      simp only [Instruction.trimmed, htwo, hthree, if_true, if_false]
  · have hone : ¬ 2 < instruction.operation.length := by omega
    rw [if_neg htwo, pure_bind, if_neg hone, pure_bind, Bus.run_pure]
    simp only [Instruction.trimmed, htwo, hone, if_false]

/-- The opcode says which bytes there are to miss. -/
theorem missing?_of_opcode {opcode : Byte} (h : memory.byte? core.pc.toNat = some opcode) :
    core.missing? memory =
      if 1 < (Operation.decode opcode).length ∧ memory.size ≤ (core.pc + 1).toNat then
        some (core.pc + 1)
      else if 2 < (Operation.decode opcode).length ∧ memory.size ≤ (core.pc + 2).toNat then
        some (core.pc + 2)
      else none := by
  have hfirst : decide (memory.size ≤ core.pc.toNat) = false := by
    rw [decide_eq_false_iff_not, ← Memory.byte?_eq_none_iff, h]
    simp
  rw [missing?, codeAddrs_eq h]
  rcases (Operation.decode opcode).length_cases with hlength | hlength | hlength <;>
    rw [hlength] <;>
    simp only [List.take, List.find?, hfirst] <;>
    by_cases hsecond : memory.size ≤ (core.pc + 1).toNat <;>
    by_cases hthird : memory.size ≤ (core.pc + 2).toNat <;>
    simp only [hsecond, hthird, decide_true, decide_false] <;>
    rfl

theorem missing?_of_no_opcode (h : memory.byte? core.pc.toNat = none) :
    core.missing? memory = some core.pc := by
  have hpast : memory.size ≤ core.pc.toNat := Memory.byte?_eq_none_iff.mp h
  simp [missing?, codeAddrs, codeLength, h, hpast]

theorem missing?_eq_none (h : ∀ addr ∈ core.codeAddrs memory, addr.toNat < memory.size) :
    core.missing? memory = none := by
  simpa [missing?] using h

/-- Fetching gets as far as the first byte that is not there. -/
theorem run_fetch_of_missing {addr : Word} (h : core.missing? memory = some addr) :
    core.fetch.run memory = .fail (memory.faultAt addr.toNat) memory := by
  cases hopcode : memory.byte? core.pc.toNat with
  | none =>
    rw [missing?_of_no_opcode hopcode] at h
    cases h
    rw [fetch_eq, Bus.run_load_bind_of_le (Memory.byte?_eq_none_iff.mp hopcode)]
  | some opcode =>
    rw [missing?_of_opcode hopcode] at h
    rw [fetch_eq, Bus.run_load_bind_of_byte hopcode]
    split at h
    · rename_i hsecond
      cases h
      rw [if_pos hsecond.1, Bus.run_load_bind_of_le hsecond.2]
    · rename_i hsecond
      split at h
      · rename_i hthird
        cases h
        have htwo : 1 < (Operation.decode opcode).length := by omega
        have hplace : (core.pc + 1).toNat < memory.size :=
          Nat.lt_of_not_le fun hpast => hsecond ⟨htwo, hpast⟩
        obtain ⟨lo, hlo⟩ := Memory.exists_byte?_of_lt hplace
        rw [if_pos htwo, Bus.run_load_bind_of_byte hlo, if_pos hthird.1,
          Bus.run_load_bind_of_le hthird.2]
      · cases h

/-- Memory that lacks no byte of the instruction has the instruction. -/
theorem exists_standsAt (h : core.missing? memory = none) :
    ∃ instruction : Instruction, instruction.StandsAt memory core.pc := by
  cases hopcode : memory.byte? core.pc.toNat with
  | none =>
    rw [missing?_of_no_opcode hopcode] at h
    cases h
  | some opcode =>
    rw [missing?_of_opcode hopcode] at h
    have hheld {addr : Word} (hplace : addr.toNat < memory.size) :
        memory.byte? addr.toNat = some ((memory.byte? addr.toNat).getD 0) := by
      obtain ⟨value, hvalue⟩ := Memory.exists_byte?_of_lt hplace
      rw [hvalue, Option.getD_some]
    refine ⟨⟨opcode, (memory.byte? (core.pc + 1).toNat).getD 0,
      (memory.byte? (core.pc + 2).toNat).getD 0⟩, hopcode, ?_, ?_⟩
    · intro htwo
      apply hheld
      apply Nat.lt_of_not_le
      intro hpast
      rw [if_pos ⟨htwo, hpast⟩] at h
      cases h
    · intro hthree
      apply hheld
      apply Nat.lt_of_not_le
      intro hpast
      split at h
      · cases h
      · rw [if_pos ⟨hthree, hpast⟩] at h
        cases h

theorem run_step_of_standsAt {request : Option Restart} {instruction : Instruction}
    (hidle : request = none ∨ core.interruptsEnabled = false)
    (h : instruction.StandsAt memory core.pc) :
    (core.step request).run memory =
      ((core.execute instruction).run memory).after (request.toList.map .requestDropped) := by
  rw [run_step_of_idle hidle, Bus.run_bind, run_fetch_of_standsAt h, ← execute_trimmed]
  rfl

theorem run_step_of_missing {request : Option Restart} {addr : Word}
    (hidle : request = none ∨ core.interruptsEnabled = false)
    (h : core.missing? memory = some addr) :
    (core.step request).run memory =
      ⟨.error (memory.faultAt addr.toNat), memory, request.toList.map .requestDropped⟩ := by
  rw [run_step_of_idle hidle, Bus.run_bind, run_fetch_of_missing h]
  simp [Attempt.fail, Attempt.andThen, Attempt.after]

end Core

namespace Cpu

variable {cpu : Cpu}

/-- What a step reports that loses the pending request. -/
def dropped (cpu : Cpu) : List Record := cpu.pending.toList.map .requestDropped

/-- A step is the execution of this instruction, once nothing is pending. -/
def StepExecutes (cpu : Cpu) (instruction : Instruction) : Prop :=
  cpu.step = (Cpu.execute { cpu with pending := none } instruction).after cpu.dropped

theorem stepExecutes_of_standsAt {instruction : Instruction}
    (hidle : cpu.pending = none ∨ cpu.interruptsEnabled = false)
    (h : instruction.StandsAt cpu.memory cpu.pc) : cpu.StepExecutes instruction := by
  have hrun := Core.run_step_of_standsAt hidle h
  rw [StepExecutes, step_eq, execute_eq]
  simp only [transact_eq]
  rw [hrun]
  rfl

theorem step_of_missing {addr : Word} (hidle : cpu.pending = none ∨ cpu.interruptsEnabled = false)
    (h : cpu.missing? cpu.memory = some addr) :
    cpu.step =
      ⟨.error (cpu.memory.faultAt addr.toNat), { cpu with pending := none }, cpu.dropped⟩ := by
  have hrun := Core.run_step_of_missing hidle h
  rw [step_eq]
  simp only [transact_eq]
  rw [hrun]
  rfl

theorem exists_stepExecutes (hidle : cpu.pending = none ∨ cpu.interruptsEnabled = false)
    (h : cpu.missing? cpu.memory = none) :
    ∃ instruction : Instruction,
      instruction.StandsAt cpu.memory cpu.pc ∧ cpu.StepExecutes instruction := by
  obtain ⟨instruction, hstands⟩ := Core.exists_standsAt h
  exact ⟨instruction, hstands, stepExecutes_of_standsAt hidle hstands⟩

theorem execute_congr {first second : Instruction} (cpu : Cpu)
    (h : first.trimmed = second.trimmed) : cpu.execute first = cpu.execute second := by
  rw [execute_eq, execute_eq]
  congr 1
  funext core
  rw [← Core.execute_trimmed, h, Core.execute_trimmed]

/-- An instruction that ends where memory ends has all of its bytes. -/
theorem missing?_of_last {opcode : Byte} (h : cpu.memory.byte? cpu.pc.toNat = some opcode)
    (hlast : cpu.pc.toNat + (Operation.decode opcode).length = cpu.memory.size) :
    cpu.missing? cpu.memory = none := by
  have hsecond : (cpu.pc + 1).toNat ≤ cpu.pc.toNat + 1 := by
    rw [BitVec.toNat_add]
    exact Nat.mod_le _ _
  have hthird : (cpu.pc + 2).toNat ≤ cpu.pc.toNat + 2 := by
    rw [BitVec.toNat_add]
    exact Nat.mod_le _ _
  rw [Core.missing?_of_opcode h, if_neg (by omega), if_neg (by omega)]

/-- Operand bytes beyond the length of an opcode never matter. Where no request is
delivered, a step is the execution of the instruction at the program counter, if
memory has all the bytes that it takes, and otherwise fails at the first of them
that memory lacks, with nothing done but the request gone. Thus an instruction may
end on the last byte of memory, and in 64 KiB it may go on at address 0. -/
theorem step_is_fetch_then_execute :
    (∀ (cpu : Cpu) (opcode lo hi lo' hi' : Byte),
      ((Operation.decode opcode).length = 1 →
        cpu.execute ⟨opcode, lo, hi⟩ = cpu.execute ⟨opcode, lo', hi'⟩) ∧
      ((Operation.decode opcode).length = 2 →
        cpu.execute ⟨opcode, lo, hi⟩ = cpu.execute ⟨opcode, lo, hi'⟩)) ∧
    ∀ cpu : Cpu, cpu.pending = none ∨ cpu.interruptsEnabled = false →
      (∀ instruction : Instruction,
        instruction.StandsAt cpu.memory cpu.pc → cpu.StepExecutes instruction) ∧
      (cpu.missing? cpu.memory = none → ∃ instruction : Instruction,
        instruction.StandsAt cpu.memory cpu.pc ∧ cpu.StepExecutes instruction) ∧
      (∀ addr, cpu.missing? cpu.memory = some addr →
        cpu.step =
          ⟨.error (cpu.memory.faultAt addr.toNat), { cpu with pending := none }, cpu.dropped⟩) ∧
      (∀ opcode, cpu.memory.byte? cpu.pc.toNat = some opcode →
        cpu.pc.toNat + (Operation.decode opcode).length = cpu.memory.size →
          ∃ instruction : Instruction,
            instruction.StandsAt cpu.memory cpu.pc ∧ cpu.StepExecutes instruction) ∧
      (0x10000 ≤ cpu.memory.size → ∃ instruction : Instruction,
        instruction.StandsAt cpu.memory cpu.pc ∧ cpu.StepExecutes instruction) := by
  constructor
  · intro cpu opcode lo hi lo' hi'
    have hoperation (lo hi : Byte) :
        (Instruction.operation ⟨opcode, lo, hi⟩).length = (Operation.decode opcode).length := rfl
    constructor
    · intro hlength
      apply execute_congr
      apply Instruction.trimmed_congr
      · rfl
      · intro htwo
        rw [hoperation] at htwo
        omega
      · intro hthree
        rw [hoperation] at hthree
        omega
    · intro hlength
      apply execute_congr
      apply Instruction.trimmed_congr
      · rfl
      · intro _
        rfl
      · intro hthree
        rw [hoperation] at hthree
        omega
  · intro cpu hidle
    refine ⟨?_, exists_stepExecutes hidle, ?_, ?_, ?_⟩
    · intro instruction hstands
      exact stepExecutes_of_standsAt hidle hstands
    · intro addr hmissing
      exact step_of_missing hidle hmissing
    · intro opcode hopcode hlast
      exact exists_stepExecutes hidle (missing?_of_last hopcode hlast)
    · intro hsize
      apply exists_stepExecutes hidle
      apply Core.missing?_eq_none
      intro addr _
      exact Nat.lt_of_lt_of_le addr.isLt hsize

/-- A processor with a request that it will lose. -/
def idle (pc : Word) (cells : Array Byte) (fits : cells.size ≤ Memory.limit := by decide) :
    Cpu where
  pc
  pending := some (Octal.ofNat 3)
  memory := ⟨some cells, .unrestricted, fits⟩

/-- A processor at the end of 64 KiB, all of it MVI A. -/
def atEnd : Cpu := idle 0xFFFF (Array.replicate 0x10000 0x3E) (by simp [Memory.limit])

/-- MVI A ends on the last of three bytes, has no operand where it begins there, and
runs on from the end of 64 KiB to the start. -/
theorem step_is_fetch_then_execute_at_edges :
    (idle 1 #[0x00, 0x3E, 0x77]).execute ⟨0x00, 1, 2⟩ =
      (idle 1 #[0x00, 0x3E, 0x77]).execute ⟨0x00, 3, 4⟩ ∧
    (idle 1 #[0x00, 0x3E, 0x77]).execute ⟨0x3E, 0x77, 1⟩ =
      (idle 1 #[0x00, 0x3E, 0x77]).execute ⟨0x3E, 0x77, 2⟩ ∧
    (idle 1 #[0x00, 0x3E, 0x77]).StepExecutes ⟨0x3E, 0x77, 1⟩ ∧
    (∃ instruction : Instruction, instruction.opcode = 0x3E ∧
      (idle 1 #[0x00, 0x3E, 0x77]).StepExecutes instruction) ∧
    (idle 2 #[0x00, 0x00, 0x3E]).step =
      ⟨.error (.outOfBounds 3 3), { idle 2 #[0x00, 0x00, 0x3E] with pending := none },
        [.requestDropped (Octal.ofNat 3)]⟩ ∧
    (∃ instruction : Instruction, instruction.opcode = 0x3E ∧
      atEnd.StepExecutes instruction) := by
  have hoperands := step_is_fetch_then_execute.1 (idle 1 #[0x00, 0x3E, 0x77])
  have hedge := step_is_fetch_then_execute.2 (idle 1 #[0x00, 0x3E, 0x77]) (.inr rfl)
  have hpast := step_is_fetch_then_execute.2 (idle 2 #[0x00, 0x00, 0x3E]) (.inr rfl)
  have hwrap := step_is_fetch_then_execute.2 atEnd (.inr rfl)
  refine ⟨(hoperands 0x00 1 2 3 4).1 rfl, (hoperands 0x3E 0x77 1 0 2).2 rfl, ?_, ?_, ?_, ?_⟩
  · exact hedge.1 ⟨0x3E, 0x77, 1⟩ ⟨rfl, fun _ => rfl, fun hthree => absurd hthree (by decide)⟩
  · obtain ⟨instruction, hstands, hexecutes⟩ := hedge.2.2.2.1 0x3E rfl rfl
    exact ⟨instruction, (Option.some.inj hstands.opcode).symm, hexecutes⟩
  · exact hpast.2.2.1 3 rfl
  · have hsize : atEnd.memory.size = 0x10000 := Array.size_replicate
    obtain ⟨instruction, hstands, hexecutes⟩ := hwrap.2.2.2.2 (Nat.le_of_eq hsize.symm)
    have hopcode : atEnd.memory.byte? 0xFFFF = some 0x3E := by
      simp [atEnd, idle, Memory.byte?]
    refine ⟨instruction, ?_, hexecutes⟩
    have hsame := hstands.opcode.symm.trans hopcode
    exact Option.some.inj hsame

end Cpu

end Arcade8080
