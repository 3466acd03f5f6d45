import Arcade8080.Core.Lemmas
import Arcade8080.Cpu.Lemmas
import Arcade8080.Operation.Table
import Arcade8080.Proofs.Numbering

/-!
Where control goes after an instruction. A transfer that is taken goes to the operand, to the
word on top of the stack, to HL or to the handler of a restart; everything else goes on with
the next instruction, as far ahead as the table says. The stack pointer moves with the words
that are put on the stack or taken from it.
-/

namespace Arcade8080

/-- The word at an address, low byte first, where both bytes are there. -/
def Memory.word? (memory : Memory) (addr : Word) : Option Word := do
  let low ← memory.byte? addr.toNat
  let high ← memory.byte? (addr + 1).toNat
  return Word.ofBytes high low

/-- The number that two neighbouring bytes stand for, low byte first. The last address has
address 0 for its neighbour. -/
def Memory.number? (memory : Memory) (addr : Nat) : Option Nat := do
  let low ← memory.byte? addr
  let high ← memory.byte? ((addr + 1) % 0x10000)
  return high.toNat * 256 + low.toNat

theorem Memory.number?_toNat (memory : Memory) (addr : Word) :
    memory.number? addr.toNat = (memory.word? addr).map BitVec.toNat := by
  simp only [number?, word?, Word.toNat_add_one, ← Word.toNat_ofBytes]
  cases memory.byte? addr.toNat with
  | none => rfl
  | some low => cases memory.byte? ((addr.toNat + 1) % 0x10000) <;> rfl

namespace Condition

/-- The one flag that a condition looks at. -/
def flag (flags : Flags) : Condition → Bool
  | .nz | .z => flags.z
  | .nc | .c => flags.cy
  | .po | .pe => flags.p
  | .p | .m => flags.s

/-- What that flag has to be. -/
def wanted : Condition → Bool
  | .nz | .nc | .po | .p => false
  | .z | .c | .pe | .m => true

/-- The condition that looks at the same flag for the other value. -/
def opposite : Condition → Condition
  | .nz => .z
  | .z => .nz
  | .nc => .c
  | .c => .nc
  | .po => .pe
  | .pe => .po
  | .p => .m
  | .m => .p

theorem holds_eq (condition : Condition) (flags : Flags) :
    condition.holds flags = (condition.flag flags == condition.wanted) := by
  cases condition <;> simp [holds, flag, wanted]

theorem flag_opposite (condition : Condition) (flags : Flags) :
    condition.opposite.flag flags = condition.flag flags := by
  cases condition <;> rfl

theorem wanted_opposite (condition : Condition) :
    condition.opposite.wanted = !condition.wanted := by
  cases condition <;> rfl

/-- Of two opposite conditions one holds, and the other does not. -/
theorem holds_opposite (condition : Condition) (flags : Flags) :
    condition.opposite.holds flags = !condition.holds flags := by
  rw [holds_eq, holds_eq, flag_opposite, wanted_opposite]
  cases condition.flag flags <;> cases condition.wanted <;> rfl

end Condition

namespace Operation

/-- The condition of a conditional jump, call or return. -/
def condition? : Operation → Option Condition
  | .jumpIf condition | .callIf condition | .retIf condition => some condition
  | _ => none

/-- The conditional of the same kind that is taken where this one is not. -/
def opposite : Operation → Operation
  | .jumpIf condition => .jumpIf condition.opposite
  | .callIf condition => .callIf condition.opposite
  | .retIf condition => .retIf condition.opposite
  | operation => operation

/-- Whether control goes somewhere else than to the next instruction. -/
def taken (flags : Flags) : Operation → Bool
  | .jump | .call | .ret | .rst _ | .pchl => true
  | .jumpIf condition | .callIf condition | .retIf condition =>
    condition.flag flags == condition.wanted
  | _ => false

/-- Opposite conditionals lie next to each other in the table. -/
theorem decode_opposite (opcode : Byte) (h : (decode opcode).condition?.isSome = true) :
    decode (opcode ^^^ 0x08) = (decode opcode).opposite := by
  revert opcode
  decide +kernel

theorem taken_opposite {operation : Operation} (h : operation.condition?.isSome = true)
    (flags : Flags) : operation.opposite.taken flags = !operation.taken flags := by
  cases operation with
  | jumpIf condition | callIf condition | retIf condition =>
    simp only [opposite, taken, ← Condition.holds_eq, condition.holds_opposite]
  | _ => cases h

theorem decode_eq_input_iff (opcode : Byte) : decode opcode = .input ↔ opcode = 0xDB := by
  revert opcode
  decide

theorem decode_eq_output_iff (opcode : Byte) : decode opcode = .output ↔ opcode = 0xD3 := by
  revert opcode
  decide

end Operation

namespace Core

/-- The address that a transfer of control goes to. Only a return has to look into memory for
it. -/
def target? (core : Core) (memory : Memory) (instruction : Instruction) : Option Nat :=
  match instruction.operation with
  | .jump | .jumpIf _ | .call | .callIf _ =>
    some (instruction.hi.toNat * 256 + instruction.lo.toNat)
  | .ret | .retIf _ => memory.number? core.sp.toNat
  | .rst number => some (8 * number.val)
  | .pchl => some (core.registers.h.toNat * 256 + core.registers.l.toNat)
  | _ => none

/-- The address that control goes to after an instruction. -/
def destination? (core : Core) (memory : Memory) (instruction : Instruction) : Option Nat :=
  if instruction.operation.taken core.flags then core.target? memory instruction
  else some ((core.pc.toNat + (Operation.entry instruction.opcode).length) % 0x10000)

/-- The table has the length by which executing moves the program counter on. -/
theorem destination?_eq (core : Core) (memory : Memory) (instruction : Instruction) :
    core.destination? memory instruction =
      if instruction.operation.taken core.flags then core.target? memory instruction
      else some (core.past instruction).pc.toNat := by
  have hnext : (core.past instruction).pc.toNat =
      (core.pc.toNat + instruction.operation.length) % 0x10000 := by
    rw [past, BitVec.toNat_add, BitVec.toNat_ofNat, Nat.add_mod_mod]
  rw [destination?, hnext, (Operation.entry_spec instruction.opcode).2]
  rfl

/-- The address in the stack pointer after an instruction. -/
def stackAfter (core : Core) (instruction : Instruction) : Nat :=
  let sp := core.sp.toNat
  match instruction.operation with
  | .push _ => (sp + 0x10000 - 2) % 0x10000
  | .call | .callIf _ | .rst _ =>
    if instruction.operation.taken core.flags then (sp + 0x10000 - 2) % 0x10000 else sp
  | .pop _ => (sp + 2) % 0x10000
  | .ret | .retIf _ =>
    if instruction.operation.taken core.flags then (sp + 2) % 0x10000 else sp
  | .inx .sp => (sp + 1) % 0x10000
  | .dcx .sp => (sp + 0x10000 - 1) % 0x10000
  | .lxi .sp => instruction.hi.toNat * 256 + instruction.lo.toNat
  | .sphl => core.registers.h.toNat * 256 + core.registers.l.toNat
  | _ => sp

/-- An instruction that goes to where the stack says. -/
def Returns (core : Core) (instruction : Instruction) : Prop :=
  instruction.operation = .ret ∨
    ∃ condition, instruction.operation = .retIf condition ∧ condition.holds core.flags = true

variable {core after : Core} {instruction : Instruction} {memory : Memory}

theorem result_loadWord_eq_ok_iff {addr value : Word} :
    ((loadWord addr).run memory).result = .ok value ↔ memory.word? addr = some value := by
  rw [loadWord, Bus.run_bind, Attempt.result_andThen_eq_ok_iff]
  simp only [(Bus.readOnly_load addr).state_run, Bus.run_bind_pure, Bus.result_run_load,
    Attempt.map_eq_ok_iff, Memory.read_eq_ok_iff]
  simp [Memory.word?, Option.bind_eq_some_iff]

theorem ret_eq (core : Core) :
    core.ret = loadWord core.sp >>= fun target =>
      pure { core with sp := core.sp + 2, pc := target } := by
  simp only [ret, pop, bind_assoc, pure_bind]

theorem perform_of_returns (h : core.Returns instruction) :
    core.perform instruction = core.ret := by
  rcases h with hret | ⟨condition, hret, hholds⟩
  · simp only [perform, hret]
  · simp only [perform, hret, hholds, if_true]

theorem kept_writeOperand (core : Core) (target : Operand) (value : Byte) :
    (core.writeOperand target value).Ensures fun after =>
      some core.pc.toNat = some after.pc.toNat ∧ after.sp.toNat = core.sp.toNat := by
  cases target with
  | register name => exact ⟨rfl, rfl⟩
  | memory => simp [writeOperand]

/-- Where an instruction leaves a core that stands behind it. -/
def Lands (core : Core) (memory : Memory) (instruction : Instruction) (after : Core) : Prop :=
  (if instruction.operation.taken core.flags then core.target? memory instruction
    else some core.pc.toNat) = some after.pc.toNat ∧
  after.sp.toNat = core.stackAfter instruction

theorem lands_of_not_returns (h : ¬ core.Returns instruction) (memory : Memory) :
    (core.perform instruction).Ensures (core.Lands memory instruction) := by
  unfold Lands
  revert h
  simp only [Returns, perform, Operation.taken, ← Condition.holds_eq, target?, stackAfter,
    ← Word.toNat_add_one, ← Word.toNat_add_two, ← Word.toNat_sub_one, ← Word.toNat_sub_two,
    ← Instruction.toNat_word, ← Restart.toNat_address, ← Registers.toNat_hl]
  cases instruction.operation with
  | mov target source =>
    intro _
    rw [Bus.ensures_bind]
    exact Bus.ensures_of_forall (fun value => kept_writeOperand core target value) _
  | mvi target => exact fun _ => kept_writeOperand core target _
  -- The flags are set before the operand is, which makes no difference to the two pointers.
  | inr target =>
    intro _
    rw [Bus.ensures_bind]
    refine Bus.ensures_of_forall (fun value => ?_) _
    exact kept_writeOperand { core with flags := (Alu.increment core.flags value).2 } target _
  | dcr target =>
    intro _
    rw [Bus.ensures_bind]
    refine Bus.ensures_of_forall (fun value => ?_) _
    exact kept_writeOperand { core with flags := (Alu.decrement core.flags value).2 } target _
  | arithmetic kind source =>
    intro _
    rw [Bus.ensures_bind]
    exact Bus.ensures_of_forall (fun value => ⟨rfl, rfl⟩) _
  | lxi target | inx target | dcx target =>
    intro _
    cases target <;> exact ⟨rfl, rfl⟩
  | jumpIf condition =>
    intro _
    dsimp only
    split <;> simp [*]
  | call | rst =>
    intro _
    simp [call_eq, storeWord]
  | callIf condition =>
    intro _
    dsimp only
    split
    · simp [call_eq, storeWord, *]
    · simp [*]
  | ret =>
    intro hnot
    exact absurd (.inl rfl) hnot
  | retIf condition =>
    intro hnot
    dsimp only
    split
    · rename_i hholds
      exact absurd (.inr ⟨condition, rfl, hholds⟩) hnot
    · simp [*]
  | push source =>
    intro _
    simp [push, storeWord]
  | pop target =>
    intro _
    cases target <;> simp [pop, loadWord, setStackOperand]
  | stax | ldax | sta | lda | shld | lhld | xthl =>
    intro _
    simp [loadWord, storeWord]
  | _ => exact fun _ => ⟨rfl, rfl⟩

/-- A return finds the address that it goes to where the stack pointer was. -/
theorem lands_of_returns (h : core.Returns instruction)
    (hrun : ((core.perform instruction).run memory).result = .ok after) :
    core.Lands memory instruction after := by
  rw [perform_of_returns h, ret_eq, Bus.run_bind_pure, Attempt.map_eq_ok_iff] at hrun
  obtain ⟨target, hload, rfl⟩ := hrun
  have hword : memory.number? core.sp.toNat = some target.toNat := by
    rw [Memory.number?_toNat, result_loadWord_eq_ok_iff.mp hload, Option.map_some]
  have hsp : (core.sp + 2).toNat = (core.sp.toNat + 2) % 0x10000 := Word.toNat_add_two core.sp
  rcases h with hret | ⟨condition, hret, hholds⟩
  · simp only [Lands, target?, stackAfter, Operation.taken, hret, hword, hsp, if_true, and_self]
  · rw [Condition.holds_eq] at hholds
    simp only [Lands, target?, stackAfter, Operation.taken, hret, hholds, hword, hsp, if_true,
      and_self]

theorem lands_of_perform
    (h : ((core.perform instruction).run memory).result = .ok after) :
    core.Lands memory instruction after := by
  by_cases hreturns : core.Returns instruction
  · exact lands_of_returns hreturns h
  · exact (lands_of_not_returns hreturns memory).result h

/-- The port that an instruction addresses, told from the opcode. -/
theorem portAccess?_eq (core : Core) (instruction : Instruction) :
    core.portAccess? instruction =
      if instruction.opcode = 0xDB then some (.input instruction.lo)
      else if instruction.opcode = 0xD3 then some (.output instruction.lo core.registers.a)
      else none := by
  simp only [← Operation.decode_eq_input_iff, ← Operation.decode_eq_output_iff, portAccess?,
    Instruction.operation]
  cases Operation.decode instruction.opcode <;> simp

/-- What an instruction does to control, the stack pointer and the ports, and nothing of what
it does to data. -/
structure Continues (core : Core) (memory : Memory) (instruction : Instruction)
    (outcome : StepOutcome) (after : Core) : Prop where
  pc : core.destination? memory instruction = some after.pc.toNat
  sp : after.sp.toNat = core.stackAfter instruction
  outcome : outcome = .executed instruction.opcode (Operation.entry instruction.opcode).length
    (if instruction.opcode = 0xDB then some (.input instruction.lo)
      else if instruction.opcode = 0xD3 then some (.output instruction.lo core.registers.a)
      else none)

theorem continues_of_execute {outcome : StepOutcome}
    (h : ((core.execute instruction).run memory).result = .ok (outcome, after)) :
    core.Continues memory instruction outcome after := by
  have hlength : (Operation.entry instruction.opcode).length = instruction.operation.length :=
    (Operation.entry_spec instruction.opcode).2
  rw [result_run_execute, Attempt.map_eq_ok_iff] at h
  obtain ⟨ended, hperform, hpair⟩ := h
  cases hpair
  obtain ⟨hpc, hsp⟩ := lands_of_perform hperform
  constructor
  case pc =>
    rw [destination?_eq]
    exact hpc
  case sp => exact hsp
  case outcome => rw [hlength, ← portAccess?_eq, report]

/-- Where control went, with the length of the instruction in place of the table's. -/
theorem Continues.leads {outcome : StepOutcome} {target : Nat}
    (h : core.Continues memory instruction outcome after)
    (htarget : (if instruction.operation.taken core.flags then core.target? memory instruction
      else some (core.past instruction).pc.toNat) = some target) : after.pc.toNat = target := by
  rw [← destination?_eq, h.pc] at htarget
  exact Option.some.inj htarget

end Core

namespace Cpu

/-- The opcode tells the operation, and which conditionals are opposite to each other. An
instruction that succeeds leaves the program counter at the target of a transfer that is taken,
and at the next instruction otherwise; it moves the stack pointer by what it puts on the stack
or takes from it, and reports a port for IN and OUT alone. Every condition looks at one flag,
so of two opposite conditionals exactly one is taken. -/
theorem control_goes_where_the_instruction_says (cpu : Cpu) (instruction : Instruction) :
    (∀ operation, instruction.operation = operation ↔
      instruction.opcode.toNat ∈ operation.opcodes) ∧
    (∀ outcome, (cpu.execute instruction).result = .ok outcome →
      cpu.Continues cpu.memory instruction outcome (cpu.execute instruction).state.toCore) ∧
    (∀ (condition : Condition) flags,
      condition.holds flags = (condition.flag flags == condition.wanted)) ∧
    (∀ other : Instruction, instruction.operation.condition?.isSome = true →
      other.opcode = instruction.opcode ^^^ 0x08 →
      other.operation = instruction.operation.opposite ∧
        other.operation.taken cpu.flags = !instruction.operation.taken cpu.flags) ∧
    (∀ condition, instruction.operation = .jumpIf condition ∨
      instruction.operation = .callIf condition →
      (Operation.entry instruction.opcode).length = 3) ∧
    (∀ condition, instruction.operation = .retIf condition →
      (Operation.entry instruction.opcode).length = 1) ∧
    (instruction.operation = .arithmeticImmediate .cmp →
      (Operation.entry instruction.opcode).length = 2) ∧
    (instruction.operation = .hlt ∨ instruction.operation = .unassigned →
      (Operation.entry instruction.opcode).length = 1) := by
  have hlength : (Operation.entry instruction.opcode).length = instruction.operation.length :=
    (Operation.entry_spec instruction.opcode).2
  rw [hlength]
  refine ⟨Operation.decode_eq_iff instruction.opcode, ?_, Condition.holds_eq, ?_, ?_, ?_, ?_, ?_⟩
  · intro outcome hresult
    rw [execute_eq] at hresult ⊢
    obtain ⟨after, hrun⟩ := result_transact_eq_ok_iff.mp hresult
    rw [core_transact_of_ok hrun]
    exact Core.continues_of_execute hrun
  · intro other hconditional hopcode
    have hother : other.operation = instruction.operation.opposite := by
      rw [Instruction.operation, hopcode]
      exact Operation.decode_opposite instruction.opcode hconditional
    refine ⟨hother, ?_⟩
    rw [hother]
    exact Operation.taken_opposite hconditional cpu.flags
  · rintro condition (hjump | hcall)
    · rw [hjump]
      rfl
    · rw [hcall]
      rfl
  · intro condition hret
    rw [hret]
    rfl
  · intro hcompare
    rw [hcompare]
    rfl
  · rintro (hhalt | hunassigned)
    · rw [hhalt]
      rfl
    · rw [hunassigned]
      rfl

/-- The last instruction of the address space, with memory of no more than one word. -/
def bordering : Cpu where
  registers := { h := 0x9A, l := 0xBC }
  pc := 0xFFFF
  flags := { z := true }
  memory := { cells := some #[0x34, 0x12] }

/-- RZ takes the word from the stack and goes there, while RNZ and JNZ go on at the start of
the address space. JZ and CALL go to their operands, RST 5 to the address 40 and PCHL to HL. -/
theorem control_goes_where_the_instruction_says_of_bordering :
    (bordering.execute ⟨0xC8, 0, 0⟩).result = .ok (.executed 0xC8 1 none) ∧
    (bordering.execute ⟨0xC8, 0, 0⟩).state.pc.toNat = 0x1234 ∧
    (bordering.execute ⟨0xC8, 0, 0⟩).state.sp.toNat = 2 ∧
    (bordering.execute ⟨0xC0, 0, 0⟩).state.pc.toNat = 0 ∧
    (bordering.execute ⟨0xC0, 0, 0⟩).state.sp.toNat = 0 ∧
    (bordering.execute ⟨0xC2, 0x78, 0x56⟩).state.pc.toNat = 2 ∧
    (bordering.execute ⟨0xCA, 0x78, 0x56⟩).state.pc.toNat = 0x5678 ∧
    (bordering.execute ⟨0xE9, 0, 0⟩).state.pc.toNat = 0x9ABC ∧
    (bordering.execute ⟨0xF9, 0, 0⟩).state.sp.toNat = 0x9ABC ∧
    (Cpu.execute { bordering with sp := 2 } ⟨0xCD, 0x78, 0x56⟩).state.pc.toNat = 0x5678 ∧
    (Cpu.execute { bordering with sp := 2 } ⟨0xCD, 0x78, 0x56⟩).state.sp.toNat = 0 ∧
    (Cpu.execute { bordering with sp := 2 } ⟨0xEF, 0, 0⟩).state.pc.toNat = 40 ∧
    (Cpu.execute { bordering with sp := 2 } ⟨0xEF, 0, 0⟩).state.sp.toNat = 0 := by
  have hgoes (cpu : Cpu) (instruction : Instruction) (outcome : StepOutcome)
      (h : (cpu.execute instruction).result = .ok outcome) :
      cpu.Continues cpu.memory instruction outcome (cpu.execute instruction).state.toCore := by
    obtain ⟨_, hgoes, _⟩ := control_goes_where_the_instruction_says cpu instruction
    exact hgoes outcome h
  have hreturn := hgoes bordering ⟨0xC8, 0, 0⟩ (.executed 0xC8 1 none) rfl
  have hstay := hgoes bordering ⟨0xC0, 0, 0⟩ (.executed 0xC0 1 none) rfl
  have hnext := hgoes bordering ⟨0xC2, 0x78, 0x56⟩ (.executed 0xC2 3 none) rfl
  have hjump := hgoes bordering ⟨0xCA, 0x78, 0x56⟩ (.executed 0xCA 3 none) rfl
  have hpointed := hgoes bordering ⟨0xE9, 0, 0⟩ (.executed 0xE9 1 none) rfl
  have hstack := hgoes bordering ⟨0xF9, 0, 0⟩ (.executed 0xF9 1 none) rfl
  have hcall := hgoes { bordering with sp := 2 } ⟨0xCD, 0x78, 0x56⟩ (.executed 0xCD 3 none) rfl
  have hrestart := hgoes { bordering with sp := 2 } ⟨0xEF, 0, 0⟩ (.executed 0xEF 1 none) rfl
  exact ⟨rfl, hreturn.leads rfl, hreturn.sp, hstay.leads rfl, hstay.sp, hnext.leads rfl,
    hjump.leads rfl, hpointed.leads rfl, hstack.sp, hcall.leads rfl, hcall.sp,
    hrestart.leads rfl, hrestart.sp⟩

end Cpu

end Arcade8080
