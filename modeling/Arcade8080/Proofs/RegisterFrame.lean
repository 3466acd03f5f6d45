import Arcade8080.Proofs.Interrupts
import Arcade8080.Proofs.Numbering

/-!
What an instruction leaves alone. For each operation there are registers and flags that it is
there to set; no other register and no other flag ever changes, and of the two things that
concern interrupts the enable is left to EI and DI, and the request to the steps.
-/

namespace Arcade8080

inductive Flag where
  | z | s | p | cy | ac
  deriving DecidableEq

namespace Flags

def get (flags : Flags) : Flag → Bool
  | .z => flags.z
  | .s => flags.s
  | .p => flags.p
  | .cy => flags.cy
  | .ac => flags.ac

/-- No flag has changed but some. -/
def KeptOutside (changed : List Flag) (before after : Flags) : Prop :=
  ∀ flag ∉ changed, after.get flag = before.get flag

variable {before after : Flags}

theorem KeptOutside.refl (changed : List Flag) (flags : Flags) :
    flags.KeptOutside changed flags := fun _ _ => rfl

theorem KeptOutside.eq_of_nil (h : before.KeptOutside [] after) : after = before := by
  have hget (flag : Flag) : after.get flag = before.get flag := h flag List.not_mem_nil
  obtain ⟨z, s, p, cy, ac⟩ := after
  cases hget .z
  cases hget .s
  cases hget .p
  cases hget .cy
  cases hget .ac
  rfl

theorem keptOutside_all (before after : Flags) :
    before.KeptOutside [.z, .s, .p, .cy, .ac] after := by
  intro flag hflag
  cases flag <;> simp at hflag

theorem keptOutside_of_cy (h : after.cy = before.cy) :
    before.KeptOutside [.z, .s, .p, .ac] after := by
  intro flag hflag
  cases flag with
  | cy => exact h
  | _ => simp at hflag

theorem keptOutside_setCy (flags : Flags) (carry : Bool) :
    flags.KeptOutside [.cy] { flags with cy := carry } := by
  intro flag hflag
  cases flag with
  | cy => simp at hflag
  | _ => rfl

end Flags

/-- The two halves of a pair, high half first. -/
def Pair.registers : Pair → List Register
  | .bc => [.b, .c]
  | .de => [.d, .e]
  | .hl => [.h, .l]

def Operand.registers : Operand → List Register
  | .register name => [name]
  | .memory => []

def WideOperand.registers : WideOperand → List Register
  | .pair name => name.registers
  | .sp => []

def StackOperand.registers : StackOperand → List Register
  | .pair name => name.registers
  | .psw => [.a]

namespace Registers

/-- No register has changed but some. -/
def KeptOutside (changed : List Register) (before after : Registers) : Prop :=
  ∀ name ∉ changed, after.get name = before.get name

variable {before after : Registers}

theorem KeptOutside.refl (changed : List Register) (registers : Registers) :
    registers.KeptOutside changed registers := fun _ _ => rfl

theorem KeptOutside.eq_of_nil (h : before.KeptOutside [] after) : after = before :=
  eq_of_get fun name => h name List.not_mem_nil

theorem keptOutside_set (registers : Registers) (name : Register) (value : Byte) :
    registers.KeptOutside [name] (registers.set name value) := by
  intro other hother
  exact get_set_of_ne registers value (List.ne_of_not_mem_cons hother)

theorem keptOutside_setPair (registers : Registers) (pair : Pair) (value : Word) :
    registers.KeptOutside pair.registers (registers.setPair pair value) := by
  intro other hother
  cases pair <;> cases other <;> simp_all [Pair.registers, setPair, setHalves, get]

end Registers

namespace Operation

/-- The registers that an operation is there to set. -/
def targets : Operation → List Register
  | .mov target _ | .mvi target | .inr target | .dcr target => target.registers
  | .arithmetic kind _ | .arithmeticImmediate kind => if kind = .cmp then [] else [.a]
  | .rotate _ | .daa | .cma | .lda | .ldax _ => [.a]
  | .lxi target | .inx target | .dcx target => target.registers
  | .pop target => target.registers
  | .dad _ | .lhld | .xthl => Pair.hl.registers
  | .xchg => Pair.de.registers ++ Pair.hl.registers
  | _ => []

/-- The flags that an operation is there to set. -/
def flagTargets : Operation → List Flag
  | .arithmetic _ _ | .arithmeticImmediate _ | .daa | .pop .psw => [.z, .s, .p, .cy, .ac]
  | .inr _ | .dcr _ => [.z, .s, .p, .ac]
  | .dad _ | .rotate _ | .stc | .cmc => [.cy]
  | _ => []

/-- Operations that are about memory, the stack pointer, control, interrupts or ports, or about
nothing at all. -/
def keepsData : Operation → Bool
  | .nop | .hlt | .unassigned | .input | .output | .ei | .di => true
  | .sta | .stax _ | .shld | .mov .memory _ | .mvi .memory | .push _ => true
  | .sphl | .pchl | .jump | .jumpIf _ | .call | .callIf _ | .ret | .retIf _ | .rst _ => true
  | _ => false

theorem targets_of_keepsData {operation : Operation} (h : operation.keepsData = true) :
    operation.targets = [] ∧ operation.flagTargets = [] := by
  revert h
  cases operation with
  | mov target source | mvi target =>
    cases target <;> simp [keepsData, targets, flagTargets, Operand.registers]
  | _ => simp [keepsData, targets, flagTargets]

end Operation

namespace Core

variable {core : Core}

theorem registers_writeOperand (core : Core) (target : Operand) (value : Byte) :
    (core.writeOperand target value).Ensures fun after =>
      core.registers.KeptOutside target.registers after.registers := by
  cases target with
  | register name => exact core.registers.keptOutside_set name value
  | memory => exact .refl [] core.registers

/-- A comparison is the one operation whose result does not go to A. -/
theorem registers_computed (core : Core) (kind : Arithmetic) (operand : Byte) :
    core.registers.KeptOutside (Operation.arithmeticImmediate kind).targets
      (core.computed kind operand).registers := by
  cases kind with
  | cmp => exact .refl _ core.registers
  | _ => exact core.registers.keptOutside_set .a _

theorem registers_setStackOperand (core : Core) (target : StackOperand) (value : Word) :
    core.registers.KeptOutside target.registers
      (core.setStackOperand target value).registers := by
  cases target with
  | pair name => exact core.registers.keptOutside_setPair name value
  | psw => exact core.registers.keptOutside_set .a _

/-- No register changes but the ones that an instruction is there to set. -/
theorem registers_perform (core : Core) (instruction : Instruction) :
    (core.perform instruction).Ensures fun after =>
      core.registers.KeptOutside instruction.operation.targets after.registers := by
  simp only [perform]
  cases instruction.operation with
  | mov target source =>
    rw [Bus.ensures_bind]
    exact Bus.ensures_of_forall (fun value => registers_writeOperand core target value) _
  | mvi target => exact registers_writeOperand core target _
  | inr target =>
    rw [Bus.ensures_bind]
    refine Bus.ensures_of_forall (fun value => ?_) _
    exact registers_writeOperand { core with flags := (Alu.increment core.flags value).2 } target _
  | dcr target =>
    rw [Bus.ensures_bind]
    refine Bus.ensures_of_forall (fun value => ?_) _
    exact registers_writeOperand { core with flags := (Alu.decrement core.flags value).2 } target _
  | lxi target | inx target | dcx target =>
    cases target with
    | pair name => exact core.registers.keptOutside_setPair name _
    | sp => exact .refl [] core.registers
  | arithmetic kind source =>
    rw [Bus.ensures_bind]
    exact Bus.ensures_of_forall (fun value => registers_computed core kind value) _
  | arithmeticImmediate kind => exact registers_computed core kind _
  | rotate | daa | cma => exact core.registers.keptOutside_set .a _
  | lda | ldax => exact fun value => core.registers.keptOutside_set .a value
  | dad => exact core.registers.keptOutside_setPair .hl _
  | lhld | xthl => exact fun low high => core.registers.keptOutside_setPair .hl _
  | xchg =>
    intro name hname
    obtain ⟨hde, hhl⟩ := not_or.mp (mt List.mem_append.mpr hname)
    have hfirst := core.registers.keptOutside_setPair .de core.registers.hl name hde
    have hsecond := (core.registers.setPair .de core.registers.hl).keptOutside_setPair .hl
      core.registers.de name hhl
    exact hsecond.trans hfirst
  | pop target =>
    exact fun low high => registers_setStackOperand { core with sp := core.sp + 2 } target _
  | jumpIf condition =>
    dsimp only
    split <;> exact .refl [] core.registers
  | callIf condition =>
    dsimp only
    split <;> exact .refl [] core.registers
  | ret => exact fun low high => .refl [] core.registers
  | retIf condition =>
    dsimp only
    split
    · exact fun low high => .refl [] core.registers
    · exact .refl [] core.registers
  | _ => exact .refl [] core.registers

theorem flags_writeOperand {changed : List Flag} {flags : Flags}
    (h : flags.KeptOutside changed core.flags) (target : Operand) (value : Byte) :
    (core.writeOperand target value).Ensures fun after =>
      flags.KeptOutside changed after.flags := by
  cases target with
  | register name => exact h
  | memory => exact h

/-- No flag changes but the ones that an instruction is there to set. -/
theorem flags_perform (core : Core) (instruction : Instruction) :
    (core.perform instruction).Ensures fun after =>
      core.flags.KeptOutside instruction.operation.flagTargets after.flags := by
  simp only [perform]
  cases instruction.operation with
  | mov target source =>
    rw [Bus.ensures_bind]
    exact Bus.ensures_of_forall (fun value => flags_writeOperand (.refl [] _) target value) _
  | mvi target => exact flags_writeOperand (.refl [] _) target _
  -- Counting up or down keeps CY, and putting the result in its place keeps what that has set.
  | inr target | dcr target =>
    rw [Bus.ensures_bind]
    refine Bus.ensures_of_forall (fun value => ?_) _
    apply flags_writeOperand
    exact Flags.keptOutside_of_cy rfl
  | lxi target | inx target | dcx target => cases target <;> exact .refl [] core.flags
  | arithmetic kind source =>
    rw [Bus.ensures_bind]
    exact Bus.ensures_of_forall (fun value => Flags.keptOutside_all _ _) _
  | arithmeticImmediate | daa => exact Flags.keptOutside_all _ _
  | rotate | dad | stc | cmc => exact Flags.keptOutside_setCy _ _
  | pop target =>
    intro low high
    cases target with
    | pair name => exact .refl [] core.flags
    | psw => exact Flags.keptOutside_all _ _
  | lda | ldax => exact fun value => .refl [] core.flags
  | lhld | xthl | ret => exact fun low high => .refl [] core.flags
  | jumpIf condition =>
    dsimp only
    split <;> exact .refl [] core.flags
  | callIf condition =>
    dsimp only
    split <;> exact .refl [] core.flags
  | retIf condition =>
    dsimp only
    split
    · exact fun low high => .refl [] core.flags
    · exact .refl [] core.flags
  | _ => exact .refl [] core.flags

/-- What has changed in a core, if anything, is what an operation is there to change. Nothing is
said of the program counter and the stack pointer. -/
structure KeepsTo (core : Core) (operation : Operation) (after : Core) : Prop where
  registers : core.registers.KeptOutside operation.targets after.registers
  flags : core.flags.KeptOutside operation.flagTargets after.flags
  interruptsEnabled : operation ≠ .ei → operation ≠ .di →
    after.interruptsEnabled = core.interruptsEnabled

theorem keepsTo_of_execute {instruction : Instruction} {memory : Memory} {outcome : StepOutcome}
    {after : Core}
    (h : ((core.execute instruction).run memory).result = .ok (outcome, after)) :
    core.KeepsTo instruction.operation after := by
  rw [result_run_execute, Attempt.map_eq_ok_iff] at h
  obtain ⟨ended, hperform, hpair⟩ := h
  cases hpair
  have henabled := (enabled_perform (core.past instruction) instruction).result hperform
  constructor
  case registers =>
    exact (registers_perform (core.past instruction) instruction).result hperform
  case flags =>
    exact (flags_perform (core.past instruction) instruction).result hperform
  case interruptsEnabled =>
    intro hei hdi
    rw [henabled]
    split
    · rename_i h
      exact absurd h hei
    · rename_i h
      exact absurd h hdi
    · rfl

end Core

namespace Cpu

/-- An instruction that fails changes nothing in the core. -/
theorem keepsTo_execute (cpu : Cpu) (instruction : Instruction) :
    cpu.KeepsTo instruction.operation (cpu.execute instruction).state.toCore := by
  rw [execute_eq]
  cases hresult : (cpu.transact (·.execute instruction)).result with
  | ok outcome =>
    obtain ⟨after, hrun⟩ := result_transact_eq_ok_iff.mp hresult
    rw [core_transact_of_ok hrun]
    exact Core.keepsTo_of_execute hrun
  | error fault =>
    rw [core_transact_of_error (result_transact_eq_error_iff.mp hresult)]
    exact ⟨.refl _ cpu.registers, .refl _ cpu.flags, fun _ _ => rfl⟩

/-- The opcode tells what operation an instruction is, and whether it succeeds or not it changes
no registers and no flags but those that the operation is there to set: for many there are
none. Only EI and DI change the enable, and no instruction changes what is pending. -/
theorem instructions_keep_to_their_targets (cpu : Cpu) (instruction : Instruction) :
    (∀ operation, instruction.operation = operation ↔
      instruction.opcode.toNat ∈ operation.opcodes) ∧
    cpu.KeepsTo instruction.operation (cpu.execute instruction).state.toCore ∧
    (instruction.operation.keepsData = true →
      (cpu.execute instruction).state.registers = cpu.registers ∧
        (cpu.execute instruction).state.flags = cpu.flags) ∧
    (cpu.execute instruction).state.pending = cpu.pending := by
  have hkeeps := cpu.keepsTo_execute instruction
  refine ⟨Operation.decode_eq_iff instruction.opcode, hkeeps, ?_, ?_⟩
  · intro hdata
    obtain ⟨htargets, hflags⟩ := Operation.targets_of_keepsData hdata
    have hregisters := hkeeps.registers
    have hkept := hkeeps.flags
    rw [htargets] at hregisters
    rw [hflags] at hkept
    exact ⟨hregisters.eq_of_nil, hkept.eq_of_nil⟩
  · rw [execute_eq, pending_transact]

/-- A processor that points at a byte, with CY set and a request pending. -/
def pointing : Cpu where
  registers := { a := 0x80, l := 1 }
  flags := { cy := true }
  pending := some (.ofNat 3)
  memory := { cells := some #[0, 0x10], window := ⟨0, 2⟩ }

/-- MOV M,A changes the byte and no register or flag; DCR M counts it down and leaves CY and
every register alone. -/
theorem instructions_keep_to_their_targets_of_pointing :
    (pointing.execute ⟨0x77, 0, 0⟩).state.memory.byte? 1 = some 0x80 ∧
    (pointing.execute ⟨0x77, 0, 0⟩).state.registers = pointing.registers ∧
    (pointing.execute ⟨0x77, 0, 0⟩).state.flags = pointing.flags ∧
    (pointing.execute ⟨0x35, 0, 0⟩).state.memory.byte? 1 = some 0x0F ∧
    (pointing.execute ⟨0x35, 0, 0⟩).state.flags.cy = true ∧
    (pointing.execute ⟨0x35, 0, 0⟩).state.registers = pointing.registers ∧
    (pointing.execute ⟨0x35, 0, 0⟩).state.pending = some (.ofNat 3) := by
  obtain ⟨_, _, hmoved, _⟩ := instructions_keep_to_their_targets pointing ⟨0x77, 0, 0⟩
  obtain ⟨_, hcounted, _, hpending⟩ := instructions_keep_to_their_targets pointing ⟨0x35, 0, 0⟩
  obtain ⟨hregisters, hflags⟩ := hmoved rfl
  exact ⟨rfl, hregisters, hflags, rfl, hcounted.flags .cy (by decide),
    hcounted.registers.eq_of_nil, hpending⟩

end Cpu

end Arcade8080
