import Arcade8080.Alu.Lemmas
import Arcade8080.Cpu.Operand
import Arcade8080.Proofs.Numbering

/-!
The instructions with arithmetic of their own agree with the general ones. INR and DCR add and
take away one but for the carry, wherever their operand is; DAD adds two words as ADD and ADC
add their halves; RAL adds A to itself; CMP subtracts for the flags alone.
-/

namespace Arcade8080

namespace Alu

/-- Counting up adds one, with a carry that stays. -/
theorem increment_eq (flags : Flags) (value : Byte) :
    increment flags value =
      ((add flags value 1 false).1, { (add flags value 1 false).2 with cy := flags.cy }) := by
  have hsum : value + 1 + (BitVec.ofBool false).setWidth 8 = value + 1 := BitVec.add_zero _
  have hac : (((value + 1) &&& 0x0F) == 0) =
      decide (16 ≤ value.toNat % 16 + (1 : Byte).toNat % 16 + false.toNat) := by
    have hnext : ((value + 1) &&& 0x0F).toNat = (value.toNat + 1) % 16 := by
      rw [toNat_and_fifteen, BitVec.toNat_add]
      exact Nat.mod_mod_of_dvd _ (by decide)
    rw [Bool.eq_iff_iff, beq_iff_eq, decide_eq_true_iff, ← BitVec.toNat_inj, hnext]
    change (value.toNat + 1) % 16 = 0 ↔ 16 ≤ value.toNat % 16 + 1 + 0
    omega
  simp only [increment, add_eq, hsum, hac, Flags.withResult]

/-- Counting down takes one away, with a carry that stays. -/
theorem decrement_eq (flags : Flags) (value : Byte) :
    decrement flags value =
      ((subtract flags value 1 false).1,
        { (subtract flags value 1 false).2 with cy := flags.cy }) := by
  have hdifference : value - 1 - (BitVec.ofBool false).setWidth 8 = value - 1 :=
    BitVec.sub_zero _
  have hac : (((value - 1) &&& 0x0F) != 0x0F) =
      decide ((1 : Byte).toNat % 16 + false.toNat ≤ value.toNat % 16) := by
    have hnext : ((value - 1) &&& 0x0F).toNat = (value.toNat + 15) % 16 := by
      rw [toNat_and_fifteen, BitVec.toNat_sub]
      change (255 + value.toNat) % 256 % 16 = (value.toNat + 15) % 16
      omega
    rw [Bool.eq_iff_iff, bne_iff_ne, decide_eq_true_iff, ne_eq, ← BitVec.toNat_inj, hnext]
    change ¬ (value.toNat + 15) % 16 = 15 ↔ 1 + 0 ≤ value.toNat % 16
    omega
  simp only [decrement, subtract_eq, hdifference, hac, Flags.withResult]

/-- Words are added as their halves are, the low ones first. -/
theorem addWords_eq {augend addend : Word} {low high : Byte} {middle flags : Flags}
    (hlow : Sums (Word.low augend).toNat (Word.low addend).toNat 0 low middle)
    (hhigh : Sums (Word.high augend).toNat (Word.high addend).toNat middle.cy.toNat high flags) :
    addWords augend addend = (Word.ofBytes high low, flags.cy) := by
  have haugend := augend.isLt
  have haddend := addend.isLt
  have hwide : (augend.setWidth 32 + addend.setWidth 32).toNat =
      augend.toNat + addend.toNat := by
    simp only [BitVec.toNat_add, BitVec.toNat_setWidth]
    omega
  have hlowByte := low.isLt
  have hhighByte := high.isLt
  have hlowTotal : low.toNat + 256 * middle.cy.toNat =
      (Word.low augend).toNat + (Word.low addend).toNat + false.toNat := hlow.total
  have hhighTotal := hhigh.total
  have hcy := hhigh.cy
  rw [Word.toNat_low, Word.toNat_low, Bool.toNat_false] at hlowTotal
  rw [Word.toNat_high, Word.toNat_high] at hhighTotal hcy
  rw [addWords, Prod.mk.injEq]
  constructor
  · apply BitVec.eq_of_toNat_eq
    rw [BitVec.toNat_setWidth, hwide, Word.toNat_ofBytes]
    omega
  · rw [Bool.eq_iff_iff, hcy, decide_eq_true_iff, BitVec.lt_def, hwide]
    change 65535 < augend.toNat + addend.toNat ↔ _
    omega

/-- Moving the bits of a byte up by one place, with the carry coming in, doubles it. -/
theorem toNat_shift_in (value : Byte) (carry : Bool) :
    ((value <<< 1) ||| (BitVec.ofBool carry).setWidth 8).toNat =
      (value.toNat + value.toNat + carry.toNat) % 256 := by
  have hshift : (value <<< 1) ||| (BitVec.ofBool carry).setWidth 8 = value.shiftConcat carry := by
    apply BitVec.eq_of_getLsbD_eq
    intro index hindex
    cases index with
    | zero => simp
    | succ index =>
      have hsame : index + 1 < 8 := hindex
      simp [hsame]
  rw [hshift, BitVec.toNat_shiftConcat, Nat.shiftLeft_eq]
  omega

theorem rotate_ral_eq (flags : Flags) (a : Byte) :
    rotate .ral flags.cy a = ((add flags a a flags.cy).1, (add flags a a flags.cy).2.cy) := by
  have hsum := sums_add flags a a flags.cy
  have hmsb : a.getLsbD 7 = a.msb := (BitVec.msb_eq_getLsbD_last a).symm
  rw [rotate, Prod.mk.injEq]
  constructor
  · apply BitVec.eq_of_toNat_eq
    rw [toNat_shift_in, hsum.value]
  · rw [Bool.eq_iff_iff, hsum.cy, hmsb, BitVec.msb_eq_decide, decide_eq_true_iff]
    have hcarry := flags.cy.toNat_le
    change 128 ≤ a.toNat ↔ _
    omega

/-- A comparison sets the flags that a subtraction sets. -/
theorem snd_apply_cmp (flags : Flags) (a operand : Byte) :
    (apply .cmp flags a operand).2 = (apply .sub flags a operand).2 := rfl

end Alu

/-- The bytes of a wide operand, the high one first. -/
def Core.halves (core : Core) : WideOperand → Byte × Byte
  | .pair .bc => (core.registers.b, core.registers.c)
  | .pair .de => (core.registers.d, core.registers.e)
  | .pair .hl => (core.registers.h, core.registers.l)
  | .sp => (Word.high core.sp, Word.low core.sp)

theorem Core.wide_eq (core : Core) (source : WideOperand) :
    core.wide source = Word.ofBytes (core.halves source).1 (core.halves source).2 := by
  rcases source with pair | _
  · cases pair <;> rfl
  · exact (Word.ofBytes_high_low core.sp).symm

namespace Cpu

variable {cpu : Cpu} {instruction : Instruction} {target : Operand} {value : Byte}

/-- The processor past a counting instruction of one byte, with all flags but CY as given and
nothing counted yet. -/
def pastCount (cpu : Cpu) (flags : Flags) : Cpu :=
  { cpu with flags := { flags with cy := cpu.flags.cy }, pc := cpu.pc + 1 }

/-- Counting an operand up or down does what the general instruction does to an A that holds
the operand: every flag but CY is set, and the byte goes back to where the operand was, as far
as the window admits it there, and to no other place. -/
structure CountsLike (cpu : Cpu) (target : Operand) (counted general : Attempt Cpu StepOutcome) :
    Prop where
  ran : ∃ outcome, counted.result = .ok outcome
  generalRan : ∃ outcome, general.result = .ok outcome
  assigned : (cpu.pastCount general.state.flags).Assigned
    [⟨cpu.place target, .operand general.state.registers.a⟩] counted.state

/-- A word is added to HL byte by byte: its low half to L with ADD, then its high half to H
with ADC, on any route. -/
structure AddsByBytes (cpu : Cpu) (addend : Byte × Byte) (low high : Attempt Cpu StepOutcome) :
    Prop where
  add : ∃ (route : Route) (instruction : Instruction),
    instruction.operation = route.operation .add ∧
    (cpu.withA cpu.registers.l).routed? cpu.memory instruction route = some addend.2 ∧
    low = (cpu.withA cpu.registers.l).execute instruction
  adc : ∃ (route : Route) (instruction : Instruction),
    instruction.operation = route.operation .adc ∧
    (low.state.withA cpu.registers.h).routed? low.state.memory instruction route =
      some addend.1 ∧
    high = (low.state.withA cpu.registers.h).execute instruction

/-- Counting takes a byte from an operand, sets flags and puts a byte back. -/
theorem execute_of_count {count : Flags → Byte → Byte × Flags}
    (hlength : instruction.operation.length = 1)
    (hperform : ∀ core : Core, core.perform instruction =
      core.readOperand target >>= fun value =>
        Core.writeOperand { core with flags := (count core.flags value).2 } target
          (count core.flags value).1)
    (hoperand : cpu.at? (cpu.place target) = some value) :
    let counted : Cpu := { cpu with flags := (count cpu.flags value).2, pc := cpu.pc + 1 }
    (cpu.execute instruction).result = .ok (cpu.report instruction) ∧
      (cpu.execute instruction).state =
        counted.assign (cpu.place target) (count cpu.flags value).1 := by
  intro counted
  have hpast : cpu.past instruction = { cpu.toCore with pc := cpu.pc + 1 } := by
    rw [Core.past, hlength]
    rfl
  have hfound : (cpu.past instruction).at? cpu.memory ((cpu.past instruction).place target) =
      some value := by
    cases target <;> exact hoperand
  have hthere : (counted.at? (counted.place target)).isSome = true := by
    cases target <;> exact Option.isSome_of_eq_some hoperand
  obtain ⟨records, hwrite⟩ := run_writeOperand hthere (count cpu.flags value).1
  have hrun := Core.run_readOperand_bind hfound fun value =>
    Core.writeOperand { cpu.past instruction with
      flags := (count (cpu.past instruction).flags value).2 } target
        (count (cpu.past instruction).flags value).1
  have hsame : Core.writeOperand { cpu.past instruction with
      flags := (count (cpu.past instruction).flags value).2 } target
        (count (cpu.past instruction).flags value).1 =
      counted.writeOperand target (count cpu.flags value).1 := by
    rw [hpast]
  rw [← hperform, hsame, hwrite] at hrun
  obtain ⟨hresult, hstate⟩ := execute_of_run hrun
  refine ⟨hresult, ?_⟩
  rw [hstate]
  exact (sameApart_assign counted _ _).eq_of_core_memory

/-- What holds of INR and ADI holds of DCR and SUI: the two differ in what they do with one. -/
theorem countsLike {count : Flags → Byte → Byte × Flags} {kind : Arithmetic}
    {general : Instruction}
    (hcount : ∀ flags value, count flags value =
      ((Alu.apply kind flags value 1).1,
        { (Alu.apply kind flags value 1).2 with cy := flags.cy }))
    (hlength : instruction.operation.length = 1)
    (hperform : ∀ core : Core, core.perform instruction =
      core.readOperand target >>= fun value =>
        Core.writeOperand { core with flags := (count core.flags value).2 } target
          (count core.flags value).1)
    (hgeneral : general.operation = .arithmeticImmediate kind) (hone : general.lo = 1)
    (hoperand : cpu.at? (cpu.place target) = some value) :
    CountsLike cpu target (cpu.execute instruction) ((cpu.withA value).execute general) := by
  have hrouted : (cpu.withA value).routed? cpu.memory general .immediate = some 1 := by
    rw [← hone]
    rfl
  have hroute : general.operation = Route.immediate.operation kind := hgeneral
  obtain ⟨hresult, hstate⟩ := execute_of_count hlength hperform hoperand
  obtain ⟨hcomputed, hgeneral⟩ := execute_of_routed hroute hrouted
  refine ⟨⟨_, hresult⟩, ⟨_, hcomputed⟩, ?_⟩
  rw [hcount] at hstate
  rw [hstate, hgeneral]
  have hthere : ((cpu.pastCount (Alu.apply kind cpu.flags value 1).2).at?
      (cpu.place target)).isSome = true := by
    cases target <;> exact Option.isSome_of_eq_some hoperand
  apply assigned_assign hthere

theorem countsLike_inr {general : Instruction} (h : instruction.operation = .inr target)
    (hgeneral : general.operation = .arithmeticImmediate .add) (hone : general.lo = 1)
    (hoperand : cpu.at? (cpu.place target) = some value) :
    CountsLike cpu target (cpu.execute instruction) ((cpu.withA value).execute general) := by
  apply countsLike Alu.increment_eq _ _ hgeneral hone hoperand
  · rw [h]
    rfl
  · intro core
    simp only [Core.perform, h]

theorem countsLike_dcr {general : Instruction} (h : instruction.operation = .dcr target)
    (hgeneral : general.operation = .arithmeticImmediate .sub) (hone : general.lo = 1)
    (hoperand : cpu.at? (cpu.place target) = some value) :
    CountsLike cpu target (cpu.execute instruction) ((cpu.withA value).execute general) := by
  apply countsLike Alu.decrement_eq _ _ hgeneral hone hoperand
  · rw [h]
    rfl
  · intro core
    simp only [Core.perform, h]

/-- The immediate instructions find any byte, so a word can always be added like that. -/
theorem exists_addsByBytes (cpu : Cpu) (addend : Byte × Byte) :
    ∃ low high, cpu.AddsByBytes addend low high := by
  let add : Instruction := ⟨0xC6, addend.2, 0⟩
  let adc : Instruction := ⟨0xCE, addend.1, 0⟩
  have hadd : Operation.decode 0xC6 = Route.immediate.operation .add := rfl
  have hadc : Operation.decode 0xCE = Route.immediate.operation .adc := rfl
  let low := (cpu.withA cpu.registers.l).execute add
  let high := (low.state.withA cpu.registers.h).execute adc
  exact ⟨low, high, ⟨.immediate, add, hadd, rfl, rfl⟩, ⟨.immediate, adc, hadc, rfl, rfl⟩⟩

/-- What DAD does, told from an addition by bytes. -/
structure AddsLike (cpu : Cpu) (added low high : Attempt Cpu StepOutcome) : Prop where
  ran : ∃ outcome, added.result = .ok outcome
  lowRan : ∃ outcome, low.result = .ok outcome
  highRan : ∃ outcome, high.result = .ok outcome
  state : added.state =
    { cpu with
      registers := { cpu.registers with h := high.state.registers.a, l := low.state.registers.a }
      flags := { cpu.flags with cy := high.state.flags.cy }
      pc := cpu.pc + 1 }

theorem addsLike {source : WideOperand} {low high : Attempt Cpu StepOutcome}
    (h : instruction.operation = .dad source)
    (hbytes : cpu.AddsByBytes (cpu.halves source) low high) :
    AddsLike cpu (cpu.execute instruction) low high := by
  obtain ⟨⟨lowRoute, add, hadd, hlow, rfl⟩, ⟨highRoute, adc, hadc, hhigh, rfl⟩⟩ := hbytes
  obtain ⟨haddResult, haddState⟩ := execute_of_routed hadd hlow
  obtain ⟨hadcResult, hadcState⟩ := execute_of_routed hadc hhigh
  have hlow : Alu.Sums (Word.low cpu.registers.hl).toNat (Word.low (cpu.wide source)).toNat 0
      ((cpu.withA cpu.registers.l).execute add).state.registers.a
      ((cpu.withA cpu.registers.l).execute add).state.flags := by
    rw [haddState, Registers.hl, Core.wide_eq, Word.low_ofBytes, Word.low_ofBytes]
    exact Alu.sums_add cpu.flags cpu.registers.l _ false
  -- The carry out of the low halves is the one that ADC finds, whatever A is by then.
  have hhigh : Alu.Sums (Word.high cpu.registers.hl).toNat (Word.high (cpu.wide source)).toNat
      ((cpu.withA cpu.registers.l).execute add).state.flags.cy.toNat
      ((((cpu.withA cpu.registers.l).execute add).state.withA cpu.registers.h).execute
        adc).state.registers.a
      ((((cpu.withA cpu.registers.l).execute add).state.withA cpu.registers.h).execute
        adc).state.flags := by
    rw [hadcState, Registers.hl, Core.wide_eq, Word.high_ofBytes, Word.high_ofBytes]
    exact Alu.sums_add _ cpu.registers.h _ _
  have hwords := Alu.addWords_eq hlow hhigh
  have hpast : cpu.past instruction = { cpu.toCore with pc := cpu.pc + 1 } := by
    rw [Core.past, h]
    rfl
  have hwide : (cpu.past instruction).wide source = cpu.wide source := by
    cases source <;> rfl
  have hperform : (cpu.past instruction).perform instruction = pure
      { cpu.past instruction with
        registers := (cpu.past instruction).registers.setPair .hl
          (Alu.addWords cpu.registers.hl (cpu.wide source)).1
        flags := { (cpu.past instruction).flags with
          cy := (Alu.addWords cpu.registers.hl (cpu.wide source)).2 } } := by
    rw [← hwide]
    simp only [Core.perform, h]
    rfl
  obtain ⟨hresult, hstate⟩ := execute_of_pure hperform
  constructor
  case ran => exact ⟨_, hresult⟩
  case lowRan => exact ⟨_, haddResult⟩
  case highRan => exact ⟨_, hadcResult⟩
  case state =>
    rw [hstate, hwords, hpast]
    simp only [Registers.setPair, Registers.setHalves, Word.high_ofBytes, Word.low_ofBytes]

/-- RAL leaves in A and in CY what ADC A leaves there. -/
theorem rotates_like_adc {rotation general : Instruction}
    (h : rotation.operation = .rotate .ral)
    (hgeneral : general.operation = .arithmetic .adc (.register .a)) :
    (∃ outcome, (cpu.execute rotation).result = .ok outcome) ∧
    (∃ outcome, (cpu.execute general).result = .ok outcome) ∧
    (cpu.execute rotation).state.registers.a = (cpu.execute general).state.registers.a ∧
    (cpu.execute rotation).state.flags.cy = (cpu.execute general).state.flags.cy := by
  have hroute : general.operation = (Route.operand (.register .a)).operation .adc := hgeneral
  have hrotate := Alu.rotate_ral_eq cpu.flags cpu.registers.a
  have hperform : (cpu.past rotation).perform rotation = pure
      { cpu.past rotation with
        registers := { (cpu.past rotation).registers with
          a := (Alu.rotate .ral cpu.flags.cy cpu.registers.a).1 }
        flags := { (cpu.past rotation).flags with
          cy := (Alu.rotate .ral cpu.flags.cy cpu.registers.a).2 } } := by
    simp only [Core.perform, h]
    rfl
  obtain ⟨hresult, hstate⟩ := execute_of_pure hperform
  have hself : cpu.routed? cpu.memory general (.operand (.register .a)) =
      some cpu.registers.a := rfl
  obtain ⟨hgeneralResult, hgeneralState⟩ := execute_of_routed hroute hself
  refine ⟨⟨_, hresult⟩, ⟨_, hgeneralResult⟩, ?_, ?_⟩
  · rw [hstate, hgeneralState, hrotate]
    rfl
  · rw [hstate, hgeneralState, hrotate]
    rfl

/-- CMP leaves the flags that SUB leaves, wherever the two find the same operand. -/
theorem compares_like_sub {comparison general : Instruction} {route other : Route}
    (h : comparison.operation = route.operation .cmp)
    (hgeneral : general.operation = other.operation .sub)
    (hoperand : cpu.routed? cpu.memory comparison route = some value)
    (hsame : cpu.routed? cpu.memory general other = some value) :
    (∃ outcome, (cpu.execute comparison).result = .ok outcome) ∧
    (∃ outcome, (cpu.execute general).result = .ok outcome) ∧
    (cpu.execute comparison).state.flags = (cpu.execute general).state.flags := by
  obtain ⟨hresult, hstate⟩ := execute_of_routed h hoperand
  obtain ⟨hgeneralResult, hgeneralState⟩ := execute_of_routed hgeneral hsame
  refine ⟨⟨_, hresult⟩, ⟨_, hgeneralResult⟩, ?_⟩
  rw [hstate, hgeneralState]
  exact Alu.snd_apply_cmp cpu.flags cpu.registers.a value

/-- INR and ADI 1, DCR and SUI 1, DAD and an addition by bytes, RAL and ADC A, CMP and SUB
agree on every processor, as far as each pair has anything in common: counting leaves CY alone
and sets the other flags even where the window keeps its byte out, DAD sets CY alone, and
neither touches A unless it is the operand. The opcode tells which of them an instruction is. -/
theorem special_arithmetic_agrees (cpu : Cpu) :
    (∀ (instruction : Instruction) (operation : Operation),
      instruction.operation = operation ↔ instruction.opcode.toNat ∈ operation.opcodes) ∧
    (∀ (target : Operand) (value : Byte) (counting general : Instruction),
      cpu.at? (cpu.place target) = some value → general.lo = 1 →
      counting.operation = .inr target ∧ general.operation = .arithmeticImmediate .add ∨
        counting.operation = .dcr target ∧ general.operation = .arithmeticImmediate .sub →
      CountsLike cpu target (cpu.execute counting) ((cpu.withA value).execute general)) ∧
    (∀ addend, ∃ low high, cpu.AddsByBytes addend low high) ∧
    (∀ (source : WideOperand) (dad : Instruction) (low high : Attempt Cpu StepOutcome),
      dad.operation = .dad source → cpu.AddsByBytes (cpu.halves source) low high →
      AddsLike cpu (cpu.execute dad) low high) ∧
    (∀ rotation general : Instruction, rotation.operation = .rotate .ral →
      general.operation = .arithmetic .adc (.register .a) →
      (∃ outcome, (cpu.execute rotation).result = .ok outcome) ∧
      (∃ outcome, (cpu.execute general).result = .ok outcome) ∧
      (cpu.execute rotation).state.registers.a = (cpu.execute general).state.registers.a ∧
      (cpu.execute rotation).state.flags.cy = (cpu.execute general).state.flags.cy) ∧
    ∀ (route other : Route) (value : Byte) (comparison general : Instruction),
      comparison.operation = route.operation .cmp → general.operation = other.operation .sub →
      cpu.routed? cpu.memory comparison route = some value →
      cpu.routed? cpu.memory general other = some value →
      (∃ outcome, (cpu.execute comparison).result = .ok outcome) ∧
      (∃ outcome, (cpu.execute general).result = .ok outcome) ∧
      (cpu.execute comparison).state.flags = (cpu.execute general).state.flags := by
  refine ⟨?_, ?_, cpu.exists_addsByBytes, ?_, ?_, ?_⟩
  · exact fun instruction operation => Operation.decode_eq_iff instruction.opcode operation
  · rintro target value counting general hoperand hone (⟨hinr, hadd⟩ | ⟨hdcr, hsub⟩)
    · exact countsLike_inr hinr hadd hone hoperand
    · exact countsLike_dcr hdcr hsub hone hoperand
  · intro source dad low high hdad hbytes
    exact addsLike hdad hbytes
  · intro rotation general hrotation hgeneral
    exact rotates_like_adc hrotation hgeneral
  · intro route other value comparison general hcomparison hgeneral hoperand hsame
    exact compares_like_sub hcomparison hgeneral hoperand hsame

/-- A byte behind a closed window, CY set, and a stack pointer at the end of the address
space. -/
def closed : Cpu where
  registers := { a := 0x80, b := 0x0F, c := 0xFF, l := 1 }
  flags := { cy := true }
  sp := 0xFFFF
  memory := { cells := some #[0, 0x0F], window := ⟨0, 0⟩ }

/-- INR M sets AC and leaves CY and the byte alone, and INR B counts B and no other register.
DAD SP comes to zero with a carry, DAD B to 1000 without; RAL takes one carry in and puts
another out; CMP M sets the flags of SUB M. -/
theorem special_arithmetic_agrees_of_closed :
    (closed.execute ⟨0x34, 0, 0⟩).state.memory.byte? 1 = some 0x0F ∧
    (closed.execute ⟨0x34, 0, 0⟩).state.flags.ac = true ∧
    (closed.execute ⟨0x34, 0, 0⟩).state.flags.cy = true ∧
    (closed.execute ⟨0x04, 0, 0⟩).state.at? (.register .b) = some 0x10 ∧
    (closed.execute ⟨0x04, 0, 0⟩).state.at? (.register .c) = some 0xFF ∧
    (closed.execute ⟨0x39, 0, 0⟩).state.registers = { closed.registers with h := 0, l := 0 } ∧
    (closed.execute ⟨0x39, 0, 0⟩).state.flags.cy = true ∧
    (closed.execute ⟨0x09, 0, 0⟩).state.registers =
      { closed.registers with h := 0x10, l := 0 } ∧
    (closed.execute ⟨0x09, 0, 0⟩).state.flags.cy = false ∧
    (closed.execute ⟨0x17, 0, 0⟩).state.registers.a = 1 ∧
    (closed.execute ⟨0xBE, 0, 0⟩).state.flags = (closed.execute ⟨0x96, 0, 0⟩).state.flags := by
  obtain ⟨_, hcounts, _, hadds, hrotates, hcompares⟩ := special_arithmetic_agrees closed
  have hinrM := hcounts .memory 0x0F ⟨0x34, 0, 0⟩ ⟨0xC6, 1, 0⟩ (by decide) rfl (.inl ⟨rfl, rfl⟩)
  have hinrB := hcounts (.register .b) 0x0F ⟨0x04, 0, 0⟩ ⟨0xC6, 1, 0⟩ rfl rfl
    (.inl ⟨rfl, rfl⟩)
  let low (addend : Byte) := (closed.withA 1).execute ⟨0xC6, addend, 0⟩
  let high (first second : Byte) := ((low first).state.withA 0).execute ⟨0xCE, second, 0⟩
  have hadd : Operation.decode 0xC6 = Route.immediate.operation .add := rfl
  have hadc : Operation.decode 0xCE = Route.immediate.operation .adc := rfl
  have hbytes (first second : Byte) :
      closed.AddsByBytes (second, first) (low first) (high first second) :=
    ⟨⟨.immediate, ⟨0xC6, first, 0⟩, hadd, rfl, rfl⟩,
      ⟨.immediate, ⟨0xCE, second, 0⟩, hadc, rfl, rfl⟩⟩
  have hdadSp := hadds .sp ⟨0x39, 0, 0⟩ _ _ rfl (hbytes 0xFF 0xFF)
  have hdadB := hadds (.pair .bc) ⟨0x09, 0, 0⟩ _ _ rfl (hbytes 0xFF 0x0F)
  obtain ⟨_, _, hral, _⟩ := hrotates ⟨0x17, 0, 0⟩ ⟨0x8F, 0, 0⟩ rfl rfl
  obtain ⟨_, _, hcmp⟩ := hcompares (.operand .memory) (.operand .memory) 0x0F ⟨0xBE, 0, 0⟩
    ⟨0x96, 0, 0⟩ rfl rfl (by decide) (by decide)
  refine ⟨?_, ?_, ?_, ?_, ?_, ?_, ?_, ?_, ?_, hral, hcmp⟩
  · have hplace : closed.place .memory = .memory 1 := by decide
    have hkept := hinrM.assigned.rejected _ (List.mem_singleton_self _) (by decide)
    rw [hplace] at hkept
    exact hkept
  · exact congrArg (·.flags.ac) hinrM.assigned.apart.others
  · exact congrArg (·.flags.cy) hinrM.assigned.apart.others
  · exact hinrB.assigned.admitted _ (List.mem_singleton_self _) rfl
  · exact hinrB.assigned.kept (.register .c) (by simp [Core.place])
  · rw [hdadSp.state]
    decide
  · rw [hdadSp.state]
    decide
  · rw [hdadB.state]
    decide
  · rw [hdadB.state]
    decide

end Cpu

end Arcade8080
