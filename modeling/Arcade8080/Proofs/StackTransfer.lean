import Arcade8080.Cpu.Chain
import Arcade8080.Proofs.CallReturn
import Arcade8080.Proofs.DataMovement
import Arcade8080.Proofs.RegisterFrame

/-!
PUSH and POP as transfers between pairs. What one of them leaves on the stack the other finds
there, whichever two operands they have, so a push and a pop move one pair to another, and a pop
and a push put the word back where it was. A and the flags are a pair as well, but for the three
bits of the status byte that no flag has.
-/

namespace Arcade8080

namespace Flags

/-- The flags are the lowest five bits of a status byte. -/
structure Packs (flags : Flags) (status : Byte) : Prop where
  z : status.getLsbD 0 = flags.z
  s : status.getLsbD 1 = flags.s
  p : status.getLsbD 2 = flags.p
  cy : status.getLsbD 3 = flags.cy
  ac : status.getLsbD 4 = flags.ac

theorem packs_ofByte (status : Byte) : (ofByte status).Packs status := ⟨rfl, rfl, rfl, rfl, rfl⟩

theorem packs_toByte (flags : Flags) : flags.Packs flags.toByte := by
  have hpacks := packs_ofByte flags.toByte
  rwa [ofByte_toByte] at hpacks

/-- The other three bits are not set. -/
theorem toNat_toByte_lt (flags : Flags) : flags.toByte.toNat < 32 := by
  obtain ⟨z, s, p, cy, ac⟩ := flags
  cases z <;> cases s <;> cases p <;> cases cy <;> cases ac <;> decide

end Flags

namespace StackOperand

/-- The register that is the high half. -/
def high : StackOperand → Register
  | .pair name => name.high
  | .psw => .a

end StackOperand

namespace Memory

variable {memory : Memory} {sp value : Word}

theorem word?_eq_some_iff :
    memory.word? sp = some value ↔
      memory.byte? sp.toNat = some (Word.low value) ∧
        memory.byte? (sp + 1).toNat = some (Word.high value) := by
  simp only [word?, Option.bind_eq_bind, Option.bind_eq_some_iff, Option.pure_def,
    Option.some.injEq]
  constructor
  · rintro ⟨low, hlow, high, hhigh, rfl⟩
    rw [Word.low_ofBytes, Word.high_ofBytes]
    exact ⟨hlow, hhigh⟩
  · rintro ⟨hlow, hhigh⟩
    exact ⟨_, hlow, _, hhigh, Word.ofBytes_high_low value⟩

theorem exists_word?_of_lt (hlow : sp.toNat < memory.size) (hhigh : (sp + 1).toNat < memory.size) :
    ∃ value, memory.word? sp = some value := by
  obtain ⟨low, hlow⟩ := exists_byte?_of_lt hlow
  obtain ⟨high, hhigh⟩ := exists_byte?_of_lt hhigh
  refine ⟨Word.ofBytes high low, word?_eq_some_iff.mpr ?_⟩
  rw [Word.low_ofBytes, Word.high_ofBytes]
  exact ⟨hlow, hhigh⟩

end Memory

namespace Core

/-- The low half of what a stack instruction moves. -/
def lowHalf (core : Core) : StackOperand → Byte
  | .pair name => core.registers.get name.low
  | .psw => core.flags.toByte

variable {core : Core} {memory : Memory}

theorem high_stackOperand (core : Core) (source : StackOperand) :
    Word.high (core.stackOperand source) = core.registers.get source.high := by
  rcases source with name | _
  · cases name <;> exact Word.high_ofBytes _ _
  · exact Word.high_ofBytes _ _

theorem low_stackOperand (core : Core) (source : StackOperand) :
    Word.low (core.stackOperand source) = core.lowHalf source := by
  rcases source with name | _
  · cases name <;> exact Word.low_ofBytes _ _
  · exact Word.low_ofBytes _ _

theorem high_setStackOperand (core : Core) (target : StackOperand) (value : Word) :
    (core.setStackOperand target value).registers.get target.high = Word.high value := by
  rcases target with name | _
  · cases name <;> rfl
  · rfl

theorem low_setStackOperand (core : Core) (pair : Pair) (value : Word) :
    (core.setStackOperand (.pair pair) value).registers.get pair.low = Word.low value := by
  cases pair <;> rfl

theorem setStackOperand_stackOperand (core : Core) (operand : StackOperand) :
    core.setStackOperand operand (core.stackOperand operand) = core := by
  rcases operand with name | _
  · simp [setStackOperand, stackOperand]
  · simp [setStackOperand, stackOperand]

/-- What can be put back of a word that has been taken. -/
theorem stackOperand_setStackOperand (core : Core) (operand : StackOperand) (value : Word) :
    (core.setStackOperand operand value).stackOperand operand =
      Word.ofBytes (Word.high value)
        (if operand = .psw then Word.low value &&& 0x1F else Word.low value) := by
  rcases operand with name | _
  · simp [setStackOperand, stackOperand]
  · simp [setStackOperand, stackOperand, Flags.toByte_ofByte]

theorem run_push_of_lt (core : Core) (hlow : (core.sp - 2).toNat < memory.size)
    (hhigh : (core.sp - 1).toNat < memory.size) (value : Word) :
    ∃ records, (core.push value).run memory =
      ⟨.ok { core with sp := core.sp - 2 }, memory.pushed core.sp value, records⟩ := by
  obtain ⟨hresult, hstate⟩ := storeWord_of_lt hlow hhigh value
  rw [push, Bus.run_bind_pure, hresult, hstate]
  exact ⟨_, rfl⟩

end Core

namespace Cpu

variable {cpu : Cpu} {instruction : Instruction} {source target operand : StackOperand}

theorem operation_of_push (h : instruction.opcode.toNat = 0xC5 + 16 * source.field) :
    instruction.operation = .push source :=
  (Operation.decode_eq_iff _ _).mpr (List.mem_singleton.mpr h)

theorem operation_of_pop (h : instruction.opcode.toNat = 0xC1 + 16 * target.field) :
    instruction.operation = .pop target :=
  (Operation.decode_eq_iff _ _).mpr (List.mem_singleton.mpr h)

/-- The processor after a push. -/
def pushed (cpu : Cpu) (source : StackOperand) : Cpu :=
  { cpu with
    pc := cpu.pc + 1
    sp := cpu.sp - 2
    memory := cpu.memory.pushed cpu.sp (cpu.stackOperand source) }

/-- The processor after a pop that has found a word. -/
def popped (cpu : Cpu) (target : StackOperand) (value : Word) : Cpu :=
  { cpu with
    toCore := { cpu.setStackOperand target value with pc := cpu.pc + 1, sp := cpu.sp + 2 } }

theorem execute_of_push (h : instruction.operation = .push source)
    (hlow : (cpu.sp - 2).toNat < cpu.memory.size) (hhigh : (cpu.sp - 1).toNat < cpu.memory.size) :
    (cpu.execute instruction).result = .ok (cpu.report instruction) ∧
      (cpu.execute instruction).state = cpu.pushed source := by
  have hperform : (cpu.past instruction).perform instruction =
      (cpu.past instruction).push (cpu.stackOperand source) := by
    simp only [Core.perform, h]
    cases source <;> rfl
  have hpast : cpu.past instruction = { cpu.toCore with pc := cpu.pc + 1 } := by
    rw [Core.past, h]
    rfl
  obtain ⟨records, hrun⟩ :=
    (cpu.past instruction).run_push_of_lt hlow hhigh (cpu.stackOperand source)
  rw [← hperform] at hrun
  obtain ⟨hresult, hstate⟩ := execute_of_run hrun
  refine ⟨hresult, ?_⟩
  rw [hstate, hpast]
  rfl

theorem execute_of_pop {value : Word} (h : instruction.operation = .pop target)
    (hword : cpu.memory.word? cpu.sp = some value) :
    (cpu.execute instruction).result = .ok (cpu.report instruction) ∧
      (cpu.execute instruction).state = cpu.popped target value := by
  have hperform : (cpu.past instruction).perform instruction =
      Core.loadWord cpu.sp >>= fun found => pure (cpu.popped target found).toCore := by
    simp only [Core.perform, Core.pop, Core.past, h, bind_assoc, pure_bind]
    cases target <;> rfl
  have hload : ((Core.loadWord cpu.sp).run cpu.memory).result = .ok value :=
    Core.result_loadWord_eq_ok_iff.mpr hword
  rw [execute_eq]
  apply transact_of_ok
  · rw [Core.result_run_execute, hperform, Bus.run_bind_pure, hload]
    rfl
  · rw [Core.state_run_execute, hperform, Bus.run_bind_pure]
    exact (Core.readOnly_loadWord cpu.sp).state_run cpu.memory

/-- The target has got both halves of the source, and besides the program counter and the bytes
on the way nothing else has changed. -/
structure Transferred (before : Cpu) (source target : StackOperand) (after : Cpu) : Prop where
  high : after.registers.get target.high = before.registers.get source.high
  low : ∀ pair, target = .pair pair → after.registers.get pair.low = before.lowHalf source
  flags : target = .psw → after.flags.Packs (before.lowHalf source)
  otherRegisters : before.registers.KeptOutside target.registers after.registers
  otherFlags : target ≠ .psw → after.flags = before.flags
  others : after =
    { before with
      registers := after.registers
      flags := after.flags
      pc := before.pc + 2
      memory := after.memory }
  isAllocated : after.memory.isAllocated = before.memory.isAllocated
  size : after.memory.size = before.memory.size
  window : after.memory.window = before.memory.window
  bytes : before.memory.KeptOutside [before.sp - 2, before.sp - 1] after.memory

/-- The processor after a push and a pop. -/
def transferred (cpu : Cpu) (source target : StackOperand) : Cpu :=
  { cpu with
    toCore :=
      { cpu.setStackOperand target (cpu.stackOperand source) with pc := cpu.pc + 2 }
    memory := cpu.memory.pushed cpu.sp (cpu.stackOperand source) }

theorem transferred_transferred (cpu : Cpu) (source target : StackOperand) :
    Transferred cpu source target (cpu.transferred source target) where
  high := (Core.high_setStackOperand _ target _).trans (Core.high_stackOperand _ source)
  low := by
    rintro pair rfl
    exact (Core.low_setStackOperand _ pair _).trans (Core.low_stackOperand _ source)
  flags := by
    rintro rfl
    rw [← Core.low_stackOperand]
    exact Flags.packs_ofByte _
  otherRegisters := Core.registers_setStackOperand cpu.toCore target _
  otherFlags := by
    intro hpair
    cases target with
    | pair name => rfl
    | psw => exact absurd rfl hpair
  others := by cases target <;> rfl
  isAllocated := Memory.isAllocated_pushed _ _ _
  size := Memory.size_pushed _ _ _
  window := Memory.window_pushed _ _ _
  bytes := Memory.keptOutside_pushed _ _ _

variable {push pop : Instruction}

theorem runs_push_pop (hpush : push.operation = .push source) (hpop : pop.operation = .pop target)
    (hlow : cpu.memory.Takes (cpu.sp - 2)) (hhigh : cpu.memory.Takes (cpu.sp - 1)) :
    cpu.Runs [push, pop] (cpu.transferred source target) := by
  have hword : (cpu.pushed source).memory.word? (cpu.pushed source).sp =
      some (cpu.stackOperand source) := Memory.word?_pushed hlow hhigh
  have hback : (cpu.pushed source).popped target (cpu.stackOperand source) =
      cpu.transferred source target := by
    have hsp : cpu.sp - 2 + 2 = cpu.sp := BitVec.sub_add_cancel cpu.sp 2
    have hpc : cpu.pc + 1 + 1 = cpu.pc + 2 := BitVec.add_assoc cpu.pc 1 1
    simp only [pushed, popped, transferred, hsp, hpc]
    cases target <;> rfl
  rw [← hback]
  exact runs_pair (execute_of_push hpush hlow.allocated hhigh.allocated)
    (execute_of_pop hpop hword)

/-- The word that has been taken is back, and the stack pointer as well, but for the bits of a
status byte that no flag has. -/
structure PutBack (before : Cpu) (operand : StackOperand) (after : Cpu) : Prop where
  memory : operand ≠ .psw → after.memory = before.memory
  bytes : ∀ addr, after.memory.byte? addr =
    if operand = .psw ∧ addr = before.sp.toNat then (before.memory.byte? addr).map (· &&& 0x1F)
    else before.memory.byte? addr
  isAllocated : after.memory.isAllocated = before.memory.isAllocated
  window : after.memory.window = before.memory.window
  otherRegisters : before.registers.KeptOutside operand.registers after.registers
  otherFlags : operand ≠ .psw → after.flags = before.flags
  others : after =
    { before with
      registers := after.registers
      flags := after.flags
      pc := before.pc + 2
      memory := after.memory }

theorem byte?_memory_pushed_popped {value : Word} (hword : cpu.memory.word? cpu.sp = some value)
    (hlow : cpu.memory.Takes cpu.sp) (hhigh : cpu.memory.Takes (cpu.sp + 1))
    (operand : StackOperand) (addr : Nat) :
    ((cpu.popped operand value).pushed operand).memory.byte? addr =
      if operand = .psw ∧ addr = cpu.sp.toNat then (cpu.memory.byte? addr).map (· &&& 0x1F)
      else cpu.memory.byte? addr := by
  obtain ⟨hlowByte, hhighByte⟩ := Memory.word?_eq_some_iff.mp hword
  have hstored : (cpu.popped operand value).stackOperand operand =
      Word.ofBytes (Word.high value)
        (if operand = .psw then Word.low value &&& 0x1F else Word.low value) := by
    rw [← Core.stackOperand_setStackOperand cpu.toCore]
    cases operand <;> rfl
  have hsp : cpu.sp + 2 - 2 = cpu.sp := BitVec.add_sub_cancel cpu.sp 2
  have hnext : cpu.sp + 2 - 1 = cpu.sp + 1 := by bv_omega
  have hapart : (cpu.sp + 1).toNat ≠ cpu.sp.toNat := by bv_omega
  have hmemory : ((cpu.popped operand value).pushed operand).memory =
      cpu.memory.pushed (cpu.sp + 2) ((cpu.popped operand value).stackOperand operand) := rfl
  rw [hmemory, hstored, Memory.byte?_pushed (hsp.symm ▸ hlow) (hnext.symm ▸ hhigh), hnext, hsp,
    Word.high_ofBytes, Word.low_ofBytes]
  by_cases hsecond : addr = (cpu.sp + 1).toNat
  · subst hsecond
    rw [if_pos rfl, if_neg fun hboth => hapart hboth.2, hhighByte]
  · by_cases hfirst : addr = cpu.sp.toNat
    · subst hfirst
      rw [if_neg hsecond, if_pos rfl, hlowByte]
      by_cases hpsw : operand = .psw <;> simp [hpsw]
    · rw [if_neg hsecond, if_neg hfirst, if_neg fun hboth => hfirst hboth.2]

theorem runs_pop_push {value : Word} (hpop : pop.operation = .pop operand)
    (hpush : push.operation = .push operand) (hword : cpu.memory.word? cpu.sp = some value)
    (hlow : cpu.sp.toNat < cpu.memory.size) (hhigh : (cpu.sp + 1).toNat < cpu.memory.size) :
    cpu.Runs [pop, push] ((cpu.popped operand value).pushed operand) := by
  have hsp : cpu.sp + 2 - 2 = cpu.sp := BitVec.add_sub_cancel cpu.sp 2
  have hnext : cpu.sp + 2 - 1 = cpu.sp + 1 := by bv_omega
  have hlower : ((cpu.popped operand value).sp - 2).toNat < cpu.memory.size := hsp.symm ▸ hlow
  have hhigher : ((cpu.popped operand value).sp - 1).toNat < cpu.memory.size := hnext.symm ▸ hhigh
  exact runs_pair (execute_of_pop hpop hword) (execute_of_push hpush hlower hhigher)

theorem putBack_pushed_popped {value : Word} (hword : cpu.memory.word? cpu.sp = some value)
    (hlow : cpu.memory.Takes cpu.sp) (hhigh : cpu.memory.Takes (cpu.sp + 1))
    (operand : StackOperand) :
    PutBack cpu operand ((cpu.popped operand value).pushed operand) := by
  have hbytes := byte?_memory_pushed_popped hword hlow hhigh operand
  constructor
  case memory =>
    intro hpair
    refine Memory.eq_of_byte? (Memory.isAllocated_pushed _ _ _) (Memory.window_pushed _ _ _) ?_
    intro addr
    rw [hbytes, if_neg fun hboth => hpair hboth.1]
  case bytes => exact hbytes
  case isAllocated => exact Memory.isAllocated_pushed _ _ _
  case window => exact Memory.window_pushed _ _ _
  case otherRegisters => exact Core.registers_setStackOperand cpu.toCore operand value
  case otherFlags =>
    intro hpair
    cases operand with
    | pair name => rfl
    | psw => exact absurd rfl hpair
  case others =>
    have hsp : cpu.sp + 2 - 2 = cpu.sp := BitVec.add_sub_cancel cpu.sp 2
    have hpc : cpu.pc + 1 + 1 = cpu.pc + 2 := BitVec.add_assoc cpu.pc 1 1
    simp only [pushed, popped, hsp, hpc]
    cases operand <;> rfl

/-- PUSH and POP have numbers of their own for the same four operands. On a stack that takes two
more bytes a push and a pop succeed, whichever operands they have, and move both halves of the
one to the other; where the operands are the same this changes nothing that is not memory. On a
stack that takes back its topmost bytes a pop and a push succeed as well, and leave memory as it
was, except that the three unused bits of a status byte get lost. -/
theorem push_and_pop_transfer (cpu : Cpu) (push pop : Instruction) (source target : StackOperand)
    (hpush : push.opcode.toNat = 0xC5 + 16 * source.field)
    (hpop : pop.opcode.toNat = 0xC1 + 16 * target.field) :
    (∀ flags : Flags, flags.Packs flags.toByte ∧ flags.toByte.toNat < 32) ∧
    (cpu.memory.Takes (cpu.sp - 2) → cpu.memory.Takes (cpu.sp - 1) →
      ∃ after, cpu.Runs [push, pop] after ∧ Transferred cpu source target after ∧
        (source = target → after = { cpu with pc := cpu.pc + 2, memory := after.memory })) ∧
    (source = target → cpu.memory.Takes cpu.sp → cpu.memory.Takes (cpu.sp + 1) →
      ∃ after, cpu.Runs [pop, push] after ∧ PutBack cpu source after) := by
  have hpushes := operation_of_push hpush
  have hpops := operation_of_pop hpop
  refine ⟨fun flags => ⟨flags.packs_toByte, flags.toNat_toByte_lt⟩, ?_, ?_⟩
  · intro hlow hhigh
    refine ⟨_, runs_push_pop hpushes hpops hlow hhigh, transferred_transferred cpu _ _, ?_⟩
    rintro rfl
    rw [transferred, Core.setStackOperand_stackOperand]
  · rintro rfl hlow hhigh
    obtain ⟨value, hword⟩ := Memory.exists_word?_of_lt hlow.allocated hhigh.allocated
    refine ⟨_, runs_pop_push hpops hpushes hword hlow.allocated hhigh.allocated, ?_⟩
    exact putBack_pushed_popped hword hlow hhigh source

/-- A status byte with all bits set on top of the stack, and a C with unused bits of its own. -/
def packing : Cpu where
  registers := { b := 0x12, c := 0xE9 }
  memory := { cells := some #[0xFF, 0x34], window := ⟨0, 2⟩ }

/-- PUSH B and POP PSW take C for a status byte, with the word on both sides of the end of the
address space. POP PSW and PUSH PSW keep five bits of the byte that they find. -/
theorem push_and_pop_transfer_of_packing :
    (∃ after, ({ packing with sp := 1, memory := wrapping.memory } : Cpu).Runs
        [⟨0xC5, 0, 0⟩, ⟨0xF1, 0, 0⟩] after ∧
      after.registers.a = 0x12 ∧ after.flags.z = true ∧ after.flags.s = false ∧
      after.flags.cy = true ∧ after.registers.c = 0xE9 ∧ after.sp = 1) ∧
    ∃ after, packing.Runs [⟨0xF1, 0, 0⟩, ⟨0xF5, 0, 0⟩] after ∧
      after.memory.byte? 0 = some 0x1F ∧ after.memory.byte? 1 = some 0x34 ∧ after.sp = 0 := by
  have hwraps (addr : Word) : wrapping.memory.Takes addr := by
    refine ⟨?_, ?_⟩
    · have hsize : wrapping.memory.size = 0x10000 := Array.size_replicate
      rw [hsize]
      exact addr.isLt
    · exact (Window.contains_iff _ _).mpr ⟨Nat.zero_le _, addr.isLt.trans (by decide)⟩
  obtain ⟨_, hmove, _⟩ := push_and_pop_transfer { packing with sp := 1, memory := wrapping.memory }
    ⟨0xC5, 0, 0⟩ ⟨0xF1, 0, 0⟩ (.pair .bc) .psw rfl rfl
  obtain ⟨_, _, hrestore⟩ :=
    push_and_pop_transfer packing ⟨0xF5, 0, 0⟩ ⟨0xF1, 0, 0⟩ .psw .psw rfl rfl
  obtain ⟨moved, hmoved, htransferred, _⟩ := hmove (hwraps _) (hwraps _)
  obtain ⟨restored, hrestored, hback⟩ :=
    hrestore rfl ⟨by decide, by decide⟩ ⟨by decide, by decide⟩
  have hflags := htransferred.flags rfl
  exact ⟨⟨moved, hmoved, htransferred.high, hflags.z.symm, hflags.s.symm, hflags.cy.symm,
    htransferred.otherRegisters .c (by decide), congrArg (·.sp) htransferred.others⟩,
    restored, hrestored, hback.bytes 0, hback.bytes 1, congrArg (·.sp) hback.others⟩

end Cpu

end Arcade8080
