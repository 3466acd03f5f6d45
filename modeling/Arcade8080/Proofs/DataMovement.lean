import Arcade8080.Bus.Stores
import Arcade8080.Cpu.Operand
import Arcade8080.Cpu.Place
import Arcade8080.Proofs.Faults
import Arcade8080.Proofs.Numbering

/-!
Moving data is assigning to several places at once. An instruction that moves data and nothing
else has a list of bytes to carry, told from the registers as they are before it; once all
places on that list are there, every target gets what its source held, also where the move
changes the address that it works with.
-/

namespace Arcade8080

/-- The half of a pair that names it. -/
def Pair.high : Pair → Register
  | .bc => .b
  | .de => .d
  | .hl => .h

def Pair.low : Pair → Register
  | .bc => .c
  | .de => .e
  | .hl => .l

theorem Registers.setPair_eq_set (registers : Registers) (pair : Pair) (value : Word) :
    registers.setPair pair value =
      (registers.set pair.low (Word.low value)).set pair.high (Word.high value) := by
  cases pair <;> rfl

/-- Operations that move bytes and do nothing else. Those that use the stack are among them only
where the stack pointer stays. -/
def Operation.movesData : Operation → Bool
  | .mov _ _ | .mvi _ | .lxi _ => true
  | .lda | .sta | .ldax _ | .stax _ | .lhld | .shld => true
  | .xchg | .xthl | .sphl => true
  | _ => false

namespace Core

/-- The address that a pair of registers points at. -/
def pointed (core : Core) : Pointer → Nat
  | .bc => core.registers.b.toNat * 256 + core.registers.c.toNat
  | .de => core.registers.d.toNat * 256 + core.registers.e.toNat

/-- Which bytes an instruction moves. A word in memory has its low byte at the lower address,
and the address after the last one is 0. -/
def transfers (core : Core) (instruction : Instruction) : List Transfer :=
  let number := instruction.hi.toNat * 256 + instruction.lo.toNat
  match instruction.operation with
  | .mov target source => [⟨core.place target, .place (core.place source)⟩]
  | .mvi target => [⟨core.place target, .operand instruction.lo⟩]
  | .lxi (.pair pair) =>
    [⟨.register pair.low, .operand instruction.lo⟩, ⟨.register pair.high, .operand instruction.hi⟩]
  | .lxi .sp => [⟨.spLow, .operand instruction.lo⟩, ⟨.spHigh, .operand instruction.hi⟩]
  | .lda => [⟨.register .a, .place (.memory number)⟩]
  | .sta => [⟨.memory number, .place (.register .a)⟩]
  | .ldax pointer => [⟨.register .a, .place (.memory (core.pointed pointer))⟩]
  | .stax pointer => [⟨.memory (core.pointed pointer), .place (.register .a)⟩]
  | .lhld =>
    [⟨.register .l, .place (.memory number)⟩,
      ⟨.register .h, .place (.memory ((number + 1) % 0x10000))⟩]
  | .shld =>
    [⟨.memory number, .place (.register .l)⟩,
      ⟨.memory ((number + 1) % 0x10000), .place (.register .h)⟩]
  | .xchg =>
    [⟨.register .d, .place (.register .h)⟩, ⟨.register .e, .place (.register .l)⟩,
      ⟨.register .h, .place (.register .d)⟩, ⟨.register .l, .place (.register .e)⟩]
  | .xthl =>
    [⟨.memory core.sp.toNat, .place (.register .l)⟩,
      ⟨.memory ((core.sp.toNat + 1) % 0x10000), .place (.register .h)⟩,
      ⟨.register .l, .place (.memory core.sp.toNat)⟩,
      ⟨.register .h, .place (.memory ((core.sp.toNat + 1) % 0x10000))⟩]
  | .sphl => [⟨.spLow, .place (.register .l)⟩, ⟨.spHigh, .place (.register .h)⟩]
  | _ => []

theorem pointed_eq (core : Core) (pointer : Pointer) :
    core.pointed pointer = (core.registers.pair pointer.pair).toNat := by
  cases pointer
  · exact core.registers.toNat_bc.symm
  · exact core.registers.toNat_de.symm

/-- No instruction moves two bytes to the same place. -/
theorem nodup_transfers (core : Core) (instruction : Instruction) :
    ((core.transfers instruction).map Transfer.target).Nodup := by
  have hapart (addr : Word) : addr.toNat ≠ (addr + 1).toNat := by bv_omega
  simp only [transfers, ← Instruction.toNat_word, ← Word.toNat_add_one]
  cases instruction.operation with
  | lxi target =>
    rcases target with pair | _
    · cases pair <;> simp [Pair.low, Pair.high]
    · simp
  | shld => simpa using hapart instruction.word
  | xthl => simpa using hapart core.sp
  | _ => simp

end Core

namespace Cpu

variable {cpu : Cpu} {instruction : Instruction}

/-- All bytes that an instruction moves are there, and all places that they go to. -/
def HasTransfers (cpu : Cpu) (instruction : Instruction) : Prop :=
  ∀ transfer ∈ cpu.transfers instruction,
    (cpu.at? transfer.target).isSome = true ∧ (cpu.value? transfer.source).isSome = true

/-- An instruction that moves data asks for the bytes of memory on its list, and for no
others. -/
theorem hasTransfers_iff (h : instruction.operation.movesData = true) :
    cpu.HasTransfers instruction ↔
      ∀ addr ∈ cpu.dataAddrs instruction, addr.toNat < cpu.memory.size := by
  revert h
  simp only [HasTransfers, Core.transfers, Core.dataAddrs, Core.pointed_eq,
    ← Instruction.toNat_word, ← Word.toNat_add_one]
  cases instruction.operation with
  | mov target source =>
    cases target <;> cases source <;>
      simp [Core.place_register, Core.place_memory, Core.operandAddrs, value?,
        Memory.isSome_byte?]
  | mvi target =>
    cases target <;>
      simp [Core.place_register, Core.place_memory, Core.operandAddrs, value?,
        Memory.isSome_byte?]
  | lxi target => cases target <;> simp [value?]
  -- Both bytes are on the list twice, as targets and as sources.
  | xthl =>
    intro _
    simp only [Core.popAddrs, List.forall_mem_cons, at?_memory, at?_register, value?,
      Memory.isSome_byte?, decide_eq_true_eq, Option.isSome_some]
    constructor
    · rintro ⟨_, _, ⟨_, hlow⟩, ⟨_, hhigh⟩, _⟩
      exact ⟨hlow, hhigh, List.forall_mem_nil _⟩
    · rintro ⟨hlow, hhigh, _⟩
      exact ⟨⟨hlow, trivial⟩, ⟨hhigh, trivial⟩, ⟨trivial, hlow⟩, ⟨trivial, hhigh⟩,
        List.forall_mem_nil _⟩
  | lda | sta | ldax | stax | lhld | shld | xchg | sphl =>
    simp [value?, Memory.isSome_byte?]
  | _ => simp [Operation.movesData]

/-- Performing an instruction comes to carrying its bytes. -/
def CarriesOut (cpu : Cpu) (instruction : Instruction) : Prop :=
  ∃ records, (cpu.perform instruction).run cpu.memory =
    ⟨.ok (cpu.carryAll cpu (cpu.transfers instruction)).toCore,
      (cpu.carryAll cpu (cpu.transfers instruction)).memory, records⟩

theorem run_store_of_isSome {addr : Word} (h : (cpu.at? (.memory addr.toNat)).isSome = true)
    (value : Byte) :
    ∃ records, (Bus.store addr value >>= fun _ => pure cpu.toCore).run cpu.memory =
      ⟨.ok (cpu.assign (.memory addr.toNat) value).toCore,
        (cpu.assign (.memory addr.toNat) value).memory, records⟩ := by
  rw [Bus.run_bind_pure, Bus.run_store, Memory.result_write, if_pos (lt_size_of_isSome h)]
  exact ⟨_, rfl⟩

theorem carriesOut_mov {target source : Operand} (h : instruction.operation = .mov target source)
    (hthere : cpu.HasTransfers instruction) : cpu.CarriesOut instruction := by
  simp only [HasTransfers, Core.transfers, h, List.forall_mem_singleton] at hthere
  obtain ⟨htarget, hsource⟩ := hthere
  obtain ⟨value, hvalue⟩ := Option.isSome_iff_exists.mp hsource
  simp only [CarriesOut, Core.perform, Core.transfers, h, carryAll, List.foldl_cons,
    List.foldl_nil, carry_of_value? hvalue]
  rw [Core.run_readOperand_bind hvalue]
  exact run_writeOperand htarget value

theorem carriesOut_mvi {target : Operand} (h : instruction.operation = .mvi target)
    (hthere : cpu.HasTransfers instruction) : cpu.CarriesOut instruction := by
  simp only [HasTransfers, Core.transfers, h, List.forall_mem_singleton] at hthere
  simp only [CarriesOut, Core.perform, Core.transfers, h]
  exact run_writeOperand hthere.1 instruction.lo

theorem carriesOut_of_load (addr : Word)
    (hperform : cpu.perform instruction = Bus.load addr >>= fun value =>
      pure { cpu.toCore with registers := { cpu.registers with a := value } })
    (htransfers : cpu.transfers instruction =
      [⟨.register .a, .place (.memory addr.toNat)⟩])
    (hthere : cpu.HasTransfers instruction) : cpu.CarriesOut instruction := by
  simp only [HasTransfers, htransfers, List.forall_mem_singleton] at hthere
  obtain ⟨value, hvalue⟩ := Option.isSome_iff_exists.mp hthere.2
  simp only [CarriesOut, hperform, htransfers, carryAll, List.foldl_cons, List.foldl_nil,
    carry_of_value? hvalue]
  rw [Bus.run_load_bind_of_byte hvalue]
  exact ⟨[], rfl⟩

theorem carriesOut_of_store (addr : Word)
    (hperform : cpu.perform instruction =
      Bus.store addr cpu.registers.a >>= fun _ => pure cpu.toCore)
    (htransfers : cpu.transfers instruction =
      [⟨.memory addr.toNat, .place (.register .a)⟩])
    (hthere : cpu.HasTransfers instruction) : cpu.CarriesOut instruction := by
  simp only [HasTransfers, htransfers, List.forall_mem_singleton] at hthere
  simp only [CarriesOut, hperform, htransfers]
  exact run_store_of_isSome hthere.1 cpu.registers.a

/-- Without memory there is nothing that has to be there. -/
theorem carriesOut_of_pure
    (h : cpu.perform instruction =
      pure (cpu.carryAll cpu (cpu.transfers instruction)).toCore)
    (hmemory : (cpu.carryAll cpu (cpu.transfers instruction)).memory = cpu.memory) :
    cpu.CarriesOut instruction := by
  rw [CarriesOut, h, hmemory]
  exact ⟨[], rfl⟩

theorem carriesOut_lxi {target : WideOperand} (h : instruction.operation = .lxi target) :
    cpu.CarriesOut instruction := by
  rcases target with pair | _
  · apply carriesOut_of_pure
    · simp only [Core.perform, Core.transfers, h, Core.setWide, Registers.setPair_eq_set,
        Instruction.word, Word.high_ofBytes, Word.low_ofBytes]
      rfl
    · simp only [Core.transfers, h]
      rfl
  · apply carriesOut_of_pure
    · simp only [Core.perform, Core.transfers, h, Core.setWide, carryAll, List.foldl_cons,
        List.foldl_nil, carry, value?, assign, Word.low_ofBytes]
      rfl
    · simp only [Core.transfers, h]
      rfl

theorem carriesOut_xchg (h : instruction.operation = .xchg) : cpu.CarriesOut instruction := by
  apply carriesOut_of_pure
  · simp only [Core.perform, Core.transfers, h, Registers.setPair_eq_set, Registers.hl,
      Registers.de, Word.high_ofBytes, Word.low_ofBytes]
    rfl
  · simp only [Core.transfers, h]
    rfl

theorem carriesOut_sphl (h : instruction.operation = .sphl) : cpu.CarriesOut instruction := by
  apply carriesOut_of_pure
  · simp only [Core.perform, Core.transfers, h, carryAll, List.foldl_cons, List.foldl_nil, carry,
      value?, assign, at?_register, Word.low_ofBytes]
    rfl
  · simp only [Core.transfers, h]
    rfl

theorem carriesOut_shld (h : instruction.operation = .shld)
    (hthere : cpu.HasTransfers instruction) : cpu.CarriesOut instruction := by
  simp only [HasTransfers, Core.transfers, h, ← Instruction.toNat_word, ← Word.toNat_add_one,
    List.forall_mem_cons] at hthere
  obtain ⟨⟨hlow, _⟩, ⟨hhigh, _⟩, _⟩ := hthere
  obtain ⟨records, hrun⟩ := Core.run_storeWord_of_lt (lt_size_of_isSome hlow)
    (lt_size_of_isSome hhigh) cpu.registers.hl
  simp only [CarriesOut, Core.perform, Core.transfers, h, ← Instruction.toNat_word,
    ← Word.toNat_add_one]
  rw [Bus.run_bind_pure, hrun, Registers.hl, Word.low_ofBytes, Word.high_ofBytes]
  exact ⟨records, rfl⟩

theorem carriesOut_lhld (h : instruction.operation = .lhld)
    (hthere : cpu.HasTransfers instruction) : cpu.CarriesOut instruction := by
  simp only [HasTransfers, Core.transfers, h, ← Instruction.toNat_word, ← Word.toNat_add_one,
    List.forall_mem_cons] at hthere
  obtain ⟨⟨_, hlow⟩, ⟨_, hhigh⟩, _⟩ := hthere
  obtain ⟨low, hlow⟩ := Option.isSome_iff_exists.mp hlow
  obtain ⟨high, hhigh⟩ := Option.isSome_iff_exists.mp hhigh
  simp only [CarriesOut, Core.perform, Core.transfers, h, ← Instruction.toNat_word,
    ← Word.toNat_add_one, carryAll, List.foldl_cons, List.foldl_nil, carry_of_value? hlow,
    carry_of_value? hhigh]
  rw [Core.run_loadWord_bind_of_byte hlow hhigh, Registers.setPair_eq_set, Word.low_ofBytes,
    Word.high_ofBytes]
  exact ⟨[], rfl⟩

theorem carriesOut_xthl (h : instruction.operation = .xthl)
    (hthere : cpu.HasTransfers instruction) : cpu.CarriesOut instruction := by
  simp only [HasTransfers, Core.transfers, h, ← Word.toNat_add_one, List.forall_mem_cons]
    at hthere
  obtain ⟨_, _, ⟨_, hlow⟩, ⟨_, hhigh⟩, _⟩ := hthere
  obtain ⟨records, hrun⟩ := Core.run_storeWord_of_lt (lt_size_of_isSome hlow)
    (lt_size_of_isSome hhigh) cpu.registers.hl
  obtain ⟨low, hlow⟩ := Option.isSome_iff_exists.mp hlow
  obtain ⟨high, hhigh⟩ := Option.isSome_iff_exists.mp hhigh
  simp only [CarriesOut, Core.perform, Core.transfers, h, ← Word.toNat_add_one, carryAll,
    List.foldl_cons, List.foldl_nil, carry_of_value? hlow, carry_of_value? hhigh]
  rw [Core.run_loadWord_bind_of_byte hlow hhigh, Bus.run_bind_pure, hrun,
    Registers.setPair_eq_set, Registers.hl]
  simp only [Word.low_ofBytes, Word.high_ofBytes]
  exact ⟨records, rfl⟩

theorem carriesOut (h : instruction.operation.movesData = true)
    (hthere : cpu.HasTransfers instruction) : cpu.CarriesOut instruction := by
  cases hoperation : instruction.operation with
  | mov target source => exact carriesOut_mov hoperation hthere
  | mvi target => exact carriesOut_mvi hoperation hthere
  | lxi target => exact carriesOut_lxi hoperation
  | lda =>
    apply carriesOut_of_load instruction.word _ _ hthere <;>
      simp only [Core.perform, Core.transfers, hoperation, Instruction.toNat_word]
  | ldax pointer =>
    apply carriesOut_of_load (cpu.registers.pair pointer.pair) _ _ hthere <;>
      simp only [Core.perform, Core.transfers, hoperation, Core.pointed_eq]
  | sta =>
    apply carriesOut_of_store instruction.word _ _ hthere <;>
      simp only [Core.perform, Core.transfers, hoperation, Instruction.toNat_word]
  | stax pointer =>
    apply carriesOut_of_store (cpu.registers.pair pointer.pair) _ _ hthere <;>
      simp only [Core.perform, Core.transfers, hoperation, Core.pointed_eq]
  | lhld => exact carriesOut_lhld hoperation hthere
  | shld => exact carriesOut_shld hoperation hthere
  | xchg => exact carriesOut_xchg hoperation
  | xthl => exact carriesOut_xthl hoperation hthere
  | sphl => exact carriesOut_sphl hoperation
  | _ => simp [hoperation, Operation.movesData] at h

/-- The processor that has moved on to the next instruction and done nothing else. -/
def skip (cpu : Cpu) (instruction : Instruction) : Cpu :=
  { cpu with pc := cpu.pc + BitVec.ofNat 16 instruction.operation.length }

theorem at?_skip (cpu : Cpu) (instruction : Instruction) (place : Place) :
    (cpu.skip instruction).at? place = cpu.at? place := by
  cases place <;> rfl

theorem value?_skip (cpu : Cpu) (instruction : Instruction) (source : Source) :
    (cpu.skip instruction).value? source = cpu.value? source := by
  cases source with
  | place origin => exact at?_skip cpu instruction origin
  | operand value => rfl

theorem SameApart.skip {before after : Cpu} (h : before.SameApart after)
    (instruction : Instruction) :
    (before.skip instruction).SameApart (after.skip instruction) where
  others := by rw [h.others]; rfl
  isAllocated := h.isAllocated
  window := h.window

/-- Moving on comes in between without making a difference. -/
theorem Assigned.skip {before after : Cpu} {transfers : List Transfer}
    (h : before.Assigned transfers after) (instruction : Instruction) :
    (before.skip instruction).Assigned transfers (after.skip instruction) where
  admitted := by
    intro transfer hmem hadmits
    rw [at?_skip, value?_skip]
    exact h.admitted transfer hmem hadmits
  rejected := by
    intro transfer hmem hrejects
    rw [at?_skip, at?_skip]
    exact h.rejected transfer hmem hrejects
  kept := by
    intro place hother
    rw [at?_skip, at?_skip]
    exact h.kept place hother
  apart := h.apart.skip instruction

theorem hasTransfers_skip (cpu : Cpu) (instruction : Instruction) :
    (cpu.skip instruction).HasTransfers instruction ↔ cpu.HasTransfers instruction := by
  simp only [HasTransfers, at?_skip, value?_skip]
  rfl

theorem execute_of_hasTransfers (h : instruction.operation.movesData = true)
    (hthere : cpu.HasTransfers instruction) :
    (cpu.execute instruction).result = .ok (cpu.report instruction) ∧
      (cpu.execute instruction).state =
        (cpu.skip instruction).carryAll (cpu.skip instruction) (cpu.transfers instruction) := by
  obtain ⟨records, hrun⟩ := carriesOut h ((hasTransfers_skip cpu instruction).mpr hthere)
  obtain ⟨hresult, hstate⟩ := execute_of_run hrun
  refine ⟨hresult, ?_⟩
  have hapart := sameApart_carryAll (cpu.skip instruction) (cpu.skip instruction)
    (cpu.transfers instruction)
  rw [hstate]
  exact hapart.eq_of_core_memory

theorem assigned_execute (h : instruction.operation.movesData = true)
    (hthere : cpu.HasTransfers instruction) :
    (cpu.skip instruction).Assigned (cpu.transfers instruction)
      (cpu.execute instruction).state := by
  rw [(execute_of_hasTransfers h hthere).2]
  exact assigned_carryAll (Core.nodup_transfers cpu.toCore instruction)
    ((hasTransfers_skip cpu instruction).mpr hthere)

/-- An instruction that moves data succeeds exactly if all bytes that it moves are there and all
places that they go to. -/
theorem result_execute_eq_ok_iff (h : instruction.operation.movesData = true) :
    (∃ outcome, (cpu.execute instruction).result = .ok outcome) ↔ cpu.HasTransfers instruction := by
  constructor
  · rintro ⟨outcome, hresult⟩
    rw [execute_eq] at hresult
    obtain ⟨after, hrun⟩ := result_transact_eq_ok_iff.mp hresult
    have hreach := Core.map_result_run_execute cpu.toCore instruction cpu.memory
    rw [hrun] at hreach
    exact (hasTransfers_iff h).mpr (Memory.reach_eq_ok_iff.mp hreach.symm)
  · intro hthere
    exact ⟨_, (execute_of_hasTransfers h hthere).1⟩

/-- MOV, MVI, LXI, LDA, STA, LDAX, STAX, LHLD, SHLD, XCHG, XTHL and SPHL, told apart by their
opcodes, succeed exactly if memory reaches every address of their transfers. Then each target
holds what its source held before the instruction, unless it is a byte outside the window, which
keeps its value. No flag, no other register and no other byte changes. -/
theorem data_moves_at_once (cpu : Cpu) (instruction : Instruction)
    (h : instruction.operation.movesData = true) :
    (∀ operation, instruction.operation = operation ↔
      instruction.opcode.toNat ∈ operation.opcodes) ∧
    ((cpu.transfers instruction).map Transfer.target).Nodup ∧
    ((∃ outcome, (cpu.execute instruction).result = .ok outcome) ↔
      cpu.HasTransfers instruction) ∧
    ∀ outcome, (cpu.execute instruction).result = .ok outcome →
      (cpu.skip instruction).Assigned (cpu.transfers instruction)
        (cpu.execute instruction).state := by
  have hsucceeds : (∃ outcome, (cpu.execute instruction).result = .ok outcome) ↔
      cpu.HasTransfers instruction := result_execute_eq_ok_iff h
  refine ⟨Operation.decode_eq_iff instruction.opcode,
    Core.nodup_transfers cpu.toCore instruction, hsucceeds, ?_⟩
  intro outcome hresult
  exact assigned_execute h (hsucceeds.mp ⟨outcome, hresult⟩)

/-- Four bytes of memory, the last of them behind the end of the window and BC, DE and SP pointing
into the rest. -/
def halfOpen : Cpu where
  registers := { a := 0x55, b := 0x00, c := 0x01, d := 0x00, e := 0x03, h := 0x00, l := 0x01 }
  flags := { cy := true }
  sp := 2
  memory := { cells := some #[0x00, 0x12, 0x34, 0x56], window := ⟨0, 3⟩ }

/-- MOV H,M overwrites half of the address that it reads from. XTHL gets both bytes from the
stack, though it leaves just one of its own there. STAX B stores at 0001, and LDAX D loads what
the window protects. -/
theorem data_moves_at_once_of_halfOpen :
    (halfOpen.execute ⟨0x66, 0, 0⟩).state.at? (.register .h) = some 0x12 ∧
    (halfOpen.execute ⟨0x66, 0, 0⟩).state.at? (.register .l) = some 0x01 ∧
    (halfOpen.execute ⟨0xE3, 0, 0⟩).state.at? (.register .h) = some 0x56 ∧
    (halfOpen.execute ⟨0xE3, 0, 0⟩).state.at? (.register .l) = some 0x34 ∧
    (halfOpen.execute ⟨0xE3, 0, 0⟩).state.at? (.memory 2) = some 0x01 ∧
    (halfOpen.execute ⟨0xE3, 0, 0⟩).state.at? (.memory 3) = some 0x56 ∧
    (halfOpen.execute ⟨0xE3, 0, 0⟩).state.flags = halfOpen.flags ∧
    (halfOpen.execute ⟨0x02, 0, 0⟩).state.at? (.memory 1) = some 0x55 ∧
    (halfOpen.execute ⟨0x02, 0, 0⟩).state.at? (.memory 0) = some 0x00 ∧
    (halfOpen.execute ⟨0x1A, 0, 0⟩).state.at? (.register .a) = some 0x56 := by
  obtain ⟨_, _, _, hmov⟩ := data_moves_at_once halfOpen ⟨0x66, 0, 0⟩ rfl
  obtain ⟨_, _, _, hxthl⟩ := data_moves_at_once halfOpen ⟨0xE3, 0, 0⟩ rfl
  obtain ⟨_, _, _, hstax⟩ := data_moves_at_once halfOpen ⟨0x02, 0, 0⟩ rfl
  obtain ⟨_, _, _, hldax⟩ := data_moves_at_once halfOpen ⟨0x1A, 0, 0⟩ rfl
  have hmoved := hmov _ rfl
  have hexchanged := hxthl _ rfl
  have hstored := hstax _ rfl
  have hloaded := hldax _ rfl
  refine ⟨?_, ?_, ?_, ?_, ?_, ?_, ?_, ?_, ?_, ?_⟩
  · exact hmoved.admitted ⟨.register .h, .place (.memory 1)⟩ (by decide) rfl
  · exact hmoved.kept (.register .l) (by decide)
  · exact hexchanged.admitted ⟨.register .h, .place (.memory 3)⟩ (by decide) rfl
  · exact hexchanged.admitted ⟨.register .l, .place (.memory 2)⟩ (by decide) rfl
  · exact hexchanged.admitted ⟨.memory 2, .place (.register .l)⟩ (by decide) rfl
  · exact hexchanged.rejected ⟨.memory 3, .place (.register .h)⟩ (by decide) rfl
  · exact congrArg (·.flags) hexchanged.apart.others
  · exact hstored.admitted ⟨.memory 1, .place (.register .a)⟩ (by decide) rfl
  · exact hstored.kept (.memory 0) (by decide)
  · exact hloaded.admitted ⟨.register .a, .place (.memory 3)⟩ (by decide) rfl

end Cpu

end Arcade8080
