import Arcade8080.Core.Visits
import Arcade8080.Cpu.Lemmas

/-!
When an instruction fails is settled before it runs. The registers and the instruction tell
which addresses it uses and in which order; it fails if one of them has no byte, with the
fault of the first such address, and succeeds otherwise. The write window has no say.
-/

namespace Arcade8080

namespace Memory

variable {α : Type} {memory : Memory} {addrs : List Word} {result : Except Fault α}

/-- A result that is settled by how far memory reaches, for something that uses these
addresses in this order. -/
structure Decides (memory : Memory) (addrs : List Word) (result : Except Fault α) : Prop where
  unallocated : result = .error .unallocated ↔ addrs ≠ [] ∧ memory.isAllocated = false
  outOfBounds : (∃ addr size, result = .error (.outOfBounds addr size)) ↔
    memory.isAllocated = true ∧ ∃ addr ∈ addrs, memory.size ≤ addr.toNat
  /-- What the fault reports is the first address without a byte. -/
  first : ∀ addr size, result = .error (.outOfBounds addr size) →
    size = memory.size ∧
      ∃ past, (addrs.find? fun used => memory.size ≤ used.toNat) = some past ∧ addr = past.toNat
  succeeds : (∃ value, result = .ok value) ↔
    addrs = [] ∨ memory.isAllocated = true ∧ ∀ addr ∈ addrs, addr.toNat < memory.size

theorem isAllocated_of_lt {addr : Nat} (h : addr < memory.size) : memory.isAllocated = true := by
  obtain ⟨_ | cells, window⟩ := memory
  · cases h
  · rfl

theorem faultAt_of_allocated (h : memory.isAllocated = true) (addr : Nat) :
    memory.faultAt addr = .outOfBounds addr memory.size := by
  rw [faultAt, if_pos h]

theorem faultAt_of_unallocated (h : memory.isAllocated = false) (addr : Nat) :
    memory.faultAt addr = .unallocated := by
  rw [faultAt, h]
  rfl

theorem Decides.of_forall_lt (value : α) (h : ∀ addr ∈ addrs, addr.toNat < memory.size) :
    memory.Decides addrs (.ok value : Except Fault α) := by
  have hallocated : addrs ≠ [] → memory.isAllocated = true := by
    intro hsome
    obtain ⟨addr, hmem⟩ := List.exists_mem_of_ne_nil addrs hsome
    exact isAllocated_of_lt (h addr hmem)
  constructor
  case unallocated => simpa using hallocated
  case outOfBounds => simpa using fun _ => h
  case first =>
    intro addr size herror
    cases herror
  case succeeds =>
    refine ⟨fun _ => ?_, fun _ => ⟨value, rfl⟩⟩
    by_cases hnone : addrs = []
    · exact .inl hnone
    · exact .inr ⟨hallocated hnone, h⟩

theorem Decides.of_find? {past : Word}
    (h : (addrs.find? fun addr => memory.size ≤ addr.toNat) = some past) :
    memory.Decides addrs (.error (memory.faultAt past.toNat) : Except Fault α) := by
  have hpast : memory.size ≤ past.toNat := by simpa using List.find?_some h
  have hmem : past ∈ addrs := List.mem_of_find?_eq_some h
  have hsome : addrs ≠ [] := List.ne_nil_of_mem hmem
  have hsucceeds : ¬ (addrs = [] ∨ memory.isAllocated = true ∧
      ∀ addr ∈ addrs, addr.toNat < memory.size) := by
    rintro (hnone | ⟨_, hall⟩)
    · exact hsome hnone
    · exact Nat.not_lt.mpr hpast (hall past hmem)
  cases hallocated : memory.isAllocated with
  | false =>
    rw [faultAt_of_unallocated hallocated]
    constructor <;> simp [hallocated, hsome]
  | true =>
    rw [faultAt_of_allocated hallocated]
    constructor
    case unallocated => simp [hallocated]
    case outOfBounds => exact ⟨fun _ => ⟨hallocated, past, hmem, hpast⟩, fun _ => ⟨_, _, rfl⟩⟩
    case first =>
      intro addr size herror
      cases herror
      exact ⟨rfl, past, h, rfl⟩
    case succeeds => simpa using hsucceeds

theorem Decides.eq_error {past : Word} (h : memory.Decides addrs result)
    (hfirst : (addrs.find? fun addr => memory.size ≤ addr.toNat) = some past) :
    result = .error (memory.faultAt past.toNat) := by
  have hpast : memory.size ≤ past.toNat := by simpa using List.find?_some hfirst
  have hmem : past ∈ addrs := List.mem_of_find?_eq_some hfirst
  cases hallocated : memory.isAllocated with
  | false =>
    rw [faultAt_of_unallocated hallocated]
    exact h.unallocated.mpr ⟨List.ne_nil_of_mem hmem, hallocated⟩
  | true =>
    obtain ⟨addr, size, herror⟩ := h.outOfBounds.mpr ⟨hallocated, past, hmem, hpast⟩
    obtain ⟨rfl, found, hfound, rfl⟩ := h.first addr size herror
    rw [hfirst] at hfound
    cases hfound
    rw [faultAt_of_allocated hallocated]
    exact herror

/-- A result that says as much as asking for the bytes one after the other is settled. -/
theorem decides_of_reach (h : result.map (fun _ => ()) = memory.reach addrs) :
    memory.Decides addrs result := by
  cases result with
  | ok value => exact .of_forall_lt value (reach_eq_ok_iff.mp h.symm)
  | error fault =>
    obtain ⟨past, hfirst, rfl⟩ := reach_eq_error_iff.mp h.symm
    exact .of_find? hfirst

end Memory

namespace Core

theorem map_result_run_execute (core : Core) (instruction : Instruction) (memory : Memory) :
    ((core.execute instruction).run memory).result.map (fun _ => ()) =
      memory.reach (core.dataAddrs instruction) := by
  have hperform := (reaches_perform (core.past instruction) instruction).result_run memory
  -- The data addresses do not depend on the program counter.
  have haddrs : (core.past instruction).dataAddrs instruction = core.dataAddrs instruction := rfl
  rw [← haddrs, ← hperform, result_run_execute]
  cases (((core.past instruction).perform instruction).run memory).result <;> rfl

theorem map_result_run_step_of_due {core : Core} (h : core.interruptsEnabled = true)
    (number : Restart) (memory : Memory) :
    ((core.step (some number)).run memory).result.map (fun _ => ()) =
      memory.reach core.pushAddrs := by
  rw [← (visits_push_store core core.pc).result_run memory, result_run_step_of_due h]
  cases ((storeWord (core.sp - 2) core.pc).run memory).result <;> rfl

end Core

namespace Cpu

/-- Running a program on the processor adds no failure of its own and hides none. -/
theorem decides_transact {α : Type} (cpu : Cpu) {program : Core → Bus (α × Core)}
    {addrs : List Word}
    (h : ((program cpu.toCore).run cpu.memory).result.map (fun _ => ()) = cpu.memory.reach addrs) :
    cpu.memory.Decides addrs (cpu.transact program).result := by
  apply Memory.decides_of_reach
  rw [← h, transact_eq]
  rcases (program cpu.toCore).run cpu.memory with ⟨_ | ⟨value, after⟩, state, records⟩ <;> rfl

/-- An instruction fails exactly if memory has no byte at one of the addresses that it uses,
and reports the first of these; one that uses none succeeds without any memory. The delivery
of a request fails like an instruction that uses the two bytes below the stack pointer. -/
theorem failure_is_the_first_missing_byte (cpu : Cpu) :
    (∀ instruction,
      cpu.memory.Decides (cpu.dataAddrs instruction) (cpu.execute instruction).result) ∧
    ∀ number, cpu.pending = some number → cpu.interruptsEnabled = true →
      cpu.memory.Decides cpu.pushAddrs cpu.step.result := by
  constructor
  · intro instruction
    rw [execute_eq]
    exact cpu.decides_transact (Core.map_result_run_execute cpu.toCore instruction cpu.memory)
  · intro number hpending henabled
    have hrun := Core.map_result_run_step_of_due henabled number cpu.memory
    rw [step_eq, hpending]
    exact decides_transact { cpu with pending := none } hrun

/-- Two bytes of memory that no program may store to, with the stack pointer at the second. -/
def cramped : Cpu where
  registers := { b := 0x12, c := 0x34, d := 0x56, e := 0x78, h := 0x9A, l := 0xBC }
  sp := 1
  interruptsEnabled := true
  pending := some (.ofNat 2)
  memory := { cells := some #[0x12, 0x34], window := ⟨0, 0⟩ }

/-- XTHL reads the last byte before it fails at the next one, and a delivery fails where the
stack has gone around to the end of the address space. One address higher the delivery
succeeds, though neither of its stores takes place. STAX B, LDAX D, ADD M and LDA miss the
bytes that they are about, at BC, DE, HL and the operand. INR M counts nothing where there is
no memory, and NOP needs none. -/
theorem failure_is_the_first_missing_byte_of_cramped :
    (cramped.execute ⟨0xE3, 0, 0⟩).result = .error (.outOfBounds 2 2) ∧
    cramped.step.result = .error (.outOfBounds 0xFFFF 2) ∧
    (∃ outcome, ({ cramped with sp := 2 } : Cpu).step.result = .ok outcome) ∧
    (cramped.execute ⟨0x02, 0, 0⟩).result = .error (.outOfBounds 0x1234 2) ∧
    (cramped.execute ⟨0x1A, 0, 0⟩).result = .error (.outOfBounds 0x5678 2) ∧
    (cramped.execute ⟨0x86, 0, 0⟩).result = .error (.outOfBounds 0x9ABC 2) ∧
    (cramped.execute ⟨0x3A, 0x34, 0x12⟩).result = .error (.outOfBounds 0x1234 2) ∧
    (({} : Cpu).execute ⟨0x34, 0, 0⟩).result = .error .unallocated ∧
    ∃ outcome, (({} : Cpu).execute ⟨0x00, 0, 0⟩).result = .ok outcome := by
  obtain ⟨hexecute, hdelivery⟩ := failure_is_the_first_missing_byte cramped
  obtain ⟨_, hhigher⟩ := failure_is_the_first_missing_byte { cramped with sp := 2 }
  obtain ⟨hempty, _⟩ := failure_is_the_first_missing_byte {}
  have hfirst (instruction : Instruction) (addr : Word)
      (h : ((cramped.dataAddrs instruction).find? fun addr =>
        cramped.memory.size ≤ addr.toNat) = some addr) :
      (cramped.execute instruction).result = .error (.outOfBounds addr.toNat 2) :=
    (hexecute instruction).eq_error h
  have hpush : (cramped.pushAddrs.find? fun addr =>
      cramped.memory.size ≤ addr.toNat) = some 0xFFFF := by decide
  have hroom : ∀ addr ∈ ({ cramped with sp := 2 } : Cpu).pushAddrs,
      addr.toNat < cramped.memory.size := by simp [Core.pushAddrs, cramped, Memory.size]
  refine ⟨hfirst ⟨0xE3, 0, 0⟩ 2 (by decide), ?_, ?_, hfirst ⟨0x02, 0, 0⟩ 0x1234 (by decide),
    hfirst ⟨0x1A, 0, 0⟩ 0x5678 (by decide), hfirst ⟨0x86, 0, 0⟩ 0x9ABC (by decide),
    hfirst ⟨0x3A, 0x34, 0x12⟩ 0x1234 (by decide), ?_, ?_⟩
  · exact (hdelivery (.ofNat 2) rfl rfl).eq_error hpush
  · exact (hhigher (.ofNat 2) rfl rfl).succeeds.mpr (.inr ⟨rfl, hroom⟩)
  · exact (hempty ⟨0x34, 0, 0⟩).unallocated.mpr ⟨by decide, rfl⟩
  · exact (hempty ⟨0x00, 0, 0⟩).succeeds.mpr (.inl rfl)

end Cpu

end Arcade8080
