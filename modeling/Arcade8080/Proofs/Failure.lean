import Arcade8080.Board.Lemmas
import Arcade8080.Core.Lemmas
import Arcade8080.Proofs.Protection

/-!
What an operation leaves behind when it fails. No instruction changes the core before
the last of its accesses that can fail. Nearly every instruction reads
before it stores and stores at most once, so a fault finds memory untouched.
Only the store of a word can stop half way: its low byte then stands on the
last byte of memory, and its high byte is the one without a place.
-/

namespace Arcade8080

/-- The last byte of memory is at this address, and the window is open for it. -/
def Memory.EndsOpen (memory : Memory) (addr : Word) : Prop :=
  addr.toNat + 1 = memory.size ∧ memory.window.contains addr.toNat = true

/-- What a failed operation leaves of memory, given the word that it was storing,
if it was storing one: half of that word, or what there was. -/
structure Memory.Remnant (before after : Memory) (store : Option (Word × Word))
    (fault : Fault) : Prop where
  torn : ∀ addr value, store = some (addr, value) → before.EndsOpen addr →
    fault = .outOfBounds before.size before.size ∧
    ∀ other, after.byte? other =
      if other = addr.toNat then some (Word.low value) else before.byte? other
  intact : (∀ addr value, store = some (addr, value) → ¬ before.EndsOpen addr) → after = before

namespace Bus

variable {α β : Type} {memory : Memory}

/-- Where the program fails, it leaves memory as it found it. -/
def Clean (program : Bus α) (memory : Memory) : Prop :=
  ∀ fault, (program.run memory).result = .error fault → (program.run memory).state = memory

theorem ReadOnly.clean {program : Bus α} (h : program.ReadOnly) : program.Clean memory :=
  fun _ _ => h.state_run memory

theorem clean_pure (value : α) : (pure value : Bus α).Clean memory :=
  (readOnly_pure value).clean

/-- What comes before the first store does not matter, as long as the rest is
clean for every value that was read. -/
theorem ReadOnly.clean_bind {program : Bus α} {f : α → Bus β} (first : program.ReadOnly)
    (rest : ∀ value, (f value).Clean memory) : (program >>= f).Clean memory := by
  intro fault hfault
  rw [run_bind] at hfault ⊢
  rcases Attempt.result_andThen_eq_error_iff.mp hfault with hfirst | ⟨value, hfirst, hrest⟩
  · rw [Attempt.state_andThen_of_error hfirst]
    exact first.state_run memory
  · rw [Attempt.state_andThen_of_ok hfirst]
    rw [first.state_run memory] at hrest ⊢
    exact rest value fault hrest

theorem clean_store (addr : Word) (value : Byte) : (store addr value).Clean memory := by
  intro fault hfault
  rw [run_store] at hfault ⊢
  have hpast : memory.size ≤ addr.toNat := (Memory.result_write_eq_error_iff.mp hfault).1
  apply Memory.state_write_of_not
  rintro ⟨hsize, _⟩
  omega

theorem Clean.bind_pure {program : Bus α} (h : program.Clean memory) (f : α → β) :
    (program >>= fun value => pure (f value)).Clean memory := by
  intro fault hfault
  rw [run_bind_pure] at hfault ⊢
  exact h fault (Attempt.map_eq_error_iff.mp hfault)

end Bus

namespace Core

variable {memory : Memory}

theorem clean_writeOperand (core : Core) (target : Operand) (value : Byte) :
    (core.writeOperand target value).Clean memory := by
  cases target with
  | register name => exact Bus.clean_pure _
  | memory => exact (Bus.clean_store _ value).bind_pure fun _ => core

/-- A store of a word fails half way only where memory ends between its bytes. -/
theorem storeWord_of_error {addr value : Word} {fault : Fault}
    (h : ((storeWord addr value).run memory).result = .error fault) :
    (memory.EndsOpen addr →
      fault = .outOfBounds memory.size memory.size ∧
      ((storeWord addr value).run memory).state =
        (memory.write addr.toNat (Word.low value)).state) ∧
    (¬ memory.EndsOpen addr → ((storeWord addr value).run memory).state = memory) := by
  rw [run_storeWord] at h ⊢
  rcases Attempt.result_andThen_eq_error_iff.mp h with hlow | ⟨_, hlow, hhigh⟩
  · -- The low byte has no place, so memory does not end after it either.
    have hpast : memory.size ≤ addr.toNat := (Memory.result_write_eq_error_iff.mp hlow).1
    rw [Attempt.state_andThen_of_error hlow]
    constructor
    · intro hends
      have hlast := hends.1
      omega
    · intro _
      apply Memory.state_write_of_not
      rintro ⟨hsize, _⟩
      omega
  · have hsize : addr.toNat < memory.size := Memory.result_write_eq_ok_iff.mp hlow
    have hmiddle : (memory.write addr.toNat (Word.low value)).state.size = memory.size :=
      Memory.size_write _ _ _
    obtain ⟨hpast, hfault⟩ := Memory.result_write_eq_error_iff.mp hhigh
    rw [hmiddle] at hpast
    -- An address that wraps to 0 is in memory, so the high byte lies right behind its end.
    have hlast : (addr + 1).toNat = memory.size ∧ addr.toNat + 1 = memory.size := by
      have hnext := Word.toNat_succ addr
      split at hnext <;> omega
    rw [Memory.faultAt_of_lt (hmiddle.symm ▸ hsize), hmiddle, hlast.1] at hfault
    rw [Attempt.state_andThen_of_ok hlow]
    have hdropped : ((memory.write addr.toNat (Word.low value)).state.write (addr + 1).toNat
        (Word.high value)).state = (memory.write addr.toNat (Word.low value)).state := by
      apply Memory.state_write_of_not
      rintro ⟨hin, _⟩
      omega
    rw [hdropped]
    constructor
    · intro _
      exact ⟨hfault, rfl⟩
    · intro hnot
      apply Memory.state_write_of_not
      rintro ⟨_, hopen⟩
      exact hnot ⟨hlast.2, hopen⟩

/-- The address and the value of the word that an instruction stores, if it
stores one. XTHL does not count: it stores over two bytes that it has read. -/
def wordStore? (core : Core) (instruction : Instruction) : Option (Word × Word) :=
  let return_ := (core.past instruction).pc
  match instruction.operation with
  | .shld => some (instruction.word, core.registers.hl)
  | .push source => some (core.sp - 2, core.stackOperand source)
  | .call | .rst _ => some (core.sp - 2, return_)
  | .callIf condition => if condition.holds core.flags then some (core.sp - 2, return_) else none
  | _ => none

theorem perform_of_wordStore? {core : Core} {instruction : Instruction} {addr value : Word}
    (h : core.wordStore? instruction = some (addr, value)) :
    ∃ after, (core.past instruction).perform instruction =
      storeWord addr value >>= fun _ => pure after := by
  simp only [wordStore?] at h
  simp only [perform]
  cases hoperation : instruction.operation with
  | shld =>
    simp only [hoperation] at h ⊢
    cases h
    exact ⟨_, rfl⟩
  | push source =>
    simp only [hoperation] at h ⊢
    cases h
    cases source <;> exact ⟨_, rfl⟩
  | call =>
    simp only [hoperation] at h ⊢
    cases h
    exact ⟨_, call_eq _ _⟩
  | rst number =>
    simp only [hoperation] at h ⊢
    cases h
    exact ⟨_, call_eq _ _⟩
  | callIf condition =>
    have hflags : (core.past instruction).flags = core.flags := rfl
    simp only [hoperation, hflags] at h ⊢
    split at h
    · rename_i htaken
      cases h
      rw [if_pos htaken]
      exact ⟨_, call_eq _ _⟩
    · cases h
  | _ =>
    simp only [hoperation] at h
    cases h

/-- XTHL stores where it has just read, so its stores find their places. -/
theorem clean_xthl (core : Core) (after : Word → Core) :
    (loadWord core.sp >>= fun value =>
      storeWord core.sp core.registers.hl >>= fun _ => pure (after value)).Clean memory := by
  intro fault hfault
  rw [Bus.run_bind] at hfault ⊢
  rcases Attempt.result_andThen_eq_error_iff.mp hfault with hload | ⟨value, hload, hstore⟩
  · rw [Attempt.state_andThen_of_error hload]
    exact (readOnly_loadWord core.sp).state_run memory
  · obtain ⟨hlow, hhigh⟩ := lt_size_of_loadWord hload
    rw [(readOnly_loadWord core.sp).state_run, Bus.run_bind_pure] at hstore
    rw [result_storeWord_eq_ok_iff.mpr ⟨hlow, hhigh⟩] at hstore
    cases hstore

theorem clean_perform {core : Core} {instruction : Instruction}
    (h : core.wordStore? instruction = none) :
    ((core.past instruction).perform instruction).Clean memory := by
  simp only [wordStore?] at h
  simp only [perform]
  cases hoperation : instruction.operation with
  | shld | push | call | rst =>
    simp only [hoperation] at h
    cases h
  | callIf condition =>
    have hflags : (core.past instruction).flags = core.flags := rfl
    simp only [hoperation, hflags] at h ⊢
    split at h
    · cases h
    · rename_i hskipped
      rw [if_neg hskipped]
      exact Bus.clean_pure _
  | mov target source =>
    exact (readOnly_readOperand _ source).clean_bind fun value => clean_writeOperand _ target value
  | mvi target => exact clean_writeOperand _ target _
  | stax | sta => exact (Bus.clean_store _ _).bind_pure _
  | ldax | lda => exact ((Bus.readOnly_load _).bind_pure _).clean
  | lhld => exact ((readOnly_loadWord _).bind_pure _).clean
  | inr target =>
    exact (readOnly_readOperand _ target).clean_bind fun value => clean_writeOperand _ target _
  | dcr target =>
    exact (readOnly_readOperand _ target).clean_bind fun value => clean_writeOperand _ target _
  | arithmetic kind source =>
    exact ((readOnly_readOperand _ source).bind_pure _).clean
  | ret => exact ((readOnly_pop _).bind_pure _).clean
  | retIf condition =>
    dsimp only
    split
    · exact ((readOnly_pop _).bind_pure _).clean
    · exact Bus.clean_pure _
  | jumpIf condition =>
    dsimp only
    split
    · exact Bus.clean_pure _
    · exact Bus.clean_pure _
  | pop target => exact ((readOnly_pop _).bind_pure _).clean
  | xthl => exact clean_xthl _ _
  | _ => exact Bus.clean_pure _

theorem remnant_of_eq (memory : Memory) (fault : Fault) :
    memory.Remnant memory none fault where
  torn := by
    intro addr value h
    cases h
  intact := fun _ => rfl

theorem remnant_storeWord {addr value : Word} {fault : Fault}
    (h : ((storeWord addr value).run memory).result = .error fault) :
    memory.Remnant ((storeWord addr value).run memory).state (some (addr, value)) fault where
  torn := by
    intro _ _ hstore hends
    cases hstore
    obtain ⟨hfault, hstate⟩ := (storeWord_of_error h).1 hends
    refine ⟨hfault, fun other => ?_⟩
    have hlast : addr.toNat < memory.size := by
      have := hends.1
      omega
    rw [hstate, Memory.byte?_write]
    simp only [hlast, hends.2, and_self, and_true]
  intact := fun hnot => (storeWord_of_error h).2 (hnot addr value rfl)

theorem remnant_execute {core : Core} {instruction : Instruction} {fault : Fault}
    (h : ((core.execute instruction).run memory).result = .error fault) :
    memory.Remnant ((core.execute instruction).run memory).state (core.wordStore? instruction)
      fault := by
  rw [result_run_execute, Attempt.map_eq_error_iff] at h
  rw [state_run_execute]
  cases hstore : core.wordStore? instruction with
  | none =>
    rw [clean_perform hstore fault h]
    exact remnant_of_eq memory fault
  | some word =>
    obtain ⟨addr, value⟩ := word
    obtain ⟨after, hprogram⟩ := perform_of_wordStore? hstore
    rw [hprogram, Bus.run_bind_pure] at h ⊢
    exact remnant_storeWord (Attempt.map_eq_error_iff.mp h)

/-- The word that a step stores: the program counter where it delivers a request,
and otherwise what the instruction at the program counter stores. -/
def stepStore? (core : Core) (request : Option Restart) (memory : Memory) :
    Option (Word × Word) :=
  if request.isSome && core.interruptsEnabled then some (core.sp - 2, core.pc)
  else
    match (core.fetch.run memory).result with
    | .ok instruction => core.wordStore? instruction
    | .error _ => none

theorem remnant_step {core : Core} {request : Option Restart} {fault : Fault}
    (h : ((core.step request).run memory).result = .error fault) :
    memory.Remnant ((core.step request).run memory).state (core.stepStore? request memory)
      fault := by
  rcases core.step_cases request memory with
    ⟨number, rfl, henabled, hresult, hstate⟩ |
      ⟨hidle, ⟨instruction, hfetch, hresult, hstate⟩ | ⟨reason, hfetch, hresult, hstate⟩⟩
  · rw [hresult, Attempt.map_eq_error_iff] at h
    have hdelivery : core.stepStore? (some number) memory = some (core.sp - 2, core.pc) := by
      simp [stepStore?, henabled]
    rw [hdelivery, hstate]
    exact remnant_storeWord h
  · rw [hresult] at h
    have hexecution : core.stepStore? request memory = core.wordStore? instruction := by
      simp only [stepStore?, Bool.and_eq_true, hidle, if_false, hfetch]
    rw [hexecution, hstate]
    exact remnant_execute h
  · have hnothing : core.stepStore? request memory = none := by
      simp only [stepStore?, Bool.and_eq_true, hidle, if_false, hfetch]
    rw [hnothing, hstate]
    exact remnant_of_eq memory fault

end Core

namespace Cpu

/-- What a failed operation leaves of a processor: all but memory as it was, and
of memory the amount, the window and all bytes but perhaps the last one. -/
structure Rollback (before after : Cpu) (store : Option (Word × Word)) (fault : Fault) :
    Prop where
  core : after.toCore = before.toCore
  config : after.config = before.config
  confined : before.memory.Confined after.memory
  remnant : before.memory.Remnant after.memory store fault

theorem rollback_transact {α : Type} {cpu : Cpu} {program : Core → Bus (α × Core)}
    {store : Option (Word × Word)} {fault : Fault}
    (h : (cpu.transact program).result = .error fault)
    (hremnant : cpu.memory.Remnant ((program cpu.toCore).run cpu.memory).state store fault) :
    cpu.Rollback (cpu.transact program).state store fault where
  core := core_transact_of_error (result_transact_eq_error_iff.mp h)
  config := config_transact cpu program
  confined := confined_transact cpu program
  remnant := by
    rw [memory_transact]
    exact hremnant

/-- A failed instruction or step takes nothing back but what it had not stored
yet, and that is at most the last byte of memory: the low half of a word whose
high half has no place. A failed step has used up its request, a failed
instruction leaves one alone, and no port notices either. -/
theorem failure_rolls_back :
    (∀ (cpu : Cpu) (instruction : Instruction) (fault : Fault),
      (cpu.execute instruction).result = .error fault →
        cpu.Rollback (cpu.execute instruction).state (cpu.wordStore? instruction) fault ∧
        (cpu.execute instruction).state.pending = cpu.pending) ∧
    (∀ (cpu : Cpu) (fault : Fault), cpu.step.result = .error fault →
      cpu.Rollback cpu.step.state (cpu.stepStore? cpu.pending cpu.memory) fault ∧
      cpu.step.state.pending = none) ∧
    (∀ (board : Board) (fault : Fault), board.step.result = .error fault →
      board.step.state.ports = board.ports ∧ board.step.state.halfFrame = board.halfFrame ∧
      board.step.state.cpu = board.cpu.step.state) := by
  refine ⟨?_, ?_, ?_⟩
  · intro cpu instruction fault h
    rw [execute_eq] at h ⊢
    refine ⟨rollback_transact h ?_, pending_transact cpu _⟩
    exact Core.remnant_execute (result_transact_eq_error_iff.mp h)
  · intro cpu fault h
    rw [step_eq] at h ⊢
    have hrun := result_transact_eq_error_iff.mp h
    have hback := rollback_transact h (Core.remnant_step hrun)
    exact ⟨⟨hback.core, hback.config, hback.confined, hback.remnant⟩, pending_transact _ _⟩
  · intro board fault h
    rw [Board.result_step] at h
    rw [Board.state_step_of_error h]
    exact ⟨rfl, rfl, rfl⟩

/-- Two bytes of memory, a request, and a stack that begins behind them. -/
def cornered : Cpu where
  registers := { h := 0x12, l := 0x34 }
  pc := 0xABCD
  sp := 3
  interruptsEnabled := true
  pending := some 5
  memory := ⟨some #[0xFF, 0xFF], .unrestricted, by decide⟩

/-- SHLD 0001 and the delivery of the request both get as far as address 1, and a CALL
as well. INR M would set flags first, but it does not get past its read. -/
theorem failure_rolls_back_to_half_a_word :
    ((cornered.execute (.ofWord 0x22 1)).result = .error (.outOfBounds 2 2) ∧
      (cornered.execute (.ofWord 0x22 1)).state.pending = some 5 ∧
      (cornered.execute (.ofWord 0x22 1)).state.memory.byte? 1 = some 0x34) ∧
    (cornered.step.result = .error (.outOfBounds 2 2) ∧
      cornered.step.state.pending = none ∧
      cornered.step.state.toCore = cornered.toCore ∧
      cornered.step.state.memory.byte? 1 = some 0xCD) ∧
    (cornered.execute (.ofWord 0xCD 0)).state.toCore = cornered.toCore ∧
    (cornered.execute ⟨0x34, 0, 0⟩).state.toCore = cornered.toCore ∧
    (Board.step ⟨cornered, .ofLatches 0 0, 1⟩).result = .error (.outOfBounds 2 2) ∧
    (Board.step ⟨cornered, .ofLatches 0 0, 1⟩).state.ports = .ofLatches 0 0 := by
  have hends : cornered.memory.EndsOpen 1 := ⟨rfl, rfl⟩
  obtain ⟨hshld, hkept⟩ :=
    failure_rolls_back.1 cornered (.ofWord 0x22 1) (.outOfBounds 2 2) rfl
  have hlow := (hshld.remnant.torn 1 0x1234 rfl hends).2 1
  obtain ⟨hstep, hused⟩ := failure_rolls_back.2.1 cornered (.outOfBounds 2 2) rfl
  have hpushed := (hstep.remnant.torn 1 0xABCD rfl hends).2 1
  obtain ⟨hcall, _⟩ :=
    failure_rolls_back.1 cornered (.ofWord 0xCD 0) (.outOfBounds 2 2) rfl
  obtain ⟨hinr, _⟩ :=
    failure_rolls_back.1 cornered ⟨0x34, 0, 0⟩ (.outOfBounds 0x1234 2) rfl
  have hports := failure_rolls_back.2.2 ⟨cornered, .ofLatches 0 0, 1⟩ (.outOfBounds 2 2) rfl
  exact ⟨⟨rfl, hkept, hlow⟩, ⟨rfl, hused, hstep.core, hpushed⟩, hcall.core, hinr.core, rfl,
    hports.1⟩

end Cpu

end Arcade8080
