import Arcade8080.Core.Step
import Arcade8080.Bus.Lemmas

/-!
Executing an instruction is performing it on the core that has moved past it.
The records that come first change neither the result nor memory, and fetching
stores nothing.
-/

namespace Arcade8080.Core

/-- The core whose program counter has moved on to the next instruction. -/
def past (core : Core) (instruction : Instruction) : Core :=
  { core with pc := core.pc + BitVec.ofNat 16 instruction.operation.length }

/-- What the execution of an instruction reports. -/
def report (core : Core) (instruction : Instruction) : StepOutcome :=
  .executed instruction.opcode instruction.operation.length (core.portAccess? instruction)

theorem run_announce (core : Core) (instruction : Instruction) (memory : Memory) :
    ∃ records, (core.announce instruction).run memory = ⟨.ok (), memory, records⟩ := by
  simp only [announce, Bus.run_emit_bind]
  cases instruction.operation with
  | hlt => exact ⟨_, rfl⟩
  | unassigned => exact ⟨_, rfl⟩
  | _ => exact ⟨_, rfl⟩

theorem run_execute (core : Core) (instruction : Instruction) (memory : Memory) :
    ∃ records, (core.execute instruction).run memory =
      (((core.past instruction).perform instruction >>= fun after =>
        pure (core.report instruction, after)).run memory).after records := by
  obtain ⟨records, hannounce⟩ := run_announce core instruction memory
  refine ⟨records, ?_⟩
  rw [execute, Bus.run_bind, hannounce]
  rfl

theorem result_run_execute (core : Core) (instruction : Instruction) (memory : Memory) :
    ((core.execute instruction).run memory).result =
      (((core.past instruction).perform instruction).run memory).result.map fun after =>
        (core.report instruction, after) := by
  obtain ⟨records, hrun⟩ := run_execute core instruction memory
  rw [hrun, Bus.run_bind_pure]
  rfl

theorem state_run_execute (core : Core) (instruction : Instruction) (memory : Memory) :
    ((core.execute instruction).run memory).state =
      (((core.past instruction).perform instruction).run memory).state := by
  obtain ⟨records, hrun⟩ := run_execute core instruction memory
  rw [hrun, Bus.run_bind_pure]
  rfl

theorem readOnly_readOperand (core : Core) (source : Operand) :
    (core.readOperand source).ReadOnly := by
  cases source with
  | register name => exact Bus.readOnly_pure _
  | memory => exact Bus.readOnly_load _

theorem readOnly_loadWord (addr : Word) : (loadWord addr).ReadOnly := by
  apply (Bus.readOnly_load addr).bind
  intro low
  exact (Bus.readOnly_load (addr + 1)).bind_pure _

theorem readOnly_pop (core : Core) : core.pop.ReadOnly := by
  exact (readOnly_loadWord core.sp).bind_pure _

theorem fetch_eq (core : Core) :
    core.fetch = Bus.load core.pc >>= fun opcode =>
      (if 1 < (Operation.decode opcode).length then Bus.load (core.pc + 1) else pure 0) >>=
        fun lo =>
      (if 2 < (Operation.decode opcode).length then Bus.load (core.pc + 2) else pure 0) >>=
        fun hi => pure ⟨opcode, lo, hi⟩ := by
  simp only [fetch]
  congr 1
  funext opcode
  by_cases htwo : 1 < (Operation.decode opcode).length <;>
    by_cases hthree : 2 < (Operation.decode opcode).length <;>
      simp only [htwo, hthree, if_true, if_false]

theorem readOnly_fetch (core : Core) : core.fetch.ReadOnly := by
  have hoperand (present : Prop) [Decidable present] (addr : Word) :
      (if present then Bus.load addr else pure 0).ReadOnly := by
    split
    · exact Bus.readOnly_load addr
    · exact Bus.readOnly_pure 0
  rw [fetch_eq]
  apply (Bus.readOnly_load core.pc).bind
  intro opcode
  apply (hoperand _ (core.pc + 1)).bind
  intro lo
  exact (hoperand _ (core.pc + 2)).bind_pure _

theorem lt_size_of_loadWord {addr value : Word} {memory : Memory}
    (h : ((loadWord addr).run memory).result = .ok value) :
    addr.toNat < memory.size ∧ (addr + 1).toNat < memory.size := by
  rw [loadWord, Bus.run_bind] at h
  obtain ⟨low, hlow, hrest⟩ := Attempt.result_andThen_eq_ok_iff.mp h
  rw [(Bus.readOnly_load addr).state_run, Bus.run_bind] at hrest
  obtain ⟨high, hhigh, _⟩ := Attempt.result_andThen_eq_ok_iff.mp hrest
  rw [Bus.result_run_load] at hlow hhigh
  exact ⟨Memory.lt_size_of_read hlow, Memory.lt_size_of_read hhigh⟩

theorem run_loadWord_bind_of_byte {α : Type} {addr : Word} {memory : Memory} {low high : Byte}
    (hlow : memory.byte? addr.toNat = some low) (hhigh : memory.byte? (addr + 1).toNat = some high)
    (next : Word → Bus α) :
    (loadWord addr >>= next).run memory = (next (Word.ofBytes high low)).run memory := by
  rw [loadWord, bind_assoc, Bus.run_load_bind_of_byte hlow, bind_assoc,
    Bus.run_load_bind_of_byte hhigh, pure_bind]

theorem run_storeWord (addr value : Word) (memory : Memory) :
    (storeWord addr value).run memory =
      (memory.write addr.toNat (Word.low value)).andThen fun _ middle =>
        middle.write (addr + 1).toNat (Word.high value) := by
  simp only [storeWord, Bus.run_bind, Bus.run_store]

/-- A word is stored wherever both of its bytes have a place in memory. A store
that the window drops is no failure. -/
theorem result_storeWord_eq_ok_iff {addr value : Word} {memory : Memory} :
    ((storeWord addr value).run memory).result = .ok () ↔
      addr.toNat < memory.size ∧ (addr + 1).toNat < memory.size := by
  rw [run_storeWord, Attempt.result_andThen_eq_ok_iff]
  simp only [Memory.result_write_eq_ok_iff, Memory.size_write]
  constructor
  · rintro ⟨_, hlow, hhigh⟩
    exact ⟨hlow, hhigh⟩
  · rintro ⟨hlow, hhigh⟩
    exact ⟨(), hlow, hhigh⟩

theorem run_storeWord_of_lt {addr : Word} {memory : Memory} (hlow : addr.toNat < memory.size)
    (hhigh : (addr + 1).toNat < memory.size) (value : Word) :
    ∃ records, (storeWord addr value).run memory =
      ⟨.ok (), ((memory.write addr.toNat (Word.low value)).state.write (addr + 1).toNat
        (Word.high value)).state, records⟩ := by
  have hfirst : (memory.write addr.toNat (Word.low value)).result = .ok () :=
    Memory.result_write_eq_ok_iff.mpr hlow
  have hresult : ((storeWord addr value).run memory).result = .ok () :=
    result_storeWord_eq_ok_iff.mpr ⟨hlow, hhigh⟩
  have hstate : ((storeWord addr value).run memory).state =
      ((memory.write addr.toNat (Word.low value)).state.write (addr + 1).toNat
        (Word.high value)).state := by
    rw [run_storeWord, Attempt.state_andThen_of_ok hfirst]
  refine ⟨((storeWord addr value).run memory).records, ?_⟩
  rw [← hstate, ← hresult]

/-- A call is the store of its return address, and nothing that can fail after it. -/
theorem call_eq (core : Core) (target : Word) :
    core.call target = storeWord (core.sp - 2) core.pc >>= fun _ =>
      pure { core with sp := core.sp - 2, pc := target } := by
  simp only [call, push, bind_assoc, pure_bind]

/-- The core that has entered the handler of a restart. -/
def handled (core : Core) (number : Restart) : Core :=
  { core with sp := core.sp - 2, pc := number.address, interruptsEnabled := false }

theorem run_enterHandler (core : Core) (number : Restart) (memory : Memory) :
    (core.enterHandler number).run memory =
      ((storeWord (core.sp - 2) core.pc).run memory).andThen fun _ after =>
        ⟨.ok (core.handled number), after, [.requestTaken number core.pc]⟩ := by
  rw [enterHandler, call_eq, bind_assoc, Bus.run_bind]
  rfl

/-- Delivering a request is the store of the program counter, followed by the
jump to the handler if that store succeeds. -/
theorem result_run_step_of_due {core : Core} (h : core.interruptsEnabled = true)
    (number : Restart) (memory : Memory) :
    ((core.step (some number)).run memory).result =
      ((storeWord (core.sp - 2) core.pc).run memory).result.map fun _ =>
        (.interrupted number, core.handled number) := by
  simp only [step, h, if_true]
  rw [Bus.run_bind_pure, run_enterHandler]
  rcases (storeWord (core.sp - 2) core.pc).run memory with ⟨_ | _, after, records⟩ <;> rfl

theorem state_run_step_of_due {core : Core} (h : core.interruptsEnabled = true)
    (number : Restart) (memory : Memory) :
    ((core.step (some number)).run memory).state =
      ((storeWord (core.sp - 2) core.pc).run memory).state := by
  simp only [step, h, if_true]
  rw [Bus.run_bind_pure, run_enterHandler]
  rcases (storeWord (core.sp - 2) core.pc).run memory with ⟨_ | _, after, records⟩ <;> rfl

/-- A step that delivers no request loses it, if there is one, and fetches and executes. -/
theorem run_step_of_idle {core : Core} {request : Option Restart}
    (h : request = none ∨ core.interruptsEnabled = false) (memory : Memory) :
    (core.step request).run memory =
      ((core.fetch >>= core.execute).run memory).after (request.toList.map .requestDropped) := by
  cases request with
  | none => rfl
  | some number =>
    have hmasked : core.interruptsEnabled = false := by simpa using h
    simp only [step, hmasked, Bool.false_eq_true, if_false]
    exact Bus.run_emit_bind _ _ memory

/-- Fetching gives an instruction to execute on the same memory, or a fault that
leaves memory alone. -/
theorem run_fetch_bind {α : Type} (core : Core) (next : Instruction → Bus α) (memory : Memory) :
    (∃ instruction records, (core.fetch.run memory).result = .ok instruction ∧
      (core.fetch >>= next).run memory = ((next instruction).run memory).after records) ∨
    (∃ fault records, (core.fetch.run memory).result = .error fault ∧
      (core.fetch >>= next).run memory = ⟨.error fault, memory, records⟩) := by
  have hstate := (readOnly_fetch core).state_run memory
  rw [Bus.run_bind]
  generalize core.fetch.run memory = fetched at hstate ⊢
  obtain ⟨fault | instruction, after, records⟩ := fetched
  · cases hstate
    exact .inr ⟨fault, records, rfl, rfl⟩
  · cases hstate
    exact .inl ⟨instruction, records, rfl, rfl⟩

/-- What a step can be: the delivery of a request, the execution of the
instruction at the program counter, or a fault on the way to that instruction. -/
theorem step_cases (core : Core) (request : Option Restart) (memory : Memory) :
    (∃ number, request = some number ∧ core.interruptsEnabled = true ∧
      ((core.step request).run memory).result =
        ((storeWord (core.sp - 2) core.pc).run memory).result.map (fun _ =>
          (.interrupted number, core.handled number)) ∧
      ((core.step request).run memory).state =
        ((storeWord (core.sp - 2) core.pc).run memory).state) ∨
    ¬ (request.isSome = true ∧ core.interruptsEnabled = true) ∧
      ((∃ instruction, (core.fetch.run memory).result = .ok instruction ∧
        ((core.step request).run memory).result = ((core.execute instruction).run memory).result ∧
        ((core.step request).run memory).state = ((core.execute instruction).run memory).state) ∨
      ∃ fault, (core.fetch.run memory).result = .error fault ∧
        ((core.step request).run memory).result = .error fault ∧
        ((core.step request).run memory).state = memory) := by
  by_cases hdue : request.isSome = true ∧ core.interruptsEnabled = true
  · obtain ⟨hsome, henabled⟩ := hdue
    obtain ⟨number, rfl⟩ := Option.isSome_iff_exists.mp hsome
    have hresult := result_run_step_of_due henabled number memory
    have hstate := state_run_step_of_due henabled number memory
    exact .inl ⟨number, rfl, henabled, hresult, hstate⟩
  · have hidle : request = none ∨ core.interruptsEnabled = false := by
      cases request with
      | none => exact .inl rfl
      | some number => exact .inr (by simpa using hdue)
    rw [run_step_of_idle hidle]
    refine .inr ⟨hdue, ?_⟩
    rcases core.run_fetch_bind core.execute memory with
      ⟨instruction, read, hfetch, hrun⟩ | ⟨fault, read, hfetch, hrun⟩
    · rw [hrun]
      exact .inl ⟨instruction, hfetch, rfl, rfl⟩
    · rw [hrun]
      exact .inr ⟨fault, hfetch, rfl, rfl⟩

end Arcade8080.Core
